import ArrayContract.Proofs.Shape.Resolve
import ArrayContract.Proofs.Text.Delimited
import Mathlib.Data.List.Nodup

/-! # The texts of shapes

The text of a declared shape is prefix-free: a text that begins with it determines the shape and the
rest of the text (`ShapePattern.text_append_inj`). An axis is a number or a star, and ends in front
of the comma or the closing parenthesis; behind the first axis the next two characters tell whether
another one follows, since the comma behind a single axis has no blank after it.

* `shape_texts_identify`: shapes of one text are equal, and so are the shapes asked for in two
  refusals of one message, although the shape stands in the midst of the message and the reason
  behind it may hold the text of a shape as well. -/

namespace ArrayContract

variable {a b : Axis} {as bs : List Axis} {p q : ShapePattern} {x y : List Char}

/-! ## Axes -/

namespace Axis

/-- **The text of an axis** in front of what begins with no digit determines the axis and the
rest. -/
theorem text_append_inj (hx : Text.NoDigit x) (hy : Text.NoDigit y)
    (h : a.text.toList ++ x = b.text.toList ++ y) : a = b ∧ x = y := by
  rcases a with m | _ <;> rcases b with n | _
  · obtain ⟨rfl, hrest⟩ := Text.decimal_append_inj hx hy h
    exact ⟨rfl, hrest⟩
  · exact absurd h (Text.decimal_append_ne (by decide))
  · exact absurd h.symm (Text.decimal_append_ne (by decide))
  · exact ⟨rfl, (List.cons.inj h).2⟩

/-- The text of an axis is not empty, and no closing parenthesis is its first character. -/
theorem text_append_ne : a.text.toList ++ x ≠ ')' :: y := by
  rcases a with n | _
  · exact Text.decimal_append_ne (by decide)
  · exact fun h => absurd (List.cons.inj h).1 (by decide)

theorem delimited_text : Text.Delimited text ')' := fun _ _ as bs x y =>
  text_append_inj (Text.noDigit_behind (by decide) as x)
    (Text.noDigit_behind (by decide) bs y)

end Axis

/-! ## Shapes -/

namespace ShapePattern

open Text (behind)

/-- The text behind the first axis; a comma stands behind a single one. -/
def charsBehindFirst : List Axis → List Char
  | [] => [',', ')']
  | a :: as => behind Axis.text ')' (a :: as)

theorem noDigit_charsBehindFirst (as : List Axis) (x : List Char) :
    Text.NoDigit (charsBehindFirst as ++ x) := by
  cases as <;> rfl

theorem toList_text_any : any.text.toList = ['*'] := rfl

theorem toList_text_nil : (axes []).text.toList = ['(', ')'] := rfl

theorem toList_text_cons (a : Axis) (as : List Axis) :
    (axes (a :: as)).text.toList = '(' :: (a.text.toList ++ charsBehindFirst as) := by
  rcases as with _ | ⟨b, as⟩
  · simp [text, charsBehindFirst]
  · rw [charsBehindFirst, ← Text.toList_intercalate]
    simp [text]

/-- Behind the comma stands the closing parenthesis if the first axis is the only one, and a blank
if it is not. -/
theorem charsBehindFirst_append_inj (h : charsBehindFirst as ++ x = charsBehindFirst bs ++ y) :
    as = bs ∧ x = y := by
  rcases as with _ | ⟨a, as⟩ <;> rcases bs with _ | ⟨b, bs⟩
  · exact ⟨rfl, (List.cons.inj (List.cons.inj h).2).2⟩
  · exact absurd (List.cons.inj (List.cons.inj h).2).1 (by decide)
  · exact absurd (List.cons.inj (List.cons.inj h).2).1 (by decide)
  · exact Text.behind_append_inj (by decide) Axis.delimited_text h

/-- **The text of a shape is prefix-free.** -/
theorem text_append_inj (h : p.text.toList ++ x = q.text.toList ++ y) : p = q ∧ x = y := by
  -- no constraint, no axes and some axes differ in one of the first two characters
  rcases p with _ | _ | ⟨a, as⟩ <;> rcases q with _ | _ | ⟨b, bs⟩ <;>
    simp only [toList_text_any, toList_text_nil, toList_text_cons, List.cons_append,
      List.append_assoc, List.nil_append, List.cons.injEq, true_and] at h
  · exact ⟨rfl, h⟩
  · exact absurd h.1 (by decide)
  · exact absurd h.1 (by decide)
  · exact absurd h.1 (by decide)
  · exact ⟨rfl, h⟩
  · exact absurd h.symm Axis.text_append_ne
  · exact absurd h.1 (by decide)
  · exact absurd h Axis.text_append_ne
  · obtain ⟨rfl, hrest⟩ :=
      Axis.text_append_inj (noDigit_charsBehindFirst as x) (noDigit_charsBehindFirst bs y) h
    obtain ⟨rfl, rfl⟩ := charsBehindFirst_append_inj hrest
    exact ⟨rfl, rfl⟩

theorem text_injective : Function.Injective text := fun p q h =>
  (text_append_inj (x := []) (y := []) (by rw [h])).1

example : [.any, .axes [], .axes [.any], .axes [.fixed 3], .axes [.fixed 2, .any]].map text =
    ["*", "()", "(*,)", "(3,)", "(2, *)"] := by
  decide

end ShapePattern

/-! ## Messages -/

namespace Fault

variable {s t : Shape} {r r' : Misfit}

theorem message_shapeMismatch (p : ShapePattern) (s : Shape) (r : Misfit) :
    (shapeMismatch p s r).message =
      "The input object cannot be reshaped to " ++ (p.text ++ (". Error is " ++ r.text)) :=
  calc
    (shapeMismatch p s r).message
      = "The input object cannot be reshaped to " ++ p.text ++ ". Error is " ++ r.text := rfl
    _ = _ := by rw [String.append_assoc, String.append_assoc]

/-- The message of a misfit determines the shape asked for and the text of the reason. -/
theorem message_shapeMismatch_inj
    (h : (shapeMismatch p s r).message = (shapeMismatch q t r').message) :
    p = q ∧ r.text = r'.text := by
  rw [message_shapeMismatch, message_shapeMismatch, String.append_right_inj] at h
  have hchars := congrArg String.toList h
  simp only [String.toList_append] at hchars
  obtain ⟨rfl, hrest⟩ := ShapePattern.text_append_inj hchars
  rw [← String.toList_append, ← String.toList_append, String.toList_inj,
    String.append_right_inj] at hrest
  exact ⟨rfl, hrest⟩

end Fault

/-- **The text of a declared shape identifies it**: shapes of one text are equal. So no two of no
constraint, no axes, a single free axis and a single fixed axis have one text, and neither have
lists of axes of different lengths; and where two arrays are refused with the same message, the same
axes were asked for. -/
theorem shape_texts_identify :
    (∀ p q : ShapePattern, p.text = q.text → p = q) ∧
    (∀ n : Nat, ([.any, .axes [], .axes [.any], .axes [.fixed n]].map ShapePattern.text).Nodup) ∧
    (∀ as bs : List Axis, as.length ≠ bs.length →
      (ShapePattern.axes as).text ≠ (ShapePattern.axes bs).text) ∧
    ∀ (as bs : List Axis) (s t : Shape) (fault fault' : Fault),
      Shape.resolve as s = .error fault → Shape.resolve bs t = .error fault' →
      fault.message = fault'.message →
      as = bs ∧ ∃ reason reason', fault = .shapeMismatch (.axes as) s reason ∧
        fault' = .shapeMismatch (.axes as) t reason' := by
  refine ⟨ShapePattern.text_injective, fun n => ?_, fun as bs hl h => ?_, ?_⟩
  · exact List.Nodup.map ShapePattern.text_injective (by simp)
  · obtain rfl := ShapePattern.axes.inj (ShapePattern.text_injective h)
    exact hl rfl
  · intro as bs s t fault fault' h h' hm
    obtain ⟨reason, rfl, -⟩ := Shape.resolve_eq_error h
    obtain ⟨reason', rfl, -⟩ := Shape.resolve_eq_error h'
    obtain ⟨hp, -⟩ := Fault.message_shapeMismatch_inj hm
    obtain rfl := ShapePattern.axes.inj hp
    exact ⟨rfl, reason, reason', rfl, rfl⟩

/-- Arrays of two shapes that are refused with one message. -/
theorem shape_texts_identify_refusals :
    let axes : List Axis := [.fixed 2, .any]
    let fault (s : Shape) : Fault := .shapeMismatch (.axes axes) s (.size 3 axes)
    Shape.resolve axes [3] = .error (fault [3]) ∧ Shape.resolve axes [1, 3] = .error (fault [1, 3]) ∧
      (fault [3]).message = (fault [1, 3]).message ∧ fault [3] ≠ fault [1, 3] ∧
      ∃ reason reason', fault [3] = .shapeMismatch (.axes axes) [3] reason ∧
        fault [1, 3] = .shapeMismatch (.axes axes) [1, 3] reason' := by
  intro axes fault
  have h : Shape.resolve axes [3] = .error (fault [3]) := by rfl
  have h' : Shape.resolve axes [1, 3] = .error (fault [1, 3]) := by rfl
  have hm : (fault [3]).message = (fault [1, 3]).message := by rfl
  obtain ⟨-, -, -, refusals⟩ := shape_texts_identify
  exact ⟨h, h', hm, by simp [fault], (refusals _ _ _ _ _ _ h h' hm).2⟩

end ArrayContract
