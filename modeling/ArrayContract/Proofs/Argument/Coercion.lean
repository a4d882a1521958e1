import ArrayContract.Argument.ArraySpec
import ArrayContract.Proofs.Value.Content

/-! # Coercion keeps the elements

`check` brings a value to a declaration without losing, repeating or moving an element: the elements
of the result are those of the value, each cast on its own (`content_of_check`). The shape changes
only where one is declared (`shape_of_check`). -/

namespace ArrayContract.ArraySpec

open Outcome

variable {s : ArraySpec} {v w : Value} {c : Column}

theorem content_of_checkType (h : (s.checkType v).result = .ok w) (hc : v.content? = some c) :
    w.content? = some (c.castAs s.type) ∧
      if s.type = .any then w = v else ∃ shape, v.HasShape shape ∧ w.shape? = some shape := by
  cases ht : s.type with
  | any =>
    rw [result_checkType_any ht] at h
    obtain rfl := Except.ok.inj h
    exact ⟨hc, rfl⟩
  | of t =>
    rw [result_checkType_of ht] at h
    exact Backend.content_of_convertType h hc

theorem content_of_checkShape (h : (s.checkShape v).result = .ok w) (hc : v.content? = some c) :
    w.content? = some c ∧ (s.shape = .any → w = v) := by
  cases hs : s.shape with
  | any =>
    rw [result_checkShape_any hs] at h
    obtain rfl := Except.ok.inj h
    exact ⟨hc, fun _ => rfl⟩
  | axes axes =>
    rw [result_checkShape_axes hs] at h
    exact ⟨Backend.content_of_convertShape h hc, nofun⟩

theorem content_of_check (h : (s.check v).result = .ok w) (hc : v.content? = some c) :
    w.content? = some (c.castAs s.type) := by
  rw [result_check, bind_eq_ok] at h
  obtain ⟨u, hu, hw⟩ := h
  exact (content_of_checkShape hw (content_of_checkType hu hc).1).1

theorem shape_of_check (h : (s.check v).result = .ok w) (hc : v.content? = some c)
    (hs : s.shape = .any) :
    if s.type = .any then w = v else ∃ shape, v.HasShape shape ∧ w.shape? = some shape := by
  rw [result_check, bind_eq_ok] at h
  obtain ⟨u, hu, hw⟩ := h
  obtain ⟨hcu, hsu⟩ := content_of_checkType hu hc
  rw [(content_of_checkShape hw hcu).2 hs]
  exact hsu

/-- **Coercion keeps the elements.** The elements of a checked value are those passed, in their
order, each cast on its own to the declared type or left as it is where none is declared; the
element at a place depends on nothing but the one passed at that place; and where no shape is
declared, the shape is the one passed, that of the rectangle for a nested sequence. The elements of
a nested sequence are its numbers from left to right: the integers, if there are some and nothing
else, and otherwise numbers of double precision, a nearest one for each integer. -/
theorem check_keeps_elements (h : (s.check v).result = .ok w) (hc : v.content? = some c) :
    ∃ t cells, c = .ofElements t cells ∧
      w.content? = some (match s.type with
        | .any => .ofElements t cells
        | .of u => .ofElements u (cells.map (Option.map (t.cast u)))) ∧
      (∀ v' w' cells', (s.check v').result = .ok w' → v'.content? = some (.ofElements t cells') →
        ∃ u ds ds', w.content? = some (.ofElements u ds) ∧ w'.content? = some (.ofElements u ds') ∧
          ∀ k : Nat, cells[k]? = cells'[k]? → ds[k]? = ds'[k]?) ∧
      (s.shape = .any →
        if s.type = .any then w = v else ∃ shape, v.HasShape shape ∧ w.shape? = some shape) ∧
      ∀ n, v = .nested n →
        (∃ ints, ints ≠ [] ∧ n.numbers = ints.map .int ∧ c = .ofElements .int64 (ints.map some)) ∨
        ((n.numbers = [] ∨ ∃ l ∈ n.numbers, l.isInt = false) ∧ ∃ words,
          List.Forall₂ Nested.Leaf.IsNearest n.numbers words ∧
            c = .ofElements .float64 (words.map some)) := by
  obtain ⟨t, cells, rfl⟩ := Value.exists_ofElements_of_content hc
  have hw := content_of_check h hc
  refine ⟨t, cells, rfl, ?_, fun v' w' cells' h' hc' => ?_, shape_of_check h hc, ?_⟩
  · rw [hw]
    cases s.type <;> rfl
  · rw [hw, content_of_check h' hc']
    cases s.type with
    | any => exact ⟨t, cells, cells', rfl, rfl, fun k hk => hk⟩
    | of u =>
      refine ⟨u, _, _, rfl, rfl, fun k hk => ?_⟩
      rw [List.getElem?_map, List.getElem?_map, hk]
  · rintro n rfl
    obtain hn : n.content = _ := Option.some.inj hc
    rw [← hn]
    exact n.content_cases

/-- Integers that do not fit keep their low bits, each at its place; beside a floating-point number,
integers become numbers of double precision, the nearest even one where two are equally close. -/
theorem check_keeps_elements_narrowed :
    ((ArraySpec.check { name := "x", type := .of .int8, shape := .axes [.any, .fixed 2] }
        (.nested (.list [.int 300, .int (-1), .int (-129), .int 5]))).result =
      .ok (.dense ⟨[2, 2], .int8, [44, -1, 127, 5]⟩) ∧
    ∃ t cells, Column.ofElements .int64 [some 300, some (-1), some (-129), some 5] =
        .ofElements t cells ∧
      (Value.dense ⟨[2, 2], .int8, [44, -1, 127, 5]⟩).content? =
        some (.ofElements .int8 (cells.map (Option.map (t.cast .int8))))) ∧
    let mixed : Nested := .list [.int 9007199254740993, .float 0x3fe0000000000000, .int 3]
    let words : List ElementType.float64.Word :=
      [0x4340000000000000, 0x3fe0000000000000, 0x4008000000000000]
    (ArraySpec.check { name := "y", type := .of .float64 } (.nested mixed)).result =
      .ok (.dense ⟨[3], .float64, words⟩) ∧
    (Value.nested mixed).content? = some (.ofElements .float64 (words.map some)) ∧
    List.Forall₂ Nested.Leaf.IsNearest mixed.numbers words := by
  constructor
  · have h : (ArraySpec.check { name := "x", type := .of .int8, shape := .axes [.any, .fixed 2] }
        (.nested (.list [.int 300, .int (-1), .int (-129), .int 5]))).result =
          .ok (.dense ⟨[2, 2], .int8, [44, -1, 127, 5]⟩) := by cbv
    have hc : (Value.nested (.list [.int 300, .int (-1), .int (-129), .int 5])).content? =
        some (.ofElements .int64 [some 300, some (-1), some (-129), some 5]) := by cbv
    obtain ⟨t, cells, he, hw, -⟩ := check_keeps_elements h hc
    exact ⟨h, t, cells, he, hw⟩
  · intro mixed words
    have hb : Nested.bufferOf mixed.numbers = ⟨.float64, words⟩ := by decide +kernel
    have hd : (Value.nested mixed).toDense = .ok ⟨[3], .float64, words⟩ :=
      congrArg (fun b => Except.ok (DenseArray.mk [3] b)) hb
    have h : (ArraySpec.check { name := "y", type := .of .float64 } (.nested mixed)).result =
        .ok (.dense ⟨[3], .float64, words⟩) := by
      rw [result_check, result_checkType_of rfl, Backend.result_convertType_host, hd]
      rfl
    have hc : (Value.nested mixed).content? = some (.ofElements .float64 (words.map some)) := by
      decide +kernel
    obtain ⟨t, cells, -, -, -, -, hmixed⟩ := check_keeps_elements h hc
    refine ⟨h, hc, ?_⟩
    rcases hmixed mixed rfl with ⟨ints, -, hints, -⟩ | ⟨-, words', hnear, he⟩
    · have hfloat : Nested.Leaf.float 0x3fe0000000000000 ∈ ints.map Nested.Leaf.int :=
        hints ▸ by simp [mixed, Nested.numbers, Nested.numbersOf]
      simp at hfloat
    · obtain rfl : words = words' := by
        have hcells := eq_of_heq (Column.mk.inj he).2
        exact List.map_injective_iff.mpr (Option.some_injective _) hcells
      exact hnear

end ArrayContract.ArraySpec
