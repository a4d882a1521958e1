import ArrayContract.Proofs.Json.Tokens
import Mathlib.Data.List.Forall2

/-! # Documents in a text

A document is `Plain` if its numbers are naturals that fit. Its text is then read back
(`ofText?_text`), by induction on the document: each part of it is read back in front of whatever
stands behind it (`Reads`), as long as no number goes on there. Behind a part stands a comma, a
closing bracket or the end of the text. The fuel is bounded by the length of the text, two steps for
each character. -/

namespace ArrayContract.Json

/-- All numbers are naturals that fit, and there is no string without a text. -/
inductive Plain : Json → Prop
  | null : Plain null
  | bool (b : Bool) : Plain (bool b)
  | natural {n : Nat} (h : n < naturalBound) : Plain (ofNat n)
  | string (s : String) : Plain (string s)
  | array {vs : List Json} (h : ∀ v ∈ vs, Plain v) : Plain (array vs)
  | object {ms : List (String × Json)} (h : ∀ m ∈ ms, Plain m.2) : Plain (object ms)

/-- The text starts with a token, which closes nothing. -/
def StartsValue (cs : List Char) : Prop :=
  ∃ c rest, cs = c :: rest ∧ isBlank c = false ∧ c ≠ ']' ∧ c ≠ '}'

/-- The value is read back in front of any text that no number goes on with. -/
structure Reads (v : Json) : Prop where
  start : StartsValue v.chars
  value : ∀ fuel rest, 2 * v.chars.length ≤ fuel + 2 → EndsNumber rest →
    value? (fuel + 1) (v.chars ++ rest) = some (v, rest)

variable {v : Json} {vs : List Json} {ms : List (String × Json)} {c : Char} {cs rest : List Char}
  {fuel n : Nat}

/-! ## The starts of texts -/

theorem skipBlanks_cons (h : isBlank c = false) : skipBlanks (c :: cs) = c :: cs := by
  simp [skipBlanks, h]

namespace StartsValue

theorem length_pos (h : StartsValue cs) : 0 < cs.length := by
  obtain ⟨c, rest, rfl, -⟩ := h
  exact Nat.succ_pos _

theorem append (h : StartsValue cs) (rest : List Char) : StartsValue (cs ++ rest) := by
  obtain ⟨c, cs, rfl, hc⟩ := h
  exact ⟨c, cs ++ rest, rfl, hc⟩

theorem skipBlanks_eq (h : StartsValue cs) : skipBlanks cs = cs := by
  obtain ⟨c, cs, rfl, hc, -⟩ := h
  exact skipBlanks_cons hc

end StartsValue

theorem startsValue_quote (s : String) : StartsValue (quote s) :=
  ⟨'"', _, rfl, rfl, by decide, by decide⟩

theorem itemChars_cons_cons (v w : Json) (vs : List Json) :
    itemChars (v :: w :: vs) = v.chars ++ ',' :: itemChars (w :: vs) := by
  rw [itemChars]
  exact nofun

theorem memberChars_cons_cons (s : String) (v : Json) (m : String × Json)
    (ms : List (String × Json)) : memberChars ((s, v) :: m :: ms) =
      quote s ++ ':' :: v.chars ++ ',' :: memberChars (m :: ms) := by
  rw [memberChars]
  exact nofun

theorem startsValue_itemChars (h : StartsValue v.chars) : StartsValue (itemChars (v :: vs)) := by
  rcases vs with _ | ⟨w, vs⟩
  · exact h
  · rw [itemChars_cons_cons]
    exact h.append _

theorem startsValue_memberChars (m : String × Json) (ms : List (String × Json)) :
    StartsValue (memberChars (m :: ms)) := by
  rcases ms with _ | ⟨n, ms⟩
  · exact (startsValue_quote m.1).append _
  · rw [memberChars_cons_cons, List.append_assoc]
    exact (startsValue_quote m.1).append _

/-! ## Single tokens -/

theorem reads_null : Reads null := ⟨⟨'n', _, rfl, rfl, by decide, by decide⟩, fun _ _ _ _ => rfl⟩

theorem reads_bool (b : Bool) : Reads (bool b) := by
  cases b with
  | true => exact ⟨⟨'t', _, rfl, rfl, by decide, by decide⟩, fun _ _ _ _ => rfl⟩
  | false => exact ⟨⟨'f', _, rfl, rfl, by decide, by decide⟩, fun _ _ _ _ => rfl⟩

theorem value?_of_number? {m : Number} (hc : isDigit c = true)
    (h : number? (c :: cs) = some (m, rest)) :
    value? (fuel + 1) (c :: cs) = some (number m, rest) := by
  rw [value?, h]
  · rfl
  -- no other value starts with a digit
  all_goals
    intro _ he
    obtain ⟨rfl, -⟩ := List.cons.inj he
    exact absurd hc (by decide)

theorem isBlank_eq_false_of_isDigit (h : isDigit c = true) : isBlank c = false := by
  refine Bool.eq_false_iff.mpr fun hb => ?_
  simp only [isBlank, Bool.or_eq_true, beq_iff_eq] at hb
  obtain ((rfl | rfl) | rfl) | rfl := hb <;> exact absurd h (by decide)

theorem chars_ofNat (h : n < naturalBound) : (ofNat n).chars = Nat.toDigits 10 n := by
  simp [ofNat, chars, Number.text, Number.meaning, h]

theorem reads_natural (h : n < naturalBound) : Reads (ofNat n) := by
  obtain ⟨c, cs, hc, hd⟩ := exists_digit_toDigits n
  refine ⟨?_, fun fuel rest _ hr => ?_⟩
  · refine ⟨c, cs, (chars_ofNat h).trans hc, isBlank_eq_false_of_isDigit hd, ?_⟩
    constructor <;> exact fun h => absurd (h ▸ hd) (by decide)
  · have hn := number?_toDigits n hr
    rw [hc, List.cons_append] at hn
    rw [chars_ofNat h, hc, List.cons_append, value?_of_number? hd hn]
    rfl

theorem quote_append (s : String) (rest : List Char) :
    quote s ++ rest = '"' :: (s.toList.flatMap escapeChar ++ '"' :: rest) := by
  simp [quote]

theorem reads_string (s : String) : Reads (string s) := by
  refine ⟨startsValue_quote s, fun fuel rest _ _ => ?_⟩
  obtain ⟨ps, hps, hs⟩ := exists_pieces_of_string s rest
  rw [chars, quote_append, value?, hps]
  simp [hs]

/-! ## Brackets -/

theorem Reads.value_of_le (h : Reads v) (hf : 2 * v.chars.length ≤ fuel + 1)
    (hr : EndsNumber rest) : value? fuel (v.chars ++ rest) = some (v, rest) := by
  have hl := h.start.length_pos
  obtain ⟨k, rfl⟩ := Nat.exists_eq_add_one.mpr (show 0 < fuel by omega)
  exact h.value k rest (by omega) hr

theorem Reads.value_skipBlanks (h : Reads v) (hf : 2 * v.chars.length ≤ fuel + 1)
    (hr : EndsNumber rest) : value? fuel (skipBlanks (v.chars ++ rest)) = some (v, rest) := by
  rw [(h.start.append rest).skipBlanks_eq]
  exact h.value_of_le hf hr

theorem endsNumber_comma (cs : List Char) : EndsNumber (',' :: cs) :=
  ⟨rfl, by decide, by decide, by decide⟩

theorem endsNumber_bracket (cs : List Char) : EndsNumber (']' :: cs) :=
  ⟨rfl, by decide, by decide, by decide⟩

theorem endsNumber_brace (cs : List Char) : EndsNumber ('}' :: cs) :=
  ⟨rfl, by decide, by decide, by decide⟩

theorem items?_succ_iff : items? (fuel + 1) cs = some (vs, rest) ↔
    ∃ v behind, value? fuel cs = some (v, behind) ∧
      (vs = [v] ∧ skipBlanks behind = ']' :: rest ∨
        ∃ ws next, vs = v :: ws ∧ skipBlanks behind = ',' :: next ∧
          items? fuel (skipBlanks next) = some (ws, rest)) := by
  constructor
  · intro h
    obtain ⟨⟨v, behind⟩, hv, h⟩ := Option.bind_eq_some_iff.mp h
    refine ⟨v, behind, hv, ?_⟩
    dsimp only at h
    split at h
    · next hs =>
      obtain ⟨rfl, rfl⟩ := Prod.mk.inj (Option.some.inj h)
      exact .inl ⟨rfl, hs⟩
    · next hs =>
      obtain ⟨⟨ws, _⟩, hi, h⟩ := Option.bind_eq_some_iff.mp h
      obtain ⟨rfl, rfl⟩ := Prod.mk.inj (Option.some.inj h)
      exact .inr ⟨ws, _, rfl, hs, hi⟩
    · cases h
  · rintro ⟨v, behind, hv, ⟨rfl, hs⟩ | ⟨ws, next, rfl, hs, hi⟩⟩
    · rw [items?, hv]
      simp [hs]
    · rw [items?, hv]
      simp [hs, hi]

/-- An array with items. -/
theorem value?_of_items? (hs : StartsValue (skipBlanks cs))
    (hi : items? fuel (skipBlanks cs) = some (vs, rest)) :
    value? (fuel + 1) ('[' :: cs) = some (array vs, rest) := by
  obtain ⟨c, ds, he, -, hc, -⟩ := hs
  rw [he] at hi
  rw [value?, he]
  simp [hi, hc]

/-- The last item. -/
theorem items?_last (hv : Reads v) (hf : 2 * v.chars.length ≤ fuel + 1) :
    items? (fuel + 1) (v.chars ++ ']' :: rest) = some ([v], rest) :=
  items?_succ_iff.mpr ⟨v, ']' :: rest, hv.value_of_le hf (endsNumber_bracket rest),
    .inl ⟨rfl, skipBlanks_cons rfl⟩⟩

/-- An item in front of others. -/
theorem items?_more (hv : Reads v) (hf : 2 * v.chars.length ≤ fuel + 1) (hs : StartsValue cs)
    (hi : items? fuel cs = some (vs, rest)) :
    items? (fuel + 1) (v.chars ++ ',' :: cs) = some (v :: vs, rest) := by
  rw [← hs.skipBlanks_eq] at hi
  exact items?_succ_iff.mpr ⟨v, ',' :: cs, hv.value_of_le hf (endsNumber_comma cs),
    .inr ⟨vs, cs, rfl, skipBlanks_cons rfl, hi⟩⟩

theorem items?_itemChars (h : ∀ w ∈ v :: vs, Reads w)
    (hf : 2 * (itemChars (v :: vs)).length ≤ fuel) :
    items? fuel (itemChars (v :: vs) ++ ']' :: rest) = some (v :: vs, rest) := by
  induction vs generalizing v fuel with
  | nil =>
    have hv := h v List.mem_cons_self
    have hl := hv.start.length_pos
    rw [itemChars] at hf ⊢
    obtain ⟨k, rfl⟩ := Nat.exists_eq_add_one.mpr (show 0 < fuel by omega)
    exact items?_last hv (by omega)
  | cons w vs ih =>
    obtain ⟨hv, hvs⟩ := List.forall_mem_cons.mp h
    have hs : StartsValue (itemChars (w :: vs)) :=
      startsValue_itemChars (hvs w List.mem_cons_self).start
    rw [itemChars_cons_cons] at hf ⊢
    simp only [List.length_append, List.length_cons] at hf
    obtain ⟨k, rfl⟩ := Nat.exists_eq_add_one.mpr (show 0 < fuel by omega)
    rw [List.append_assoc, List.cons_append]
    exact items?_more hv (by omega) (hs.append _) (ih hvs (by omega))

theorem reads_array (h : ∀ v ∈ vs, Reads v) : Reads (array vs) := by
  refine ⟨⟨'[', _, rfl, rfl, by decide, by decide⟩, fun fuel rest hf _ => ?_⟩
  rcases vs with _ | ⟨v, vs⟩
  · rfl
  · simp only [chars, List.length_append, List.length_cons] at hf
    have hs : StartsValue (itemChars (v :: vs) ++ ']' :: rest) :=
      (startsValue_itemChars (h v List.mem_cons_self).start).append _
    rw [chars, List.cons_append, List.cons_append, List.append_assoc, List.singleton_append]
    refine value?_of_items? ?_ ?_
    · rwa [hs.skipBlanks_eq]
    · rw [hs.skipBlanks_eq]
      exact items?_itemChars h (by omega)

/-- The last member. -/
theorem members?_last (s : String) (hv : Reads v) (hf : 2 * v.chars.length ≤ fuel + 1) :
    members? (fuel + 1) (quote s ++ ':' :: (v.chars ++ '}' :: rest)) =
      some ([(some s, v)], rest) := by
  obtain ⟨ps, hps, hs⟩ := exists_pieces_of_string s (':' :: (v.chars ++ '}' :: rest))
  rw [quote_append, members?, hps]
  simp [skipBlanks_cons (c := ':') rfl, skipBlanks_cons (c := '}') rfl,
    hv.value_skipBlanks hf (endsNumber_brace rest), hs]

/-- A member in front of others. -/
theorem members?_more (s : String) {ms : List (Option String × Json)} (hv : Reads v)
    (hf : 2 * v.chars.length ≤ fuel + 1) (hs : StartsValue cs)
    (hm : members? fuel cs = some (ms, rest)) :
    members? (fuel + 1) (quote s ++ ':' :: (v.chars ++ ',' :: cs)) =
      some ((some s, v) :: ms, rest) := by
  obtain ⟨ps, hps, hname⟩ := exists_pieces_of_string s (':' :: (v.chars ++ ',' :: cs))
  rw [← hs.skipBlanks_eq] at hm
  rw [quote_append, members?, hps]
  simp [skipBlanks_cons (c := ':') rfl, skipBlanks_cons (c := ',') rfl,
    hv.value_skipBlanks hf (endsNumber_comma cs), hm, hname]

theorem members?_memberChars {m : String × Json} (h : ∀ n ∈ m :: ms, Reads n.2)
    (hf : 2 * (memberChars (m :: ms)).length ≤ fuel) :
    members? fuel (memberChars (m :: ms) ++ '}' :: rest) =
      some ((m :: ms).map fun n => (some n.1, n.2), rest) := by
  induction ms generalizing m fuel with
  | nil =>
    rw [memberChars] at hf ⊢
    simp only [List.length_append, List.length_cons] at hf
    obtain ⟨k, rfl⟩ := Nat.exists_eq_add_one.mpr (show 0 < fuel by omega)
    rw [List.append_assoc, List.cons_append]
    exact members?_last m.1 (h m List.mem_cons_self) (by omega)
  | cons n ms ih =>
    obtain ⟨hv, hms⟩ := List.forall_mem_cons.mp h
    rw [memberChars_cons_cons] at hf ⊢
    simp only [List.length_append, List.length_cons] at hf
    obtain ⟨k, rfl⟩ := Nat.exists_eq_add_one.mpr (show 0 < fuel by omega)
    rw [List.append_assoc, List.append_assoc, List.cons_append, List.cons_append]
    exact members?_more m.1 hv (by omega) ((startsValue_memberChars n ms).append _)
      (ih hms (by omega))

theorem mapM_eq_some_iff {α β : Type} {f : α → Option β} {xs : List α} {ys : List β} :
    xs.mapM f = some ys ↔ List.Forall₂ (fun x y => f x = some y) xs ys := by
  induction xs generalizing ys with
  | nil => simp [eq_comm]
  | cons x xs ih =>
    rw [List.mapM_cons, List.forall₂_cons_left_iff]
    simp [Option.bind_eq_some_iff, ih, eq_comm (b := ys)]

theorem objectOf_map (ms : List (String × Json)) :
    objectOf (ms.map fun m => (some m.1, m.2)) = object ms := by
  unfold objectOf
  rw [mapM_eq_some_iff.mpr]
  exact List.forall₂_map_left_iff.mpr (List.forall₂_same.mpr fun _ _ => rfl)

theorem reads_object (h : ∀ m ∈ ms, Reads m.2) : Reads (object ms) := by
  refine ⟨⟨'{', _, rfl, rfl, by decide, by decide⟩, fun fuel rest hf _ => ?_⟩
  rcases ms with _ | ⟨m, ms⟩
  · rfl
  · simp only [chars, List.length_append, List.length_cons] at hf
    have hi : members? fuel (memberChars (m :: ms) ++ '}' :: rest) =
        some ((m :: ms).map fun n => (some n.1, n.2), rest) := members?_memberChars h (by omega)
    obtain ⟨c, cs, he, hb, -, hc⟩ := (startsValue_memberChars m ms).append ('}' :: rest)
    rw [he] at hi
    rw [chars, List.cons_append, List.cons_append, List.append_assoc, List.singleton_append, he,
      value?, skipBlanks_cons hb]
    simp [hi, hc, ← objectOf_map (m :: ms)]

/-! ## Whole documents -/

/-- **Any part of a document.** -/
theorem Plain.reads (h : Plain v) : Reads v := by
  induction h with
  | null => exact reads_null
  | bool b => exact reads_bool b
  | natural h => exact reads_natural h
  | string s => exact reads_string s
  | array _ ih => exact reads_array ih
  | object _ ih => exact reads_object ih

/-- **A document is read back from its text.** -/
theorem ofText?_text (h : Plain v) : ofText? v.text = some v := by
  have hv := h.reads
  have hr := hv.value (2 * v.chars.length) [] (by omega) trivial
  rw [List.append_nil] at hr
  rw [ofText?, text, String.toList_ofList, hv.start.skipBlanks_eq, document?, hr]
  rfl

end ArrayContract.Json
