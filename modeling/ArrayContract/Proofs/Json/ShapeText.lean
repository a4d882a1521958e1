import ArrayContract.Proofs.Json.Persisted
import Mathlib.Algebra.Order.Ring.Nat
import Mathlib.Data.List.TakeWhile

/-! # The texts of declared shapes

The grammar of declared shapes (`ShapeText`) allows for blanks around each token, for the literals
of naturals that fit, and for null. What it derives is read as the document that the shape is
written as (`ShapeText.document?`), and whatever is read as such a document is derived
(`shapeText_of_document?`). A literal is read up to the first character that is no digit, so it has
to stand in front of one that no number goes on with (`EndsNumber`): a blank, a comma or a closing
bracket. -/

namespace ArrayContract

namespace Json

variable {v : Json} {vs : List Json} {c : Char} {b cs ds rest : List Char} {fuel n : Nat}

/-! ## Blanks -/

/-- Nothing but blanks. -/
def Blanks (cs : List Char) : Prop := ∀ c ∈ cs, c ∈ [' ', '\n', '\r', '\t']

theorem isBlank_iff : isBlank c = true ↔ c ∈ [' ', '\n', '\r', '\t'] := by
  simp [isBlank, or_assoc]

theorem Blanks.append (hb : Blanks b) (hcs : Blanks cs) : Blanks (b ++ cs) := fun c hc =>
  (List.mem_append.mp hc).elim (hb c) (hcs c)

theorem skipBlanks_append (hb : Blanks b) : skipBlanks (b ++ cs) = skipBlanks cs :=
  List.dropWhile_append_of_pos fun c hc => isBlank_iff.mpr (hb c hc)

theorem skipBlanks_eq_nil_iff : skipBlanks b = [] ↔ Blanks b :=
  List.dropWhile_eq_nil_iff.trans (forall₂_congr fun _ _ => isBlank_iff)

theorem exists_blanks (cs : List Char) : ∃ b, Blanks b ∧ cs = b ++ skipBlanks cs :=
  ⟨cs.takeWhile isBlank, fun _ hc => isBlank_iff.mp (List.mem_takeWhile_imp hc),
    List.takeWhile_append_dropWhile.symm⟩

theorem endsNumber_of_blanks (hb : Blanks b) (h : EndsNumber cs) : EndsNumber (b ++ cs) := by
  rcases b with _ | ⟨c, b⟩
  · exact h
  · have hc := hb c List.mem_cons_self
    simp only [List.mem_cons, List.not_mem_nil, or_false] at hc
    obtain rfl | rfl | rfl | rfl := hc <;> exact ⟨by decide, by decide, by decide, by decide⟩

/-! ## Literals of naturals -/

theorem exists_of_digits? {values : List Nat} (h : digits? cs = some (values, rest)) :
    ∃ ds, ds ≠ [] ∧ (∀ c ∈ ds, isDigit c = true) ∧ values = ds.map digitOf ∧ cs = ds ++ rest := by
  unfold digits? at h
  split at h
  · cases h
  · next hne =>
    obtain ⟨rfl, rfl⟩ := Prod.mk.inj (Option.some.inj h)
    exact ⟨cs.takeWhile isDigit, hne, fun _ => List.mem_takeWhile_imp, rfl,
      List.takeWhile_append_dropWhile.symm⟩

theorem exists_of_whole? (h : whole? cs = some (n, rest)) :
    ∃ ds, SpellsNatural ds n ∧ cs = ds ++ rest := by
  unfold Json.whole? at h
  split at h
  · cases h
  · next hz he =>
    obtain ⟨rfl, rfl⟩ := Prod.mk.inj (Option.some.inj h)
    obtain ⟨ds, hne, hd, rfl, rfl⟩ := exists_of_digits? he
    refine ⟨ds, ⟨hne, fun c hc => isDigit_iff.mp (hd c hc), fun h0 => ?_,
      (valueOf_digitOf ds).symm⟩, rfl⟩
    rcases ds with _ | ⟨c, _ | ⟨d, ds⟩⟩
    · cases h0
    · obtain rfl := Option.some.inj h0
      rfl
    · obtain rfl := Option.some.inj h0
      exact (hz (digitOf d) (ds.map digitOf) rfl).elim
  · cases h

theorem sign_eq_false (h : sign cs = (false, rest)) : cs = rest := by
  unfold sign at h
  split at h
  · cases h
  · exact (Prod.mk.inj h).2

theorem fraction?_eq_nil (h : fraction? cs = some ([], rest)) : cs = rest := by
  unfold fraction? at h
  split at h
  · obtain ⟨ds, hne, -, hv, -⟩ := exists_of_digits? h
    exact absurd (List.map_eq_nil_iff.mp hv.symm) hne
  · exact (Prod.mk.inj (Option.some.inj h)).2

theorem exponent?_eq_none (h : exponent? cs = some (none, rest)) : cs = rest := by
  unfold exponent? at h
  split at h
  · split at h
    · simp [Option.bind_eq_some_iff] at h
    · exact (Prod.mk.inj (Option.some.inj h)).2
  · exact (Prod.mk.inj (Option.some.inj h)).2

theorem exists_of_number? (h : number? cs = some (⟨false, n, [], none⟩, rest)) :
    ∃ ds, SpellsNatural ds n ∧ cs = ds ++ rest := by
  simp only [Json.number?, Option.bind_eq_bind, Option.bind_eq_some_iff] at h
  obtain ⟨⟨whole, behind⟩, hwhole, ⟨fraction, _⟩, hfraction, ⟨exponent, _⟩, hexponent, h⟩ := h
  obtain ⟨hm, rfl⟩ := Prod.mk.inj (Option.some.inj h)
  obtain ⟨hsign, rfl, rfl, rfl⟩ := Number.mk.inj hm
  have hcs : cs = (sign cs).2 := sign_eq_false (Prod.ext hsign rfl)
  rw [← hcs] at hwhole
  obtain rfl := fraction?_eq_nil hfraction
  obtain rfl := exponent?_eq_none hexponent
  exact exists_of_whole? hwhole

/-! ## Parts of documents -/

/-- The object of some members is an object if it is readable. -/
theorem objectOf_cases (ms : List (Option String × Json)) :
    (∃ ms', objectOf ms = object ms') ∨ objectOf ms = unreadable := by
  unfold objectOf
  split
  · exact .inl ⟨_, rfl⟩
  · exact .inr rfl

/-- A value is null, a number or an array if the text says so, and else of another kind. -/
theorem value?_cases (h : value? fuel cs = some (v, rest)) :
    (v = null ∧ cs = 'n' :: 'u' :: 'l' :: 'l' :: rest) ∨
    (∃ m, v = number m ∧ number? cs = some (m, rest)) ∨
    (∃ vs inner f, v = array vs ∧ cs = '[' :: inner ∧
      (vs = [] ∧ skipBlanks inner = ']' :: rest ∨ items? f (skipBlanks inner) = some (vs, rest))) ∨
    (∃ b, v = bool b) ∨ (∃ s, v = string s) ∨ (∃ ms, v = object ms) ∨ v = unreadable := by
  unfold value? at h
  split at h
  · cases h
  split at h
  · obtain ⟨rfl, rfl⟩ := Prod.mk.inj (Option.some.inj h)
    exact .inl ⟨rfl, rfl⟩
  · obtain ⟨rfl, rfl⟩ := Prod.mk.inj (Option.some.inj h)
    simp
  · obtain ⟨rfl, rfl⟩ := Prod.mk.inj (Option.some.inj h)
    simp
  · obtain ⟨⟨ps, _⟩, -, h⟩ := Option.bind_eq_some_iff.mp h
    obtain ⟨rfl, rfl⟩ := Prod.mk.inj (Option.some.inj h)
    cases stringOf? ps <;> simp
  · refine .inr (.inr (.inl ?_))
    split at h
    · next hs =>
      obtain ⟨rfl, rfl⟩ := Prod.mk.inj (Option.some.inj h)
      exact ⟨[], _, 0, rfl, rfl, .inl ⟨rfl, hs⟩⟩
    · obtain ⟨⟨vs, _⟩, hi, h⟩ := Option.bind_eq_some_iff.mp h
      obtain ⟨rfl, rfl⟩ := Prod.mk.inj (Option.some.inj h)
      exact ⟨vs, _, _, rfl, rfl, .inr hi⟩
  · split at h
    · obtain ⟨rfl, rfl⟩ := Prod.mk.inj (Option.some.inj h)
      simp
    · obtain ⟨⟨ms, _⟩, -, h⟩ := Option.bind_eq_some_iff.mp h
      obtain ⟨rfl, rfl⟩ := Prod.mk.inj (Option.some.inj h)
      obtain hms | hms := objectOf_cases ms <;> simp [hms]
  · obtain ⟨⟨m, _⟩, hm, h⟩ := Option.bind_eq_some_iff.mp h
    obtain ⟨rfl, rfl⟩ := Prod.mk.inj (Option.some.inj h)
    exact .inr (.inl ⟨m, rfl, hm⟩)

theorem of_value?_null (h : value? fuel cs = some (null, rest)) :
    cs = 'n' :: 'u' :: 'l' :: 'l' :: rest := by
  simpa using value?_cases h

theorem of_value?_number {m : Number} (h : value? fuel cs = some (number m, rest)) :
    number? cs = some (m, rest) := by
  simpa using value?_cases h

theorem of_value?_array (h : value? fuel cs = some (array vs, rest)) :
    ∃ inner f, cs = '[' :: inner ∧ (vs = [] ∧ skipBlanks inner = ']' :: rest ∨
      items? f (skipBlanks inner) = some (vs, rest)) := by
  simpa using value?_cases h

/-- A document is a value with nothing but blanks behind it. -/
theorem document?_eq_some_iff :
    document? cs = some v ↔ ∃ b, Blanks b ∧ value? (2 * cs.length + 1) cs = some (v, b) := by
  unfold document?
  split
  · next hv =>
    simp [hv, skipBlanks_eq_nil_iff, and_comm]
  · next hv => simp [hv]

end Json

open Json (Blanks SpellsNatural EndsNumber skipBlanks value? items?)

/-! ## The grammar -/

/-- The text of an axis: null, or the literal of a length that fits. -/
inductive AxisText : List Char → Axis → Prop
  | any : AxisText ['n', 'u', 'l', 'l'] .any
  | fixed {cs : List Char} {n : Nat} (h : SpellsNatural cs n) (hn : n < 2 ^ 64) :
      AxisText cs (.fixed n)

/-- The text of an axis with blanks around it. -/
inductive ItemText : List Char → Axis → Prop
  | mk {b cs b' : List Char} {a : Axis} (hb : Blanks b) (h : AxisText cs a) (hb' : Blanks b') :
      ItemText (b ++ (cs ++ b')) a

/-- The texts of some axes with commas between them, at least one. -/
inductive AxesText : List Char → List Axis → Prop
  | last {cs : List Char} {a : Axis} (h : ItemText cs a) : AxesText cs [a]
  | more {cs rest : List Char} {a : Axis} {as : List Axis} (h : ItemText cs a)
      (hs : AxesText rest as) : AxesText (cs ++ ',' :: rest) (a :: as)

/-- The text of a shape: null, or the texts of its axes in brackets. -/
inductive ShapeText : List Char → ShapePattern → Prop
  | any {b b' : List Char} (hb : Blanks b) (hb' : Blanks b') :
      ShapeText (b ++ ('n' :: 'u' :: 'l' :: 'l' :: b')) .any
  | empty {b b' b'' : List Char} (hb : Blanks b) (hb' : Blanks b') (hb'' : Blanks b'') :
      ShapeText (b ++ '[' :: (b' ++ ']' :: b'')) (.axes [])
  | axes {b cs b' : List Char} {as : List Axis} (hb : Blanks b) (h : AxesText cs as)
      (hb' : Blanks b') : ShapeText (b ++ '[' :: (cs ++ ']' :: b')) (.axes as)

section Texts

variable {a : Axis} {as : List Axis} {s : ShapePattern} {v : Json} {c : Char}
  {b cs rest : List Char} {fuel : Nat}

/-! ## Texts of the grammar are read -/

theorem AxisText.fits (h : AxisText cs a) : a.Fits := by
  cases h with
  | any => exact nofun
  | fixed _ hn =>
    rintro _ ⟨⟩
    exact hn

theorem ItemText.fits (h : ItemText cs a) : a.Fits := by
  cases h with
  | mk _ h _ => exact h.fits

theorem AxesText.fits (h : AxesText cs as) : ∀ a ∈ as, a.Fits := by
  induction h with
  | last h => simpa using h.fits
  | more h _ ih => exact List.forall_mem_cons.mpr ⟨h.fits, ih⟩

theorem ShapeText.fits (h : ShapeText cs s) : s.Fits := by
  cases h with
  | any => exact nofun
  | empty => simp [ShapePattern.Fits, ShapePattern.axes?]
  | axes _ h _ =>
    rintro _ ⟨⟩
    exact h.fits

theorem AxisText.startsValue (h : AxisText cs a) : Json.StartsValue cs := by
  cases h with
  | any => exact ⟨'n', _, rfl, rfl, by decide, by decide⟩
  | fixed h _ =>
    obtain ⟨c, cs, rfl⟩ := List.exists_cons_of_ne_nil h.ne_nil
    have hd := h.isDigit_of_mem List.mem_cons_self
    exact ⟨c, cs, rfl, Json.isBlank_eq_false_of_isDigit hd, fun hc => absurd (hc ▸ hd) (by decide),
      fun hc => absurd (hc ▸ hd) (by decide)⟩

theorem AxisText.value? (h : AxisText cs a) (hr : EndsNumber rest) :
    value? (fuel + 1) (cs ++ rest) = some (a.toJson, rest) := by
  cases h with
  | any => rfl
  | fixed h _ =>
    have hn := h.number? hr
    obtain ⟨c, cs, rfl⟩ := List.exists_cons_of_ne_nil h.ne_nil
    exact Json.value?_of_number? (h.isDigit_of_mem List.mem_cons_self) hn

theorem ItemText.startsValue (h : ItemText cs a) (rest : List Char) :
    Json.StartsValue (skipBlanks (cs ++ rest)) := by
  cases h with
  | @mk _ _ b' _ hb h _ =>
    have hs := h.startsValue.append (b' ++ rest)
    rw [List.append_assoc, List.append_assoc, Json.skipBlanks_append hb]
    rwa [hs.skipBlanks_eq]

theorem ItemText.length_pos (h : ItemText cs a) : 0 < cs.length := by
  cases h with
  | mk _ h _ =>
    have := h.startsValue.length_pos
    simp only [List.length_append]
    omega

/-- An item is read together with the blanks around it. -/
theorem ItemText.value? (h : ItemText cs a) (hc : Json.isBlank c = false)
    (hr : EndsNumber (c :: rest)) :
    ∃ behind, Json.value? (fuel + 1) (skipBlanks (cs ++ c :: rest)) = some (a.toJson, behind) ∧
      skipBlanks behind = c :: rest := by
  cases h with
  | @mk b cs b' _ hb h hb' =>
    refine ⟨b' ++ c :: rest, ?_, ?_⟩
    · rw [List.append_assoc, List.append_assoc, Json.skipBlanks_append hb,
        (h.startsValue.append _).skipBlanks_eq]
      exact h.value? (Json.endsNumber_of_blanks hb' hr)
    · rw [Json.skipBlanks_append hb', Json.skipBlanks_cons hc]

theorem AxesText.startsValue (h : AxesText cs as) (rest : List Char) :
    Json.StartsValue (skipBlanks (cs ++ rest)) := by
  cases h with
  | last h => exact h.startsValue rest
  | more h _ =>
    rw [List.append_assoc]
    exact h.startsValue _

/-- Each axis takes a character at least, so the fuel lasts for all of them. -/
theorem AxesText.items? (h : AxesText cs as) (hf : cs.length < fuel) :
    items? fuel (skipBlanks (cs ++ ']' :: rest)) = some (as.map Axis.toJson, rest) := by
  induction h generalizing fuel with
  | @last cs a h =>
    have hl := h.length_pos
    obtain ⟨k, rfl⟩ : ∃ k, fuel = k + 1 + 1 := ⟨fuel - 2, by omega⟩
    obtain ⟨behind, hv, hs⟩ := h.value? rfl (Json.endsNumber_bracket rest)
    exact Json.items?_succ_iff.mpr ⟨a.toJson, behind, hv, .inl ⟨rfl, hs⟩⟩
  | @more cs next a as h _ ih =>
    have hl := h.length_pos
    simp only [List.length_append, List.length_cons] at hf
    obtain ⟨k, rfl⟩ : ∃ k, fuel = k + 1 + 1 := ⟨fuel - 2, by omega⟩
    rw [List.append_assoc, List.cons_append]
    obtain ⟨behind, hv, hs⟩ := h.value? rfl (Json.endsNumber_comma (next ++ ']' :: rest))
    exact Json.items?_succ_iff.mpr ⟨a.toJson, behind, hv,
      .inr ⟨as.map Axis.toJson, next ++ ']' :: rest, rfl, hs, ih (by omega)⟩⟩

theorem ShapeText.document? (h : ShapeText cs s) :
    Json.document? (skipBlanks cs) = some s.toJson := by
  refine Json.document?_eq_some_iff.mpr ?_
  cases h with
  | @any b b' hb hb' =>
    rw [Json.skipBlanks_append hb]
    exact ⟨b', hb', rfl⟩
  | @empty b b' b'' hb hb' hb'' =>
    rw [Json.skipBlanks_append hb, Json.skipBlanks_cons rfl]
    refine ⟨b'', hb'', ?_⟩
    rw [Json.value?, Json.skipBlanks_append hb', Json.skipBlanks_cons rfl]
    rfl
  | @axes b cs b' as hb h hb' =>
    rw [Json.skipBlanks_append hb, Json.skipBlanks_cons rfl]
    refine ⟨b', hb', Json.value?_of_items? (h.startsValue _) (h.items? ?_)⟩
    simp only [List.length_cons, List.length_append]
    omega

/-! ## What is read is a text of the grammar -/

theorem axisText_of_value? (h : Json.value? fuel cs = some (a.toJson, rest)) (ha : a.Fits) :
    ∃ ds, AxisText ds a ∧ cs = ds ++ rest := by
  cases a with
  | any => exact ⟨_, .any, Json.of_value?_null h⟩
  | fixed n =>
    obtain ⟨ds, hds, rfl⟩ := Json.exists_of_number? (Json.of_value?_number h)
    exact ⟨ds, .fixed hds (ha n rfl), rfl⟩

theorem AxesText.blanks_append (hb : Blanks b) (h : AxesText cs as) : AxesText (b ++ cs) as := by
  have hitem : ∀ {cs : List Char} {a : Axis}, ItemText cs a → ItemText (b ++ cs) a := by
    intro cs a h
    cases h with
    | mk hb₀ h hb' =>
      rw [← List.append_assoc]
      exact .mk (hb.append hb₀) h hb'
  cases h with
  | last h => exact .last (hitem h)
  | more h hs =>
    rw [← List.append_assoc]
    exact .more (hitem h) hs

theorem axesText_of_items? (h : Json.items? fuel cs = some (as.map Axis.toJson, rest))
    (ha : ∀ a ∈ as, a.Fits) : ∃ ds, AxesText ds as ∧ cs = ds ++ ']' :: rest := by
  induction fuel generalizing cs as with
  | zero => cases h
  | succ fuel ih =>
    obtain ⟨v, behind, hv, h⟩ := Json.items?_succ_iff.mp h
    obtain ⟨b, hb, he⟩ := Json.exists_blanks behind
    have hitem : ∀ a : Axis, v = a.toJson → a.Fits → ∃ ds, ItemText (ds ++ b) a ∧
        cs = ds ++ behind := by
      rintro a rfl ha
      obtain ⟨ds, hds, rfl⟩ := axisText_of_value? hv ha
      exact ⟨ds, .mk (b := []) nofun hds hb, rfl⟩
    obtain ⟨hvs, hs⟩ | ⟨ws, next, hvs, hs, hi⟩ := h
    · obtain ⟨a, rfl, hav⟩ := List.map_eq_singleton_iff.mp hvs
      obtain ⟨ds, hds, rfl⟩ := hitem a hav.symm (ha a List.mem_cons_self)
      exact ⟨ds ++ b, .last hds, by rw [he, hs, List.append_assoc]⟩
    · obtain ⟨a, as, rfl, hav, rfl⟩ := List.map_eq_cons_iff.mp hvs
      obtain ⟨ha, has⟩ := List.forall_mem_cons.mp ha
      obtain ⟨ds, hds, rfl⟩ := hitem a hav.symm ha
      obtain ⟨ds', hds', he'⟩ := ih hi has
      obtain ⟨b', hb', hn⟩ := Json.exists_blanks next
      refine ⟨ds ++ b ++ ',' :: (b' ++ ds'), .more hds (hds'.blanks_append hb'), ?_⟩
      rw [he, hs, hn, he']
      simp

theorem shapeText_of_document? (h : Json.document? (skipBlanks cs) = some s.toJson) (hs : s.Fits) :
    ShapeText cs s := by
  obtain ⟨b, hb, hcs⟩ := Json.exists_blanks cs
  obtain ⟨b', hb', hv⟩ := Json.document?_eq_some_iff.mp h
  rw [hcs]
  cases s with
  | any =>
    rw [Json.of_value?_null hv]
    exact .any hb hb'
  | axes as =>
    obtain ⟨inner, f, he, h⟩ := Json.of_value?_array hv
    obtain ⟨b₁, hb₁, hinner⟩ := Json.exists_blanks inner
    obtain ⟨hnil, hi⟩ | hi := h
    · obtain rfl := List.map_eq_nil_iff.mp hnil
      rw [he, hinner, hi]
      exact .empty hb hb₁ hb'
    · obtain ⟨ds, hds, hi⟩ := axesText_of_items? hi (hs as rfl)
      rw [he, hinner, hi, ← List.append_assoc]
      exact .axes hb (hds.blanks_append hb₁) hb'

/-- Only its own document is read as an axis. -/
theorem Axis.eq_toJson (h : Axis.ofJson? v = some a) : v = a.toJson := by
  cases v with
  | null =>
    obtain rfl := Option.some.inj h
    rfl
  | number m =>
    obtain ⟨n, hn, rfl⟩ := Option.map_eq_some_iff.mp h
    obtain ⟨rfl, -⟩ := Json.Number.natural?_eq_some_iff.mp hn
    rfl
  | _ => cases h

/-- Only its own document is read as a shape. -/
theorem ShapePattern.eq_toJson (h : ShapePattern.ofJson? v = some s) : v = s.toJson := by
  cases v with
  | null =>
    obtain rfl := Option.some.inj h
    rfl
  | array items =>
    obtain ⟨as, has, rfl⟩ := Option.map_eq_some_iff.mp h
    have hitems : List.Forall₂ (· = ·) items (as.map Axis.toJson) :=
      List.forall₂_map_right_iff.mpr
        ((Json.mapM_eq_some_iff.mp has).imp fun _ _ h => Axis.eq_toJson h)
    exact congrArg Json.array (List.forall₂_eq_eq_eq ▸ hitems)
  | _ => cases h

end Texts

/-- **Declared shapes are read by their grammar.** A text is read as a shape if it is a text of this
shape, and as nothing if it is a text of none. -/
theorem shapes_of_texts (t : String) :
    (∀ s : ShapePattern, Persisted.ofText? t = some s ↔ ShapeText t.toList s) ∧
    ((Persisted.ofText? t : Option ShapePattern) = none ↔ ∀ s, ¬ShapeText t.toList s) := by
  have h : ∀ s : ShapePattern, Persisted.ofText? t = some s ↔ ShapeText t.toList s := by
    intro s
    refine Option.bind_eq_some_iff.trans ⟨?_, fun h => ?_⟩
    · rintro ⟨v, hv, hs⟩
      obtain rfl := ShapePattern.eq_toJson hs
      exact shapeText_of_document? hv (ShapePattern.faithful.fits hs)
    · exact ⟨s.toJson, h.document?, ShapePattern.faithful.read h.fits⟩
  refine ⟨h, ?_⟩
  rw [Option.eq_none_iff_forall_ne_some]
  exact forall_congr' fun s => not_congr (h s)

example : Persisted.ofText? " [ 18446744073709551615 ,null] " =
    some (ShapePattern.axes [.fixed 18446744073709551615, .any]) := by
  decide +kernel

example : (["2", "[2.0]", "[1e2]", "[-0]", "[-1]", "[02]", "[null, 18446744073709551616]", "[true]",
    "[\"2\"]", "[[2]]", "[2,]", "[2] 3", "\x7b\x7d"].filterMap fun t =>
      (Persisted.ofText? t : Option ShapePattern)) = [] := by
  decide +kernel

end ArrayContract
