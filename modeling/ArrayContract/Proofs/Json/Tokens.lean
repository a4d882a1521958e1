import ArrayContract.Json.Printer
import ArrayContract.Json.Reader

/-! # Strings and naturals in a text

A string in front of any text is read back as it was written (`exists_pieces`), one character after
the other: a character is written as one part of the string, and no part pairs with the next. A
natural is read from its digits in front of a text that no number goes on with
(`SpellsNatural.number?`), and so it is read back. -/

namespace ArrayContract.Json

/-! ## Strings -/

/-- The characters that are escaped by another character, with that one. -/
def escapes : List (Char × Char) :=
  [('"', '"'), ('\\', '\\'), ('\x08', 'b'), ('\x0c', 'f'), ('\n', 'n'), ('\r', 'r'), ('\t', 't')]

theorem escapeChar_of_mem :
    ∀ p ∈ escapes, escapeChar p.1 = ['\\', p.2] ∧ escape? p.2 = some p.1 ∧ p.2 ≠ 'u' := by
  decide

/-- A character is escaped by another one, or by its number, or not at all. -/
theorem escapeChar_cases (c : Char) : (∃ l, (c, l) ∈ escapes) ∨
    (c < ' ' ∧
      escapeChar c = ['\\', 'u', '0', '0', hexChar (c.toNat / 16), hexChar (c.toNat % 16)]) ∨
    (c ≠ '"' ∧ c ≠ '\\' ∧ ¬ c < ' ' ∧ escapeChar c = [c]) := by
  by_cases he : c ∈ escapes.map Prod.fst
  · obtain ⟨⟨_, l⟩, hl, rfl⟩ := List.mem_map.mp he
    exact Or.inl ⟨l, hl⟩
  simp only [escapes, List.map_cons, List.map_nil, List.mem_cons, List.not_mem_nil, or_false,
    not_or] at he
  by_cases hc : c < ' '
  · exact Or.inr (Or.inl ⟨hc, by simp [escapeChar, he, hc]⟩)
  · exact Or.inr (Or.inr ⟨he.1, he.2.1, hc, by simp [escapeChar, he, hc]⟩)

/-- The number of a control character is read from its two digits. -/
theorem unit?_hexChar :
    ∀ n < 32, unit? '0' '0' (hexChar (n / 16)) (hexChar (n % 16)) = some n := by
  decide

theorem toNat_lt_of_lt_blank {c : Char} (hc : c < ' ') : c.toNat < 32 :=
  UInt32.lt_iff_toNat_lt.mp hc

/-- A code unit that is no surrogate is a character by itself. -/
theorem join?_unit {n : Nat} (hn : n < 0xd800) (ps : List Piece) :
    join? (.unit n :: ps) = (join? ps).map (Char.ofNat n :: ·) := by
  rcases ps with _ | ⟨_ | low, ps⟩ <;> simp [join?, hn]

/-- **One character.** It is written as one part of a string, and this part is the character. -/
theorem exists_piece (c : Char) :
    ∃ p, (∀ rest, pieces? (escapeChar c ++ rest) = push p (pieces? rest)) ∧
      ∀ ps, join? (p :: ps) = (join? ps).map (c :: ·) := by
  obtain ⟨l, hl⟩ | ⟨hc, he⟩ | ⟨hq, hb, hc, he⟩ := escapeChar_cases c
  · obtain ⟨he, hl, hu⟩ := escapeChar_of_mem _ hl
    exact ⟨.char c, fun rest => by simp [he, pieces?, hu, hl], fun ps => by rw [join?]⟩
  · have hn := toNat_lt_of_lt_blank hc
    refine ⟨.unit c.toNat, fun rest => by simp [he, pieces?, unit?_hexChar _ hn], fun ps => ?_⟩
    rw [join?_unit (Nat.lt_trans hn (by decide)), Char.ofNat_toNat]
  · exact ⟨.char c, fun rest => by simp [he, pieces?, hb, hc], fun ps => by rw [join?]⟩

/-- **Any number of characters**, up to the closing quote. -/
theorem exists_pieces (cs rest : List Char) :
    ∃ ps, pieces? (cs.flatMap escapeChar ++ '"' :: rest) = some (ps, rest) ∧
      join? ps = some cs := by
  induction cs with
  | nil => exact ⟨[], by simp [pieces?], by simp [join?]⟩
  | cons c cs ih =>
    obtain ⟨ps, hps, hcs⟩ := ih
    obtain ⟨p, hp, hc⟩ := exists_piece c
    refine ⟨p :: ps, ?_, by rw [hc, hcs, Option.map_some]⟩
    rw [List.flatMap_cons, List.append_assoc, hp, hps]
    rfl

theorem exists_pieces_of_string (s : String) (rest : List Char) :
    ∃ ps, pieces? (s.toList.flatMap escapeChar ++ '"' :: rest) = some (ps, rest) ∧
      stringOf? ps = some s := by
  obtain ⟨ps, hps, hs⟩ := exists_pieces s.toList rest
  exact ⟨ps, hps, by rw [stringOf?, hs, Option.map_some, String.ofList_toList]⟩

/-! ## Naturals -/

/-- No number goes on with this text. -/
def EndsNumber : List Char → Prop
  | [] => True
  | c :: _ => isDigit c = false ∧ c ≠ '.' ∧ c ≠ 'e' ∧ c ≠ 'E'

variable {n : Nat} {c : Char} {cs ds rest : List Char}

theorem EndsNumber.takeWhile_isDigit (h : EndsNumber rest) : rest.takeWhile isDigit = [] := by
  rcases rest with _ | ⟨c, rest⟩
  · rfl
  · simp [h.1]

theorem EndsNumber.dropWhile_isDigit (h : EndsNumber rest) : rest.dropWhile isDigit = rest := by
  rcases rest with _ | ⟨c, rest⟩
  · rfl
  · simp [h.1]

theorem fraction?_of_endsNumber (h : EndsNumber rest) : fraction? rest = some ([], rest) := by
  rcases rest with _ | ⟨c, rest⟩
  · rfl
  · simp [fraction?, h.2.1]

theorem exponent?_of_endsNumber (h : EndsNumber rest) : exponent? rest = some (none, rest) := by
  rcases rest with _ | ⟨c, rest⟩
  · rfl
  · simp [exponent?, h.2.2]

/-- The digits of a natural; none but zero starts with zero. -/
structure SpellsNatural (cs : List Char) (n : Nat) : Prop where
  ne_nil : cs ≠ []
  digits : ∀ c ∈ cs, '0' ≤ c ∧ c ≤ '9'
  zero : cs.head? = some '0' → cs = ['0']
  value : Nat.ofDigitChars 10 cs 0 = n

theorem isDigit_iff : isDigit c = true ↔ '0' ≤ c ∧ c ≤ '9' := by
  simp [isDigit]

theorem SpellsNatural.isDigit_of_mem (h : SpellsNatural cs n) (hc : c ∈ cs) : isDigit c = true :=
  isDigit_iff.mpr (h.digits c hc)

theorem digitOf_eq_zero (hc : isDigit c = true) (h : digitOf c = 0) : c = '0' := by
  have hz : '0'.toNat ≤ c.toNat := UInt32.le_iff_toNat_le.mp (isDigit_iff.mp hc).1
  exact Char.toNat_inj.mp (Nat.le_antisymm (Nat.sub_eq_zero_iff_le.mp h) hz)

theorem valueOf_digitOf (cs : List Char) : valueOf (cs.map digitOf) = Nat.ofDigitChars 10 cs 0 := by
  unfold valueOf
  rw [List.foldl_map]
  exact Nat.ofDigitChars_eq_foldl.symm

theorem digits?_append (hne : ds ≠ []) (hd : ∀ c ∈ ds, isDigit c = true) (hr : EndsNumber rest) :
    digits? (ds ++ rest) = some (ds.map digitOf, rest) := by
  unfold digits?
  rw [List.takeWhile_append_of_pos hd, List.dropWhile_append_of_pos hd, hr.takeWhile_isDigit,
    hr.dropWhile_isDigit, List.append_nil]
  split
  · contradiction
  · rfl

theorem SpellsNatural.whole? (h : SpellsNatural ds n) (hr : EndsNumber rest) :
    whole? (ds ++ rest) = some (n, rest) := by
  unfold Json.whole?
  rw [digits?_append h.ne_nil (fun _ => h.isDigit_of_mem) hr]
  split
  · next he =>
    obtain ⟨he, -⟩ := Prod.mk.inj (Option.some.inj he)
    obtain ⟨c, cs, rfl, hc, hcs⟩ := List.map_eq_cons_iff.mp he
    obtain rfl := digitOf_eq_zero (h.isDigit_of_mem List.mem_cons_self) hc
    obtain ⟨-, rfl⟩ := List.cons.inj (h.zero rfl)
    cases hcs
  · next he =>
    obtain ⟨rfl, rfl⟩ := Prod.mk.inj (Option.some.inj he)
    rw [valueOf_digitOf, h.value]
  · next he => cases he

theorem SpellsNatural.number? (h : SpellsNatural ds n) (hr : EndsNumber rest) :
    number? (ds ++ rest) = some (⟨false, n, [], none⟩, rest) := by
  have hsign : sign (ds ++ rest) = (false, ds ++ rest) := by
    rcases ds with _ | ⟨c, ds⟩
    · exact absurd rfl h.ne_nil
    · rw [List.cons_append, sign]
      intro _ he
      obtain ⟨rfl, -⟩ := List.cons.inj he
      exact absurd (h.isDigit_of_mem List.mem_cons_self) (by decide)
  simp [Json.number?, hsign, h.whole? hr, fraction?_of_endsNumber hr, exponent?_of_endsNumber hr]

theorem isDigit_of_mem_toDigits (h : c ∈ Nat.toDigits 10 n) : isDigit c = true :=
  Nat.isDigit_of_mem_toDigits (by decide) (by decide) h

theorem exists_digit_toDigits (n : Nat) :
    ∃ c cs, Nat.toDigits 10 n = c :: cs ∧ isDigit c = true := by
  obtain ⟨c, cs, hc⟩ := List.exists_cons_of_ne_nil (Nat.toDigits_ne_nil (n := n) (b := 10))
  exact ⟨c, cs, hc, isDigit_of_mem_toDigits (hc ▸ List.mem_cons_self)⟩

theorem digitOf_digitChar : ∀ d < 10, digitOf d.digitChar = d := by decide

/-- Only zero starts with a zero. -/
theorem digitOf_head_toDigits (hn : 0 < n) (h : Nat.toDigits 10 n = c :: cs) : digitOf c ≠ 0 := by
  induction n using Nat.strongRecOn generalizing cs with
  | ind n ih =>
    rw [Nat.toDigits_eq_if (by decide)] at h
    split at h
    · next hlt =>
      obtain ⟨rfl, -⟩ := List.cons.inj h
      rw [digitOf_digitChar n hlt]
      exact Nat.ne_of_gt hn
    · next hge =>
      obtain ⟨d, ds, hd, -⟩ := exists_digit_toDigits (n / 10)
      rw [hd] at h
      obtain ⟨rfl, -⟩ := List.cons.inj h
      exact ih (n / 10) (by omega) (by omega) hd

theorem spellsNatural_toDigits (n : Nat) : SpellsNatural (Nat.toDigits 10 n) n where
  ne_nil := Nat.toDigits_ne_nil
  digits _ hc := isDigit_iff.mp (isDigit_of_mem_toDigits hc)
  zero h := by
    rcases Nat.eq_zero_or_pos n with rfl | hn
    · rfl
    · obtain ⟨c, cs, hc, -⟩ := exists_digit_toDigits n
      rw [hc] at h
      obtain rfl := Option.some.inj h
      exact absurd rfl (digitOf_head_toDigits hn hc)
  value := Nat.ofDigitChars_ten_toDigits

theorem number?_toDigits (n : Nat) (h : EndsNumber rest) :
    number? (Nat.toDigits 10 n ++ rest) = some (⟨false, n, [], none⟩, rest) :=
  (spellsNatural_toDigits n).number? h

end ArrayContract.Json
