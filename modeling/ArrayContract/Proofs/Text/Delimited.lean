import ArrayContract.Inspect.Notation
import Mathlib.Data.List.Infix
import Mathlib.Data.List.TakeWhile

/-! # Parts that tell where they end

A text that is put together from parts can be taken apart again if each part tells where it ends.
An opening does so if none of the others begins with it (`PrefixFree.append_inj`), what has no mark
of some sort in front of that mark (`upTo_append_inj`), a number in front of what is no digit
(`decimal_append_inj`), a text between quotes in front of anything (`quoted_append_inj`), and the
items of a list if each of them does in front of a comma and of what closes the list
(`behind_append_inj`). -/

namespace ArrayContract.Text

variable {α : Type} {x y : List Char}

theorem append_assoc₃ (s t u v : String) : s ++ t ++ u ++ v = s ++ (t ++ (u ++ v)) := by
  rw [String.append_assoc, String.append_assoc]

/-! ## Openings -/

/-- No text of the list begins with another one. -/
def PrefixFree (text : α → String) (all : List α) : Prop :=
  ∀ a ∈ all, ∀ b ∈ all, (text a).toList <+: (text b).toList → a = b

instance [DecidableEq α] (text : α → String) (all : List α) : Decidable (PrefixFree text all) :=
  inferInstanceAs (Decidable (∀ a ∈ all, ∀ b ∈ all, (text a).toList <+: (text b).toList → a = b))

theorem PrefixFree.append_inj {text : α → String} {all : List α} (h : PrefixFree text all)
    {a b : α} (ha : a ∈ all) (hb : b ∈ all) {s t : String} (heq : text a ++ s = text b ++ t) :
    a = b ∧ s = t := by
  have hab : a = b := by
    have hchars := congrArg String.toList heq
    rw [String.toList_append, String.toList_append] at hchars
    have hprefix : (text a).toList <+: (text b).toList ++ t.toList := ⟨s.toList, hchars⟩
    rcases List.prefix_or_prefix_of_prefix hprefix (List.prefix_append _ _) with hle | hle
    · exact h a ha b hb hle
    · exact (h b hb a ha hle).symm
  subst hab
  exact ⟨rfl, (String.append_right_inj _).mp heq⟩

/-! ## Text up to a mark -/

theorem takeWhile_upTo {c : Char} {s : List Char} (hs : c ∉ s) (x : List Char) :
    (s ++ c :: x).takeWhile (· != c) = s := by
  have hne : ∀ d ∈ s, (d != c) = true := fun d hd => bne_iff_ne.mpr fun h => hs (h ▸ hd)
  rw [List.takeWhile_append_of_pos hne, List.takeWhile_cons_of_neg (by simp), List.append_nil]

theorem upTo_append_inj {c : Char} {s t : List Char} (hs : c ∉ s) (ht : c ∉ t)
    (h : s ++ c :: x = t ++ c :: y) : s = t ∧ x = y := by
  have hst : s = t := by rw [← takeWhile_upTo hs x, h, takeWhile_upTo ht y]
  subst hst
  exact ⟨rfl, (List.cons.inj (List.append_cancel_left h)).2⟩

/-! ## Numbers -/

/-- The text begins with no digit, so that no number goes on with it. -/
def NoDigit (x : List Char) : Prop := x.takeWhile Char.isDigit = []

theorem toList_toString (n : Nat) : (toString n).toList = Nat.toDigits 10 n := Nat.toList_repr

theorem isDigit_of_mem_decimal {n : Nat} {c : Char} (h : c ∈ (toString n).toList) :
    c.isDigit = true := by
  rw [toList_toString] at h
  exact Nat.isDigit_of_mem_toDigits (by decide) (by decide) h

theorem decimal_injective : Function.Injective (toString : Nat → String) := by
  intro m n h
  have hdigits : Nat.toDigits 10 m = Nat.toDigits 10 n := by
    rw [← toList_toString, h, toList_toString]
  have hvalue := congrArg (Nat.ofDigitChars 10 · 0) hdigits
  simpa only [Nat.ofDigitChars_ten_toDigits] using hvalue

theorem decimal_append_inj {m n : Nat} (hx : NoDigit x) (hy : NoDigit y)
    (h : (toString m).toList ++ x = (toString n).toList ++ y) : m = n ∧ x = y := by
  have htake : ∀ {n : Nat} {x : List Char}, NoDigit x →
      ((toString n).toList ++ x).takeWhile Char.isDigit = (toString n).toList := fun hx => by
    rw [List.takeWhile_append_of_pos fun _ => isDigit_of_mem_decimal, hx, List.append_nil]
  have htext : (toString m).toList = (toString n).toList := by rw [← htake hx, h, htake hy]
  refine ⟨decimal_injective (String.toList_inj.mp htext), ?_⟩
  rw [htext] at h
  exact List.append_cancel_left h

theorem number_append_inj {m n : Nat} {s t : String} (h : toString m ++ s = toString n ++ t)
    (hs : NoDigit s.toList) (ht : NoDigit t.toList) : m = n ∧ s = t := by
  have hchars := congrArg String.toList h
  rw [String.toList_append, String.toList_append] at hchars
  obtain ⟨hmn, hst⟩ := decimal_append_inj hs ht hchars
  exact ⟨hmn, String.toList_inj.mp hst⟩

/-- A number begins with a digit. -/
theorem decimal_append_ne {n : Nat} {c : Char} (hc : c.isDigit = false) :
    (toString n).toList ++ x ≠ c :: y := by
  intro h
  have hne : (toString n).toList ≠ [] := by
    rw [toList_toString]
    exact Nat.toDigits_ne_nil
  obtain ⟨d, ds, hd⟩ := List.exists_cons_of_ne_nil hne
  rw [hd] at h
  obtain ⟨rfl, -⟩ := List.cons.inj h
  have hdigit := isDigit_of_mem_decimal (n := n) (c := d) (hd ▸ List.mem_cons_self)
  exact absurd (hc.symm.trans hdigit) (by decide)

/-- A number in front of words the first character of which is no digit. -/
theorem number_words_inj {m n : Nat} {words words' s t : String}
    (h : toString m ++ (words ++ s) = toString n ++ (words' ++ t))
    (hw : words.toList.head?.map Char.isDigit = some false)
    (hw' : words'.toList.head?.map Char.isDigit = some false) :
    m = n ∧ words ++ s = words' ++ t := by
  have hnoDigit : ∀ {words : String} (s : String),
      words.toList.head?.map Char.isDigit = some false → NoDigit (words ++ s).toList := by
    intro words s hw
    obtain ⟨c, hc, hdigit⟩ := Option.map_eq_some_iff.mp hw
    obtain ⟨cs, hcs⟩ := List.head?_eq_some_iff.mp hc
    rw [String.toList_append, hcs]
    exact List.takeWhile_cons_of_neg (by simp [hdigit])
  exact number_append_inj h (hnoDigit s hw) (hnoDigit t hw')

/-! ## Hexadecimal numbers -/

theorem digitChar_sixteen_inj : ∀ i < 16, ∀ j < 16, i.digitChar = j.digitChar → i = j := by
  decide

theorem digitChar_sixteen_ne_brace : ∀ i < 16, i.digitChar ≠ '\x7d' := by
  decide

/-- No digit closes the braces around a number. -/
theorem brace_notMem_hex (n : Nat) : '\x7d' ∉ Nat.toDigits 16 n := by
  induction n using Nat.strongRecOn with
  | ind n ih =>
    rcases Nat.lt_or_ge n 16 with hn | hn
    · rw [Nat.toDigits_of_lt_base hn, List.mem_singleton]
      exact (digitChar_sixteen_ne_brace n hn).symm
    · rw [Nat.toDigits_of_base_le (by decide) hn, List.mem_append, List.mem_singleton]
      rintro (h | h)
      · exact ih (n / 16) (by omega) h
      · exact digitChar_sixteen_ne_brace (n % 16) (by omega) h.symm

theorem hex_injective : Function.Injective (Nat.toDigits 16) := by
  intro m
  induction m using Nat.strongRecOn with
  | ind m ih =>
    intro n h
    rcases Nat.lt_or_ge m 16 with hm | hm <;> rcases Nat.lt_or_ge n 16 with hn | hn
    · rw [Nat.toDigits_of_lt_base hm, Nat.toDigits_of_lt_base hn] at h
      exact digitChar_sixteen_inj m hm n hn (List.singleton_inj.mp h)
    · rw [Nat.toDigits_of_lt_base hm, Nat.toDigits_of_base_le (by decide) hn] at h
      exact absurd (List.append_eq_singleton_iff.mp h.symm) (by simp [Nat.toDigits_ne_nil])
    · rw [Nat.toDigits_of_base_le (by decide) hm, Nat.toDigits_of_lt_base hn] at h
      exact absurd (List.append_eq_singleton_iff.mp h) (by simp [Nat.toDigits_ne_nil])
    · rw [Nat.toDigits_of_base_le (by decide) hm, Nat.toDigits_of_base_le (by decide) hn] at h
      obtain ⟨hdiv, hmod⟩ := List.append_inj' h rfl
      have hq := ih (m / 16) (by omega) hdiv
      have hr := digitChar_sixteen_inj (m % 16) (by omega) (n % 16) (by omega)
        (List.singleton_inj.mp hmod)
      omega

theorem hex_append_inj {m n : Nat}
    (h : Nat.toDigits 16 m ++ '\x7d' :: x = Nat.toDigits 16 n ++ '\x7d' :: y) : m = n ∧ x = y := by
  obtain ⟨hdigits, hrest⟩ := upTo_append_inj (brace_notMem_hex m) (brace_notMem_hex n) h
  exact ⟨hex_injective hdigits, hrest⟩

/-! ## Text between quotes -/

/-- The characters that stand as a letter behind a backslash, with that letter. -/
def escapes : List (Char × Char) :=
  [('"', '"'), ('\\', '\\'), ('\n', 'n'), ('\r', 'r'), ('\t', 't'), ('\x00', '0')]

/-- A character inside quotes stands for itself, or is told by what follows a backslash: a letter of
its own, or its number. -/
theorem quotedChar_cases (c : Char) :
    (quotedChar c = [c] ∧ c ≠ '"' ∧ c ≠ '\\') ∨
      (∃ letter, (c, letter) ∈ escapes ∧ quotedChar c = ['\\', letter]) ∨
      quotedChar c = byNumber c := by
  fun_cases quotedChar c with
  | case1 h => exact .inr (.inl ⟨'"', by rw [h]; decide, rfl⟩)
  | case2 _ h => exact .inr (.inl ⟨'\\', by rw [h]; decide, rfl⟩)
  | case3 _ _ h => exact .inr (.inl ⟨'n', by rw [h]; decide, rfl⟩)
  | case4 _ _ _ h => exact .inr (.inl ⟨'r', by rw [h]; decide, rfl⟩)
  | case5 _ _ _ _ h => exact .inr (.inl ⟨'t', by rw [h]; decide, rfl⟩)
  | case6 _ _ _ _ _ h => exact .inr (.inl ⟨'0', by rw [h]; decide, rfl⟩)
  | case7 hquote hslash => exact .inl ⟨rfl, hquote, hslash⟩
  | case8 => exact .inr (.inr rfl)
  | case9 hquote hslash => exact .inl ⟨rfl, hquote, hslash⟩

theorem escapes_inj : ∀ p ∈ escapes, ∀ q ∈ escapes, p.2 = q.2 → p.1 = q.1 := by
  decide

theorem escapes_ne : ∀ p ∈ escapes, p.2 ≠ 'u' := by
  decide

theorem byNumber_append (c : Char) (x : List Char) :
    byNumber c ++ x = '\\' :: 'u' :: '\x7b' :: (Nat.toDigits 16 c.toNat ++ '\x7d' :: x) := by
  simp [byNumber]

/-- No character inside quotes is written with a quote in front. -/
theorem quotedChar_append_ne (c : Char) : quotedChar c ++ x ≠ '"' :: y := by
  intro h
  rcases quotedChar_cases c with ⟨hc, hquote, -⟩ | ⟨letter, -, hc⟩ | hc <;> rw [hc] at h
  · exact hquote (List.cons.inj h).1
  · exact absurd (List.cons.inj h).1 (by decide)
  · rw [byNumber_append] at h
    exact absurd (List.cons.inj h).1 (by decide)

theorem quotedChar_append_inj {c d : Char} (h : quotedChar c ++ x = quotedChar d ++ y) :
    c = d ∧ x = y := by
  rcases quotedChar_cases c with ⟨hc, -, hslash⟩ | ⟨letter, hletter, hc⟩ | hc <;>
    rcases quotedChar_cases d with ⟨hd, -, hslash'⟩ | ⟨letter', hletter', hd⟩ | hd <;>
    rw [hc, hd] at h <;>
    simp only [byNumber_append, List.cons_append, List.nil_append, List.cons.injEq,
      true_and] at h
  · exact h
  · exact absurd h.1 hslash
  · exact absurd h.1 hslash
  · exact absurd h.1.symm hslash'
  · exact ⟨escapes_inj _ hletter _ hletter' h.1, h.2⟩
  · exact absurd h.1 (escapes_ne _ hletter)
  · exact absurd h.1.symm hslash'
  · exact absurd h.1.symm (escapes_ne _ hletter')
  · obtain ⟨hnumber, hrest⟩ := hex_append_inj h
    exact ⟨Char.toNat_inj.mp hnumber, hrest⟩

theorem quotedChars_append_inj {cs ds : List Char}
    (h : cs.flatMap quotedChar ++ '"' :: x = ds.flatMap quotedChar ++ '"' :: y) :
    cs = ds ∧ x = y := by
  induction cs generalizing ds with
  | nil =>
    rcases ds with _ | ⟨d, ds⟩
    · exact ⟨rfl, (List.cons.inj h).2⟩
    · rw [List.flatMap_cons, List.append_assoc] at h
      exact absurd h.symm (quotedChar_append_ne d)
  | cons c cs ih =>
    rcases ds with _ | ⟨d, ds⟩
    · rw [List.flatMap_cons, List.append_assoc] at h
      exact absurd h (quotedChar_append_ne c)
    · rw [List.flatMap_cons, List.flatMap_cons, List.append_assoc, List.append_assoc] at h
      obtain ⟨rfl, hrest⟩ := quotedChar_append_inj h
      obtain ⟨rfl, rfl⟩ := ih hrest
      exact ⟨rfl, rfl⟩

theorem toList_quoted_append (s : String) (x : List Char) :
    (quoted s).toList ++ x = '"' :: (s.toList.flatMap quotedChar ++ '"' :: x) := by
  simp [quoted]

/-- **A text between quotes** tells where it ends, whatever characters it has. -/
theorem quoted_append_inj {s t : String}
    (h : (quoted s).toList ++ x = (quoted t).toList ++ y) : s = t ∧ x = y := by
  rw [toList_quoted_append, toList_quoted_append] at h
  obtain ⟨hst, rfl⟩ := quotedChars_append_inj (List.cons.inj h).2
  exact ⟨String.toList_inj.mp hst, rfl⟩

/-! ## Lists -/

section Lists

variable {text : α → String} {close : Char} {a b : α} {as bs : List α}

/-- The text behind an item of a list: the items that follow, up to what closes the list. -/
def behind (text : α → String) (close : Char) : List α → List Char
  | [] => [close]
  | a :: as => ',' :: ' ' :: ((text a).toList ++ behind text close as)

theorem toList_intercalate (text : α → String) (close : Char) (a : α) (as : List α) :
    (", ".intercalate ((a :: as).map text)).toList ++ [close] =
      (text a).toList ++ behind text close as := by
  induction as generalizing a with
  | nil => simp [behind]
  | cons b as ih =>
    have hb := ih b
    rw [List.map_cons] at hb
    simp [behind, ← hb]

/-- Each item tells where it ends, in front of the items that follow. -/
def Delimited (text : α → String) (close : Char) : Prop :=
  ∀ (a b : α) (as bs : List α) (x y : List Char),
    (text a).toList ++ (behind text close as ++ x) =
      (text b).toList ++ (behind text close bs ++ y) →
    a = b ∧ behind text close as ++ x = behind text close bs ++ y

theorem behind_append_inj (hclose : close ≠ ',') (htext : Delimited text close)
    (h : behind text close as ++ x = behind text close bs ++ y) : as = bs ∧ x = y := by
  induction as generalizing bs with
  | nil =>
    rcases bs with _ | ⟨b, bs⟩
    · exact ⟨rfl, (List.cons.inj h).2⟩
    · exact absurd (List.cons.inj h).1 hclose
  | cons a as ih =>
    rcases bs with _ | ⟨b, bs⟩
    · exact absurd (List.cons.inj h).1.symm hclose
    · simp only [behind, List.cons_append, List.append_assoc, List.cons.injEq, true_and] at h
      obtain ⟨rfl, hrest⟩ := htext a b as bs x y h
      obtain ⟨rfl, rfl⟩ := ih hrest
      exact ⟨rfl, rfl⟩

theorem noDigit_behind (hclose : close.isDigit = false) (as : List α) (x : List Char) :
    NoDigit (behind text close as ++ x) := by
  rcases as with _ | ⟨a, as⟩
  · exact List.takeWhile_cons_of_neg (by simp [hclose])
  · rfl

end Lists

end ArrayContract.Text
