import ArrayContract.Proofs.Binary.Reading

/-! # Rounding to the nearest number

`IsNearest` says of a word, by the readings of all words, that no other number of the format is
closer to a rational number, and that of two equally close ones the word is the even one. A quotient
is rounded to the closest integer in this sense (`roundHalfEven_closest`). A magnitude is the rounded
quotient moved up to the place of the ratio's leading digits; a number of the format is a multiple of
that place or lies below all numbers with these digits, so `nearest` is the closest of all
(`nearest_closest`), and an integer becomes the nearest word (`isNearest_ofInt`). -/

namespace ArrayContract.Binary

/-! ## Quotients -/

theorem roundHalfEven_cases (num den : Nat) :
    (roundHalfEven num den = num / den ∧ 2 * (num % den) ≤ den ∧
      (2 * (num % den) = den → num / den % 2 = 0)) ∨
    (roundHalfEven num den = num / den + 1 ∧ den ≤ 2 * (num % den) ∧
      (2 * (num % den) = den → num / den % 2 = 1)) := by
  simp only [roundHalfEven]
  split
  · exact Or.inl ⟨rfl, by omega, by omega⟩
  · split
    · exact Or.inr ⟨rfl, by omega, by omega⟩
    · rcases Nat.mod_two_eq_zero_or_one (num / den) with h | h
      · exact Or.inl ⟨by omega, by omega, fun _ => h⟩
      · exact Or.inr ⟨by omega, by omega, fun _ => h⟩

/-- **No multiple is closer** than the one a quotient is rounded to, and if another is as close then
the rounded quotient is even. -/
theorem roundHalfEven_closest (num : Nat) {den : Nat} (hden : 0 < den) (k : Nat) :
    ((num : Int) - (roundHalfEven num den * den : Nat)).natAbs ≤
        ((num : Int) - (k * den : Nat)).natAbs ∧
      (((num : Int) - (roundHalfEven num den * den : Nat)).natAbs =
        ((num : Int) - (k * den : Nat)).natAbs →
          k = roundHalfEven num den ∨ roundHalfEven num den % 2 = 0) := by
  have hdiv := Nat.div_add_mod num den
  have hmod := Nat.mod_lt num hden
  have hround := roundHalfEven_cases num den
  rw [Nat.mul_comm] at hdiv
  generalize num / den = q at *
  have hsucc : (q + 1) * den = q * den + den := Nat.succ_mul q den
  -- a multiple is one of the two next to the number, or beyond these
  have hside : k * den + den ≤ q * den ∨ k = q ∨ k = q + 1 ∨ q * den + 2 * den ≤ k * den := by
    rcases Nat.lt_or_ge k q with hk | hk
    · have := Nat.mul_le_mul_right den hk
      rw [Nat.succ_mul] at this
      exact Or.inl this
    · rcases Nat.lt_or_ge (q + 1) k with hk' | hk'
      · have := Nat.mul_le_mul_right den hk'
        rw [Nat.succ_mul, hsucc] at this
        exact Or.inr (Or.inr (Or.inr (by omega)))
      · omega
  rcases hround with ⟨he, hle, htie⟩ | ⟨he, hle, htie⟩
  · rw [he]
    rcases hside with hs | rfl | rfl | hs
    · omega
    · exact ⟨le_rfl, fun _ => Or.inl rfl⟩
    · rw [hsucc]
      omega
    · omega
  · rw [he, hsucc]
    rcases hside with hs | rfl | rfl | hs
    · omega
    · omega
    · rw [hsucc]
      exact ⟨le_rfl, fun _ => Or.inl rfl⟩
    · omega

namespace Format

variable {f : Format} {num den : Nat}

/-! ## Magnitudes -/

/-- A rounded significand may need one digit more than fits; moved up by a place it is a power of
two. -/
theorem quanta_carry {c shift : Nat} (hc : f.Normal c shift ∨ c = 2 ^ (f.fractionBits + 1)) :
    f.quanta (shift * 2 ^ f.fractionBits + c) = c * 2 ^ shift := by
  rcases hc with hc | rfl
  · exact quanta_add hc
  · have hnormal : f.Normal (2 ^ f.fractionBits) (shift + 1) :=
      ⟨Nat.pow_lt_pow_right (by decide) (Nat.lt_succ_self _), Or.inr le_rfl⟩
    calc f.quanta (shift * 2 ^ f.fractionBits + 2 ^ (f.fractionBits + 1))
        = f.quanta ((shift + 1) * 2 ^ f.fractionBits + 2 ^ f.fractionBits) := by
          congr 1
          ring
      _ = 2 ^ f.fractionBits * 2 ^ (shift + 1) := quanta_add hnormal
      _ = 2 ^ (f.fractionBits + 1) * 2 ^ shift := by ring

/-- Every magnitude stands for a multiple of a place, or for less than a significand with its top bit
set stands for at this place. -/
theorem quanta_multiple (f : Format) (magnitude shift : Nat) :
    (∃ k, f.quanta magnitude = k * 2 ^ shift) ∨
      f.quanta magnitude < 2 ^ f.fractionBits * 2 ^ shift := by
  obtain ⟨c, place, hc, rfl⟩ := f.exists_normal magnitude
  rw [quanta_add hc]
  rcases Nat.lt_or_ge place shift with h | h
  · right
    calc c * 2 ^ place
        < 2 ^ (f.fractionBits + 1) * 2 ^ place :=
          Nat.mul_lt_mul_of_pos_right hc.fits (Nat.two_pow_pos _)
      _ = 2 ^ f.fractionBits * 2 ^ (place + 1) := by ring
      _ ≤ 2 ^ f.fractionBits * 2 ^ shift :=
          Nat.mul_le_mul_left _ (Nat.pow_le_pow_right (by decide) h)
  · refine Or.inl ⟨c * 2 ^ (place - shift), ?_⟩
    rw [Nat.mul_assoc, ← Nat.pow_add, Nat.sub_add_cancel h]

/-- The leading digits of a quotient, as many as fit. -/
theorem normal_quotient (f : Format) {n den shift : Nat}
    (hs : (n / den).log2 - f.fractionBits = shift) : f.Normal (n / (den * 2 ^ shift)) shift := by
  rw [← Nat.div_div_eq_div_mul]
  constructor
  · rw [Nat.div_lt_iff_lt_mul (Nat.two_pow_pos _), ← Nat.pow_add]
    exact Nat.lt_log2_self.trans_le (Nat.pow_le_pow_right (by decide) (by omega))
  · rcases Nat.eq_zero_or_pos shift with h0 | hpos
    · exact Or.inl h0
    · right
      have hne : n / den ≠ 0 := by
        intro h
        rw [h, Nat.log2_zero] at hs
        omega
      have hlog := Nat.log2_self_le hne
      rw [show (n / den).log2 = f.fractionBits + shift by omega, Nat.pow_add] at hlog
      exact (Nat.le_div_iff_mul_le (Nat.two_pow_pos _)).mpr hlog

/-- A ratio is rounded at the place where its leading digits fit. -/
theorem exists_place (f : Format) (num : Nat) (hden : 0 < den) :
    ∃ shift c, c = roundHalfEven (num * f.one) (den * 2 ^ shift) ∧
      f.nearest num den = min (shift * 2 ^ f.fractionBits + c) f.infinity ∧
      (f.Normal c shift ∨ c = 2 ^ (f.fractionBits + 1)) ∧
      (shift = 0 ∨ 2 ^ f.fractionBits * (den * 2 ^ shift) ≤ num * f.one) := by
  obtain ⟨shift, hs⟩ : ∃ shift, (num * f.one / den).log2 - f.fractionBits = shift := ⟨_, rfl⟩
  obtain ⟨hfits, htop⟩ := f.normal_quotient hs
  refine ⟨shift, _, rfl, ?_, ?_, ?_⟩
  · simp only [nearest, hs, Nat.shiftLeft_eq]
  · rcases roundHalfEven_cases (num * f.one) (den * 2 ^ shift) with ⟨he, -⟩ | ⟨he, -⟩
    · rw [he]
      exact Or.inl ⟨hfits, htop⟩
    · rw [he]
      rcases Nat.lt_or_eq_of_le hfits with hlt | heq
      · exact Or.inl ⟨hlt, htop.imp_right Nat.le_succ_of_le⟩
      · exact Or.inr heq
  · exact htop.imp_right
      (Nat.le_div_iff_mul_le (Nat.mul_pos hden (Nat.two_pow_pos _))).mp

/-- **No magnitude is closer** to a ratio than the one nearest to it, unless that is infinity; if one
that stands for another number is as close, then the nearest is even. -/
theorem nearest_closest (hf : 0 < f.fractionBits) (hden : 0 < den)
    (hfinite : f.nearest num den < f.infinity) (magnitude : Nat) :
    (((num * f.one : Nat) : Int) - (f.quanta (f.nearest num den) * den : Nat)).natAbs ≤
        (((num * f.one : Nat) : Int) - (f.quanta magnitude * den : Nat)).natAbs ∧
      ((((num * f.one : Nat) : Int) - (f.quanta (f.nearest num den) * den : Nat)).natAbs =
        (((num * f.one : Nat) : Int) - (f.quanta magnitude * den : Nat)).natAbs →
          f.quanta magnitude = f.quanta (f.nearest num den) ∨ f.nearest num den % 2 = 0) := by
  obtain ⟨shift, c, hc, hnear, hcarry, hplace⟩ := f.exists_place num hden
  have hpos : 0 < den * 2 ^ shift := Nat.mul_pos hden (Nat.two_pow_pos _)
  rw [hnear, min_eq_left (by omega), quanta_carry hcarry]
  have hgrid : ∀ k, k * 2 ^ shift * den = k * (den * 2 ^ shift) := fun k => by
    rw [Nat.mul_assoc, Nat.mul_comm (2 ^ shift)]
  have heven : c % 2 = 0 → (shift * 2 ^ f.fractionBits + c) % 2 = 0 := fun h => by
    obtain ⟨b, hb⟩ := Nat.exists_eq_succ_of_ne_zero hf.ne'
    rw [hb, Nat.pow_succ, ← Nat.mul_assoc]
    omega
  rw [hgrid]
  rcases f.quanta_multiple magnitude shift with ⟨k, hk⟩ | hlow
  · obtain ⟨hle, htie⟩ := roundHalfEven_closest (num * f.one) hpos k
    rw [← hc] at hle htie
    rw [hk, hgrid]
    exact ⟨hle, fun he => (htie he).imp (fun h => by rw [h]) heven⟩
  · -- the number with these digits and zeros behind lies between, so it is closer
    obtain ⟨hle, -⟩ := roundHalfEven_closest (num * f.one) hpos (2 ^ f.fractionBits)
    rw [← hc] at hle
    have hbelow : f.quanta magnitude * den < 2 ^ f.fractionBits * (den * 2 ^ shift) := by
      rw [← hgrid]
      exact Nat.mul_lt_mul_of_pos_right hlow hden
    rcases hplace with rfl | hplace
    · obtain ⟨hle', htie⟩ := roundHalfEven_closest (num * f.one) hpos (f.quanta magnitude)
      rw [← hc] at hle' htie
      rw [Nat.pow_zero, Nat.mul_one] at *
      exact ⟨hle', fun he => (htie he).imp (fun h => by rw [h, Nat.mul_one]) heven⟩
    · omega

/-! ## Words -/

/-- A word stands for a number of which no number of the format is closer to a rational number, and
if another is as close then the word is even. -/
def IsNearest (f : Format) (q : ℚ) (word : Nat) : Prop :=
  ∃ y, f.read word = .finite y ∧ ∀ other z, f.read other = .finite z →
    |q - y| ≤ |q - z| ∧ (|q - y| = |q - z| → z = y ∨ word % 2 = 0)

/-- The number that a finite word stands for, in quanta. -/
def signedQuanta (f : Format) (word : Nat) : Int :=
  if f.negative word then -f.quanta (f.magnitude word) else f.quanta (f.magnitude word)

theorem natAbs_signedQuanta (f : Format) (word : Nat) :
    (f.signedQuanta word).natAbs = f.quanta (f.magnitude word) := by
  unfold signedQuanta
  split <;> omega

theorem read_of_lt_infinity (hf : 2 ≤ f.exponentBits) {word : Nat}
    (h : f.magnitude word < f.infinity) :
    f.read word = .finite ((f.signedQuanta word : ℚ) / f.one) := by
  rw [read_eq hf, if_neg (Nat.not_lt.mpr h.le), if_neg h.ne, signedQuanta]
  cases f.negative word with
  | false => simp
  | true => simp [neg_div]

theorem lt_infinity_of_read (hf : 2 ≤ f.exponentBits) {word : Nat} {z : ℚ}
    (h : f.read word = .finite z) : f.magnitude word < f.infinity := by
  by_contra hn
  rw [read_eq hf] at h
  split at h
  · cases h
  · split at h
    · cases h
    · omega

/-- An integer that is not too large is rounded to a finite magnitude. -/
theorem Ample.nearest_lt_infinity (hf : f.Ample) {n : Nat} (hn : n < 2 ^ f.bias) :
    f.nearest n 1 < f.infinity := by
  obtain ⟨shift, c, -, hnear, hcarry, hplace⟩ := f.exists_place n Nat.one_pos
  have hrange := hf.range
  have hprecision := hf.precision
  have hexp := hf.two_pow_exponentBits
  have hc : c ≤ 2 * 2 ^ f.fractionBits := by
    rw [← Nat.pow_succ']
    exact hcarry.elim (fun h => h.fits.le) fun h => h.le
  have hshift : shift + 2 ≤ 2 * f.bias := by
    rcases hplace with rfl | hplace
    · omega
    · have hlt : 2 ^ (f.fractionBits + shift) < 2 ^ (f.bias + (f.bias - 1 + f.fractionBits)) :=
        calc 2 ^ (f.fractionBits + shift) ≤ n * f.one := by
              rwa [Nat.one_mul, ← Nat.pow_add] at hplace
          _ < 2 ^ (f.bias + (f.bias - 1 + f.fractionBits)) := by
              rw [f.one_eq hf.exponent, Nat.pow_add 2 f.bias]
              exact Nat.mul_lt_mul_of_pos_right hn (Nat.two_pow_pos _)
      have := (Nat.pow_lt_pow_iff_right (by decide)).mp hlt
      omega
  have hlt : shift * 2 ^ f.fractionBits + c < f.infinity :=
    calc shift * 2 ^ f.fractionBits + c
        ≤ (shift + 2) * 2 ^ f.fractionBits := by
          rw [Nat.add_mul]
          omega
      _ ≤ 2 * f.bias * 2 ^ f.fractionBits := Nat.mul_le_mul_right _ hshift
      _ < (2 ^ f.exponentBits - 1) * 2 ^ f.fractionBits :=
          Nat.mul_lt_mul_of_pos_right (by omega) (Nat.two_pow_pos _)
      _ = f.infinity := f.infinity_eq.symm
  omega

/-- Distances of numbers with signs, where that of the magnitudes is least. -/
theorem closest_of_magnitudes {x y z : Int} (hsign : x < 0 ∧ y ≤ 0 ∨ 0 ≤ x ∧ 0 ≤ y)
    (hle : ((x.natAbs : Int) - y.natAbs).natAbs ≤ ((x.natAbs : Int) - z.natAbs).natAbs)
    (hzero : ((x.natAbs : Int) - y.natAbs).natAbs ≤ x.natAbs) :
    (x - y).natAbs ≤ (x - z).natAbs ∧ ((x - y).natAbs = (x - z).natAbs →
      ((x.natAbs : Int) - y.natAbs).natAbs = ((x.natAbs : Int) - z.natAbs).natAbs ∧
        (z.natAbs = y.natAbs → z = y)) := by
  omega

/-- **An integer becomes the nearest word**, if it is not too large for the format. -/
theorem Ample.isNearest_ofInt (hf : f.Ample) (hfraction : 0 < f.fractionBits) {x : Int}
    (hx : x.natAbs < 2 ^ f.bias) : f.ofInt x < 2 ^ f.width ∧ f.IsNearest x (f.ofInt x) := by
  have hfinite := hf.nearest_lt_infinity hx
  have hclosest := nearest_closest hfraction Nat.one_pos hfinite
  obtain ⟨m, hm⟩ : ∃ m, f.nearest x.natAbs 1 = m := ⟨_, rfl⟩
  have hword : f.ofInt x = f.pack (x < 0) m := by rw [ofInt, hm]
  simp only [hm, Nat.mul_one] at hfinite hclosest
  have hweight := hfinite.trans f.infinity_lt_signWeight
  have hmag : f.magnitude (f.ofInt x) = m := by rw [hword, magnitude_pack _ hweight]
  have hneg : f.negative (f.ofInt x) = decide (x < 0) := by rw [hword, negative_pack _ hweight]
  refine ⟨hword ▸ pack_lt hf.precision _ hweight, _,
    read_of_lt_infinity hf.exponent (hmag ▸ hfinite), fun other z hz => ?_⟩
  have hother := lt_infinity_of_read hf.exponent hz
  obtain rfl := Reading.finite.inj ((read_of_lt_infinity hf.exponent hother).symm.trans hz)
  -- all three numbers in quanta
  have hone : (0 : ℚ) < f.one := by exact_mod_cast f.one_pos
  have hdist : ∀ k : Int, |(x : ℚ) - k / f.one| = ((x * f.one - k).natAbs : ℚ) / f.one := by
    intro k
    rw [Nat.cast_natAbs, Int.cast_abs, ← abs_of_pos hone, ← abs_div, abs_of_pos hone]
    congr 1
    push_cast
    field_simp
  have habs : (x * f.one).natAbs = x.natAbs * f.one := by rw [Int.natAbs_mul, Int.natAbs_natCast]
  have hsign : x * f.one < 0 ∧ f.signedQuanta (f.ofInt x) ≤ 0 ∨
      0 ≤ x * f.one ∧ 0 ≤ f.signedQuanta (f.ofInt x) := by
    have hone' : (0 : Int) < f.one := by exact_mod_cast f.one_pos
    rw [signedQuanta, hneg]
    by_cases hx0 : x < 0
    · exact Or.inl ⟨Int.mul_neg_of_neg_of_pos hx0 hone', by simp [hx0]⟩
    · exact Or.inr ⟨Int.mul_nonneg (not_lt.mp hx0) hone'.le, by simp [hx0]⟩
  have hzero : f.quanta 0 = 0 := by simp [quanta]
  obtain ⟨hle, htie⟩ := closest_of_magnitudes (z := f.signedQuanta other) hsign
    (by simpa only [habs, natAbs_signedQuanta, hmag] using (hclosest (f.magnitude other)).1)
    (by simpa only [habs, natAbs_signedQuanta, hmag, hzero, Nat.cast_zero, Int.sub_zero,
      Int.natAbs_natCast] using (hclosest 0).1)
  rw [hdist, hdist]
  refine ⟨?_, fun he => ?_⟩
  · gcongr
  · obtain ⟨he', heq⟩ := htie (by exact_mod_cast (div_left_inj' hone.ne').mp he)
    simp only [habs, natAbs_signedQuanta, hmag] at he' heq
    rcases (hclosest (f.magnitude other)).2 he' with hq | heven
    · exact Or.inl (by rw [heq hq])
    · right
      have hbit : f.signWeight % 2 = 0 := by
        obtain ⟨b, hb⟩ := Nat.exists_eq_succ_of_ne_zero hfraction.ne'
        rw [signWeight_eq, hb, Nat.pow_succ, ← Nat.mul_assoc]
        omega
      rw [hword, pack]
      split <;> omega

end Format

end ArrayContract.Binary
