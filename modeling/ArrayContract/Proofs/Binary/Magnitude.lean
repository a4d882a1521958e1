import ArrayContract.Binary.Format
import Mathlib.Algebra.Order.Ring.Nat

/-! # Magnitudes that are hit exactly

A finite magnitude is a significand `c` moved up by a number `shift` of binary places, where `c` has
its top bit set unless `shift` is zero (`Normal`). In these terms the magnitude is
`shift * 2 ^ fractionBits + c` and stands for `c * 2 ^ shift` quanta (`quanta_add`). Rounding loses
nothing where there is nothing to lose: a ratio that a finite magnitude stands for is rounded to
that magnitude (`nearest_eq`), and every number with no more digits than the precision is such a
ratio, unless it is too large (`exists_magnitude`). -/

namespace ArrayContract.Binary

/-- A quotient without remainder is not changed by rounding. -/
theorem roundHalfEven_mul (q : Nat) {den : Nat} (h : 0 < den) :
    roundHalfEven (q * den) den = q := by
  unfold roundHalfEven
  rw [Nat.mul_div_cancel _ h, Nat.mul_mod_left]
  exact if_pos (by omega)

namespace Format

variable (f : Format) {c shift magnitude num den : Nat}

/-! ## The constants as powers of two -/

/-- The exponent field of the number 1. -/
def bias : Nat := 2 ^ (f.exponentBits - 1) - 1

theorem signWeight_eq : f.signWeight = 2 ^ f.exponentBits * 2 ^ f.fractionBits := by
  rw [signWeight, Nat.one_shiftLeft, Nat.pow_add]

theorem infinity_eq : f.infinity = (2 ^ f.exponentBits - 1) * 2 ^ f.fractionBits := by
  rw [infinity, Nat.one_shiftLeft, Nat.shiftLeft_eq]

theorem one_eq (h : 2 ≤ f.exponentBits) : f.one = 2 ^ (f.bias - 1 + f.fractionBits) := by
  have hbias : 2 ≤ 2 ^ (f.exponentBits - 1) := Nat.le_self_pow (by omega) 2
  rw [one, Nat.one_shiftLeft, Nat.one_shiftLeft, bias]
  congr 1
  omega

theorem one_pos : 0 < f.one := by
  rw [one, Nat.one_shiftLeft]
  exact Nat.two_pow_pos _

theorem infinity_lt_signWeight : f.infinity < f.signWeight := by
  rw [infinity_eq, signWeight_eq]
  exact Nat.mul_lt_mul_of_pos_right (Nat.sub_lt (Nat.two_pow_pos _) Nat.one_pos) (Nat.two_pow_pos _)

/-! ## Significands -/

/-- A significand that fits, with its top bit set unless it stands at the lowest place. -/
structure Normal (c shift : Nat) : Prop where
  fits : c < 2 ^ (f.fractionBits + 1)
  top : shift = 0 ∨ 2 ^ f.fractionBits ≤ c

variable {f}

theorem quanta_eq (magnitude : Nat) : f.quanta magnitude =
    if magnitude / 2 ^ f.fractionBits = 0 then magnitude % 2 ^ f.fractionBits
    else (2 ^ f.fractionBits + magnitude % 2 ^ f.fractionBits) *
      2 ^ (magnitude / 2 ^ f.fractionBits - 1) := by
  simp only [quanta, Nat.shiftRight_eq_div_pow, Nat.shiftLeft_eq, Nat.one_mul]

theorem quanta_add (h : f.Normal c shift) :
    f.quanta (shift * 2 ^ f.fractionBits + c) = c * 2 ^ shift := by
  have hfits := h.fits
  rw [Nat.pow_succ] at hfits
  rw [quanta_eq, Nat.mul_comm shift, Nat.mul_add_div (Nat.two_pow_pos _), Nat.mul_add_mod]
  by_cases hc : c < 2 ^ f.fractionBits
  · obtain rfl : shift = 0 := h.top.resolve_right (Nat.not_le.mpr hc)
    rw [Nat.div_eq_of_lt hc, if_pos rfl, Nat.mod_eq_of_lt hc, Nat.pow_zero, Nat.mul_one]
  · have hdiv : c / 2 ^ f.fractionBits = 1 := Nat.div_eq_of_lt_le (by omega) (by omega)
    have hmod : 2 ^ f.fractionBits + c % 2 ^ f.fractionBits = c := by
      have := Nat.div_add_mod c (2 ^ f.fractionBits)
      rwa [hdiv, Nat.mul_one] at this
    rw [hdiv, if_neg (Nat.succ_ne_zero shift), hmod, Nat.add_sub_cancel]

/-- Every magnitude is that of a significand at some place. -/
theorem exists_normal (f : Format) (magnitude : Nat) :
    ∃ c shift, f.Normal c shift ∧ magnitude = shift * 2 ^ f.fractionBits + c := by
  have hdiv := Nat.div_add_mod magnitude (2 ^ f.fractionBits)
  have hmod := Nat.mod_lt magnitude (Nat.two_pow_pos f.fractionBits)
  rcases he : magnitude / 2 ^ f.fractionBits with _ | shift
  · refine ⟨magnitude % 2 ^ f.fractionBits, 0, ⟨?_, Or.inl rfl⟩, ?_⟩
    · rw [Nat.pow_succ]
      omega
    · rw [he] at hdiv
      omega
  · refine ⟨2 ^ f.fractionBits + magnitude % 2 ^ f.fractionBits, shift, ⟨?_, Or.inr ?_⟩, ?_⟩
    · rw [Nat.pow_succ]
      omega
    · exact Nat.le_add_right _ _
    · rw [he, Nat.mul_comm, Nat.succ_mul] at hdiv
      omega

/-- The place of a significand is told from the number it stands for. -/
theorem Normal.log2_sub (h : f.Normal c shift) :
    (c * 2 ^ shift).log2 - f.fractionBits = shift := by
  rcases Nat.eq_zero_or_pos c with rfl | hc
  · have hshift : shift = 0 :=
      h.top.resolve_right (Nat.not_le.mpr (Nat.two_pow_pos f.fractionBits))
    simp [hshift]
  have hlow : 2 ^ c.log2 ≤ c := Nat.log2_self_le (Nat.ne_of_gt hc)
  have hlog : (c * 2 ^ shift).log2 = c.log2 + shift := by
    rw [Nat.log2_eq_iff (Nat.ne_of_gt (Nat.mul_pos hc (Nat.two_pow_pos _)))]
    refine ⟨?_, ?_⟩
    · rw [Nat.pow_add]
      exact Nat.mul_le_mul_right _ hlow
    · rw [Nat.add_right_comm, Nat.pow_add]
      exact Nat.mul_lt_mul_of_pos_right Nat.lt_log2_self (Nat.two_pow_pos _)
  have hle : c.log2 ≤ f.fractionBits :=
    Nat.lt_succ_iff.mp ((Nat.log2_lt (Nat.ne_of_gt hc)).mpr h.fits)
  rcases h.top with rfl | htop
  · omega
  · have : f.fractionBits ≤ c.log2 := (Nat.le_log2 (Nat.ne_of_gt hc)).mpr htop
    omega

/-! ## Rounding -/

/-- **A ratio that a finite magnitude stands for** is rounded to this magnitude. -/
theorem nearest_eq (hm : magnitude < f.infinity) (hden : 0 < den)
    (h : num * f.one = f.quanta magnitude * den) : f.nearest num den = magnitude := by
  obtain ⟨c, shift, hc, rfl⟩ := f.exists_normal magnitude
  rw [quanta_add hc] at h
  have hround : roundHalfEven (c * 2 ^ shift * den) (den * 2 ^ shift) = c := by
    rw [Nat.mul_assoc, Nat.mul_comm (2 ^ shift)]
    exact roundHalfEven_mul c (Nat.mul_pos hden (Nat.two_pow_pos _))
  simp only [nearest, h, Nat.mul_div_cancel _ hden, hc.log2_sub, Nat.shiftLeft_eq, hround]
  exact Nat.min_eq_left (Nat.le_of_lt hm)

/-- **A number with no more digits than the precision** is one that a finite magnitude stands for,
unless it is too large. -/
theorem exists_magnitude (hc : c < 2 ^ (f.fractionBits + 1)) (hs : shift + 2 < 2 ^ f.exponentBits) :
    ∃ magnitude < f.infinity, f.quanta magnitude = c * 2 ^ shift := by
  -- the significand is moved down as far as its digits allow
  obtain ⟨d, place, hd, hle, he⟩ :
      ∃ d place, f.Normal d place ∧ place ≤ shift ∧ d * 2 ^ place = c * 2 ^ shift := by
    clear hs
    induction shift generalizing c with
    | zero => exact ⟨c, 0, ⟨hc, Or.inl rfl⟩, Nat.le_refl 0, rfl⟩
    | succ shift ih =>
      by_cases htop : 2 ^ f.fractionBits ≤ c
      · exact ⟨c, shift + 1, ⟨hc, Or.inr htop⟩, Nat.le_refl _, rfl⟩
      · rw [Nat.pow_succ] at hc
        obtain ⟨d, place, hd, hle, he⟩ := @ih (c * 2) (by rw [Nat.pow_succ]; omega)
        refine ⟨d, place, hd, Nat.le_succ_of_le hle, he.trans ?_⟩
        rw [Nat.pow_succ, Nat.mul_assoc, Nat.mul_comm 2]
  refine ⟨place * 2 ^ f.fractionBits + d, ?_, (quanta_add hd).trans he⟩
  calc place * 2 ^ f.fractionBits + d
      < (place + 2) * 2 ^ f.fractionBits := by
        have := hd.fits
        rw [Nat.pow_succ] at this
        rw [Nat.add_mul]
        omega
    _ ≤ (2 ^ f.exponentBits - 1) * 2 ^ f.fractionBits :=
        Nat.mul_le_mul_right _ (by omega)
    _ = f.infinity := f.infinity_eq.symm

end Format

end ArrayContract.Binary
