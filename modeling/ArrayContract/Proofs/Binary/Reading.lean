import ArrayContract.Proofs.Binary.Magnitude
import Mathlib.Data.Rat.Floor
import Mathlib.Tactic.FieldSimp
import Mathlib.Tactic.Ring

/-! # What a word stands for

`read` takes a word apart by its fields: below the sign stand the exponent field `e` and the
fraction `d`, and the word stands for `± (1 + d) * 2 ^ (e - bias)`, or for `± d * 2 ^ (1 - bias)` if
`e` is zero; the greatest `e` is kept for the infinities and for what is not a number. This is the
same as the number of quanta of the magnitude (`read_eq`). `Truncates` says which integer between
two bounds a reading is cut down to, and `truncates_iff` that `truncate` gives it.

* `read_ofInt`: an integer with no more digits than the precision is stored as it is.
* `convert_convert`: a number that is widened to a format with room for it and narrowed again is as
  it was, bit by bit. -/

namespace ArrayContract.Binary

/-- What a word stands for. -/
inductive Reading
  | nan
  | infinite (negative : Bool)
  | finite (value : ℚ)

namespace Format

variable (f : Format)

/-- The reading of a word by its fields. -/
def read (word : Nat) : Reading :=
  let negative : Bool := word / 2 ^ (f.exponentBits + f.fractionBits) % 2 == 1
  let exponent : Nat := word / 2 ^ f.fractionBits % 2 ^ f.exponentBits
  let fraction : Nat := word % 2 ^ f.fractionBits
  let sign : ℚ := if negative then -1 else 1
  let d : ℚ := fraction / 2 ^ f.fractionBits
  if exponent = 2 ^ f.exponentBits - 1 then
    if fraction = 0 then .infinite negative else .nan
  else if exponent = 0 then .finite (sign * (d * 2 ^ (1 - f.bias : ℤ)))
  else .finite (sign * ((1 + d) * 2 ^ (exponent - f.bias : ℤ)))

/-- The integers with no more digits than the precision lie well within the exponents. -/
structure Ample : Prop where
  exponent : 2 ≤ f.exponentBits
  precision : 0 < f.precision
  range : 2 * f.precision ≤ f.bias

theorem ample_binary32 : binary32.Ample := ⟨by decide, by decide, by decide⟩

theorem ample_binary64 : binary64.Ample := ⟨by decide, by decide, by decide⟩

variable {f} {word magnitude : Nat}

/-! ## Fields and quanta -/

theorem quanta_div_one (h : 2 ≤ f.exponentBits) (magnitude : Nat) :
    (f.quanta magnitude : ℚ) / f.one =
      if magnitude / 2 ^ f.fractionBits = 0 then
        ((magnitude % 2 ^ f.fractionBits : Nat) : ℚ) / 2 ^ f.fractionBits * 2 ^ (1 - f.bias : ℤ)
      else (1 + ((magnitude % 2 ^ f.fractionBits : Nat) : ℚ) / 2 ^ f.fractionBits) *
        2 ^ ((magnitude / 2 ^ f.fractionBits : Nat) - f.bias : ℤ) := by
  have hbias : 1 ≤ f.bias := by
    have : 2 ≤ 2 ^ (f.exponentBits - 1) := Nat.le_self_pow (by omega) 2
    rw [bias]
    omega
  obtain ⟨b, hb⟩ : ∃ b, f.bias = b + 1 := ⟨f.bias - 1, by omega⟩
  rw [quanta_eq, f.one_eq h, hb, Nat.add_sub_cancel]
  generalize magnitude % 2 ^ f.fractionBits = fraction
  rcases magnitude / 2 ^ f.fractionBits with _ | e
  · have hexp : (1 - (b + 1 : Nat) : ℤ) = -b := by omega
    rw [if_pos rfl, if_pos rfl, hexp, zpow_neg, zpow_natCast]
    push_cast
    rw [pow_add]
    field_simp
  · have hexp : ((e + 1 : Nat) - (b + 1 : Nat) : ℤ) = e - b := by omega
    rw [if_neg (Nat.succ_ne_zero e), if_neg (Nat.succ_ne_zero e), hexp, zpow_sub₀ two_ne_zero,
      zpow_natCast, zpow_natCast, Nat.add_sub_cancel]
    push_cast
    rw [pow_add]
    field_simp

theorem fields_magnitude (f : Format) (word : Nat) :
    f.magnitude word / 2 ^ f.fractionBits = word / 2 ^ f.fractionBits % 2 ^ f.exponentBits ∧
      f.magnitude word % 2 ^ f.fractionBits = word % 2 ^ f.fractionBits := by
  rw [magnitude, signWeight_eq]
  exact ⟨Nat.mod_mul_left_div_self _ _ _, Nat.mod_mul_left_mod _ _ _⟩

/-- A magnitude lies above, at or below infinity as its fields say. -/
theorem infinity_fields {m : Nat} (h : m / 2 ^ f.fractionBits < 2 ^ f.exponentBits) :
    (f.infinity < m ↔ m / 2 ^ f.fractionBits = 2 ^ f.exponentBits - 1 ∧
      m % 2 ^ f.fractionBits ≠ 0) ∧
    (m = f.infinity ↔ m / 2 ^ f.fractionBits = 2 ^ f.exponentBits - 1 ∧
      m % 2 ^ f.fractionBits = 0) := by
  have hdiv := Nat.div_add_mod m (2 ^ f.fractionBits)
  have hmod := Nat.mod_lt m (Nat.two_pow_pos f.fractionBits)
  rw [infinity_eq, Nat.mul_comm]
  by_cases he : m / 2 ^ f.fractionBits = 2 ^ f.exponentBits - 1
  · rw [he] at hdiv ⊢
    omega
  · have hlt : m < 2 ^ f.fractionBits * (2 ^ f.exponentBits - 1) := by
      rw [Nat.mul_comm, ← Nat.div_lt_iff_lt_mul (Nat.two_pow_pos _)]
      omega
    omega

/-- **Fields and quanta** tell the same of a word. -/
theorem read_eq (h : 2 ≤ f.exponentBits) (word : Nat) :
    f.read word =
      if f.infinity < f.magnitude word then .nan
      else if f.magnitude word = f.infinity then .infinite (f.negative word)
      else .finite ((if f.negative word then -1 else 1) *
        ((f.quanta (f.magnitude word) : ℚ) / f.one)) := by
  obtain ⟨hexp, hfrac⟩ := f.fields_magnitude word
  have hneg : (word / 2 ^ (f.exponentBits + f.fractionBits) % 2 == 1) = f.negative word := by
    rw [negative, signWeight_eq, Nat.pow_add]
  have hlt : f.magnitude word / 2 ^ f.fractionBits < 2 ^ f.exponentBits := by
    rw [hexp]
    exact Nat.mod_lt _ (Nat.two_pow_pos _)
  obtain ⟨habove, hat⟩ := infinity_fields hlt
  rw [quanta_div_one h, read]
  simp only [← hexp, ← hfrac, hneg, habove, hat]
  by_cases htop : f.magnitude word / 2 ^ f.fractionBits = 2 ^ f.exponentBits - 1
  · by_cases hz : f.magnitude word % 2 ^ f.fractionBits = 0
    · simp [htop, hz]
    · simp [htop, hz]
  · simp only [htop, false_and, if_false]
    split <;> rfl

theorem isNaN_iff (h : 2 ≤ f.exponentBits) : f.isNaN word = true ↔ f.read word = .nan := by
  rw [read_eq h, isNaN, decide_eq_true_eq]
  split
  · next hn => simp [hn]
  · next hn => split <;> simp [hn]

/-! ## Words put together -/

theorem negative_pack (negative : Bool) (h : magnitude < f.signWeight) :
    f.negative (f.pack negative magnitude) = negative := by
  have hpos : 0 < f.signWeight := Nat.zero_lt_of_lt h
  cases negative with
  | false => simp [Format.negative, pack, Nat.div_eq_of_lt h]
  | true => simp [Format.negative, pack, Nat.add_div_left _ hpos, Nat.div_eq_of_lt h]

theorem magnitude_pack (negative : Bool) (h : magnitude < f.signWeight) :
    f.magnitude (f.pack negative magnitude) = magnitude := by
  cases negative <;> simp [Format.magnitude, pack, Nat.mod_eq_of_lt h]

theorem width_eq (h : 0 < f.precision) : 2 ^ f.width = 2 * f.signWeight := by
  have hw : f.width = f.exponentBits + f.fractionBits + 1 := by
    rw [width, fractionBits]
    omega
  rw [hw, signWeight, Nat.one_shiftLeft, Nat.pow_succ, Nat.mul_comm]

theorem pack_lt (hp : 0 < f.precision) (negative : Bool) (h : magnitude < f.signWeight) :
    f.pack negative magnitude < 2 ^ f.width := by
  rw [width_eq hp]
  cases negative with
  | false => exact Nat.lt_of_lt_of_le h (by omega)
  | true =>
    rw [pack, if_pos rfl]
    omega

theorem pack_negative_magnitude (hp : 0 < f.precision) (h : word < 2 ^ f.width) :
    f.pack (f.negative word) (f.magnitude word) = word := by
  rw [width_eq hp] at h
  have hdiv := Nat.div_add_mod word f.signWeight
  have hlt : word / f.signWeight < 2 := Nat.div_lt_of_lt_mul (by omega)
  rw [pack, negative, magnitude]
  rcases Nat.le_one_iff_eq_zero_or_eq_one.mp (Nat.lt_succ_iff.mp hlt) with he | he
  · rw [he] at hdiv ⊢
    simpa using hdiv
  · rw [he] at hdiv ⊢
    simpa using hdiv

/-! ## Integers between two bounds -/

end Format

/-- The integer part of a number, toward zero. -/
def towardZero (q : ℚ) : Int := if 0 ≤ q then ⌊q⌋ else ⌈q⌉

/-- The integer between two bounds that a reading is cut down to. -/
inductive Truncates (low high : Int) : Reading → Int → Prop
  | nan : Truncates low high .nan 0
  | infinite (negative : Bool) :
      Truncates low high (.infinite negative) (if negative then low else high)
  | below {q : ℚ} (h : q < low) : Truncates low high (.finite q) low
  | above {q : ℚ} (h : high < q) : Truncates low high (.finite q) high
  | within {q : ℚ} (hlow : low ≤ q) (hhigh : q ≤ high) :
      Truncates low high (.finite q) (towardZero q)

theorem towardZero_intCast (n : Int) : towardZero n = n := by
  unfold towardZero
  split
  · exact Int.floor_intCast n
  · exact Int.ceil_intCast n

theorem towardZero_neg (q : ℚ) : towardZero (-q) = -towardZero q := by
  unfold towardZero
  rcases lt_trichotomy q 0 with h | rfl | h
  · rw [if_pos (by linarith), if_neg (by linarith), Int.floor_neg]
  · simp
  · rw [if_neg (by linarith), if_pos (by linarith), Int.ceil_neg]

theorem towardZero_mono {q r : ℚ} (h : q ≤ r) : towardZero q ≤ towardZero r := by
  unfold towardZero
  by_cases hq : 0 ≤ q
  · rw [if_pos hq, if_pos (hq.trans h)]
    exact Int.floor_mono h
  · rw [if_neg hq]
    have hceil : ⌈q⌉ ≤ 0 := Int.ceil_le.mpr (by exact_mod_cast (not_le.mp hq).le)
    by_cases hr : 0 ≤ r
    · rw [if_pos hr]
      exact hceil.trans (Int.floor_nonneg.mpr hr)
    · rw [if_neg hr]
      exact Int.ceil_mono h

theorem le_towardZero {n : Int} {q : ℚ} (h : n ≤ q) : n ≤ towardZero q :=
  (towardZero_intCast n).ge.trans (towardZero_mono h)

theorem towardZero_le {n : Int} {q : ℚ} (h : q ≤ n) : towardZero q ≤ n :=
  (towardZero_mono h).trans (towardZero_intCast n).le

theorem Truncates.bounds {low high n : Int} {r : Reading} (h : Truncates low high r n)
    (hlow : low ≤ 0) (hhigh : 0 ≤ high) : low ≤ n ∧ n ≤ high := by
  cases h with
  | nan => exact ⟨hlow, hhigh⟩
  | infinite negative =>
    cases negative with
    | false => exact ⟨hlow.trans hhigh, le_rfl⟩
    | true => exact ⟨le_rfl, hlow.trans hhigh⟩
  | below _ => exact ⟨le_rfl, hlow.trans hhigh⟩
  | above _ => exact ⟨hlow.trans hhigh, le_rfl⟩
  | within hl hh => exact ⟨le_towardZero hl, towardZero_le hh⟩

/-- A number is cut down to the integer of the two bounds' range next to its integer part. -/
theorem truncates_finite_iff {low high n : Int} (h : low ≤ high) (q : ℚ) :
    Truncates low high (.finite q) n ↔ n = max low (min high (towardZero q)) := by
  constructor
  · rintro (_ | _ | hq | hq | ⟨hl, hh⟩)
    · have := towardZero_le hq.le
      omega
    · have := le_towardZero hq.le
      omega
    · have := le_towardZero hl
      have := towardZero_le hh
      omega
  · rintro rfl
    by_cases hl : (low : ℚ) ≤ q
    · by_cases hh : q ≤ high
      · have := le_towardZero hl
        have := towardZero_le hh
        rw [min_eq_right (by omega), max_eq_right (by omega)]
        exact .within hl hh
      · have := le_towardZero (not_le.mp hh).le
        rw [min_eq_left (by omega), max_eq_right h]
        exact .above (not_le.mp hh)
    · have := towardZero_le (not_le.mp hl).le
      rw [max_eq_left (by omega)]
      exact .below (not_le.mp hl)

namespace Format

variable {f g : Format} {word : Nat}

/-- **An integer cut out of a word** is the one that its reading is cut down to. -/
theorem truncates_iff (hf : 2 ≤ f.exponentBits) {low high n : Int} (h : low ≤ high) (word : Nat) :
    Truncates low high (f.read word) n ↔ n = f.truncate low high word := by
  rw [read_eq hf, truncate]
  by_cases hnan : f.infinity < f.magnitude word
  · rw [if_pos hnan, if_pos hnan]
    exact ⟨fun ht => by cases ht; rfl, fun hn => hn ▸ .nan⟩
  rw [if_neg hnan, if_neg hnan]
  by_cases hinf : f.magnitude word = f.infinity
  · rw [if_pos hinf, if_pos hinf]
    exact ⟨fun ht => by cases ht; rfl, fun hn => hn ▸ .infinite _⟩
  rw [if_neg hinf, if_neg hinf, truncates_finite_iff h]
  have hwhole : towardZero ((f.quanta (f.magnitude word) : ℚ) / f.one) =
      (f.quanta (f.magnitude word) : Int) / f.one := by
    rw [towardZero, if_pos (by positivity)]
    exact Rat.floor_intCast_div_natCast _ _
  cases f.negative word with
  | false => simp [hwhole]
  | true => simp [towardZero_neg, hwhole]

/-! ## Integers that fit -/

theorem Ample.two_pow_exponentBits (hf : f.Ample) : 2 ^ f.exponentBits = 2 * (f.bias + 1) := by
  have hpow : f.bias + 1 = 2 ^ (f.exponentBits - 1) := by
    have := Nat.two_pow_pos (f.exponentBits - 1)
    rw [bias]
    omega
  have := hf.exponent
  rw [hpow, ← Nat.pow_succ']
  congr 1
  omega

theorem Ample.exists_quanta (hf : f.Ample) {c : Nat} (hc : c ≤ 2 ^ f.precision) :
    ∃ magnitude < f.infinity, f.quanta magnitude = c * f.one := by
  have hexp := hf.two_pow_exponentBits
  have hp : f.precision = f.fractionBits + 1 := by
    have := hf.precision
    rw [fractionBits]
    omega
  have hrange := hf.range
  rw [f.one_eq hf.exponent]
  rcases Nat.lt_or_eq_of_le hc with hlt | rfl
  · exact exists_magnitude (hp ▸ hlt) (by omega)
  · obtain ⟨m, hm, hq⟩ := @exists_magnitude f 1 (f.precision + (f.bias - 1 + f.fractionBits))
      (Nat.one_lt_two_pow (Nat.succ_ne_zero _)) (by omega)
    refine ⟨m, hm, ?_⟩
    rw [hq, Nat.one_mul, Nat.pow_add]

/-- **An integer with no more digits than the precision** is stored as it is. -/
theorem Ample.read_ofInt (hf : f.Ample) {x : Int} (hx : x.natAbs ≤ 2 ^ f.precision) :
    f.ofInt x < 2 ^ f.width ∧ f.read (f.ofInt x) = .finite x := by
  obtain ⟨m, hm, hq⟩ := hf.exists_quanta hx
  have hnear : f.nearest x.natAbs 1 = m := nearest_eq hm Nat.one_pos (by rw [hq, Nat.mul_one])
  have hsign : m < f.signWeight := hm.trans f.infinity_lt_signWeight
  rw [ofInt, hnear]
  refine ⟨pack_lt hf.precision _ hsign, ?_⟩
  have hone : (f.one : ℚ) ≠ 0 := by exact_mod_cast f.one_pos.ne'
  rw [read_eq hf.exponent, magnitude_pack _ hsign, negative_pack _ hsign,
    if_neg (Nat.not_lt.mpr hm.le), if_neg hm.ne, hq, Nat.cast_mul, mul_div_cancel_right₀ _ hone]
  by_cases hneg : x < 0
  · have habs : ((x.natAbs : Int) : ℚ) = (-x : Int) := congrArg _ (by omega)
    rw [if_pos (decide_eq_true hneg), ← Int.cast_natCast, habs]
    push_cast
    rw [neg_one_mul, neg_neg]
  · have habs : ((x.natAbs : Int) : ℚ) = x := congrArg _ (by omega)
    rw [if_neg (by simp [hneg]), ← Int.cast_natCast, habs, one_mul]

/-! ## Numbers that are widened -/

/-- A format has room for the fractions and the exponents of another. -/
structure Holds (g f : Format) : Prop where
  fraction : f.fractionBits ≤ g.fractionBits
  quantum : f.bias + f.fractionBits ≤ g.bias + g.fractionBits
  exponent : 2 ^ f.exponentBits + (g.bias + g.fractionBits - (f.bias + f.fractionBits)) ≤
    2 ^ g.exponentBits

theorem binary64_holds_binary32 : binary64.Holds binary32 := ⟨by decide, by decide, by decide⟩

theorem Holds.exists_quanta (h : g.Holds f) (hf : f.Ample) (hg : g.Ample) {m : Nat}
    (hm : m < f.infinity) :
    ∃ m' < g.infinity, g.quanta m' * f.one = f.quanta m * g.one := by
  obtain ⟨c, shift, hc, rfl⟩ := f.exists_normal m
  have hshift : shift + 2 < 2 ^ f.exponentBits := by
    have hpow : 2 ^ 2 ≤ 2 ^ f.exponentBits := Nat.pow_le_pow_right (by decide) hf.exponent
    rcases hc.top with rfl | htop
    · omega
    · have hlt : (shift + 1) * 2 ^ f.fractionBits < (2 ^ f.exponentBits - 1) * 2 ^ f.fractionBits :=
        calc (shift + 1) * 2 ^ f.fractionBits
            ≤ shift * 2 ^ f.fractionBits + c := by
              rw [Nat.succ_mul]
              omega
          _ < (2 ^ f.exponentBits - 1) * 2 ^ f.fractionBits := f.infinity_eq ▸ hm
      have := Nat.lt_of_mul_lt_mul_right hlt
      omega
  have hone : ∀ {k : Format}, k.Ample → 0 < k.bias := fun hk => by
    have := hk.range
    have := hk.precision
    omega
  have hbf := hone hf
  have hbg := hone hg
  have hq := h.quantum
  have he := h.exponent
  have hfits : c < 2 ^ (g.fractionBits + 1) :=
    hc.fits.trans_le (Nat.pow_le_pow_right (by decide) (Nat.succ_le_succ h.fraction))
  obtain ⟨m', hm', hm'q⟩ := @exists_magnitude g c
    (shift + (g.bias + g.fractionBits - (f.bias + f.fractionBits))) hfits (by omega)
  refine ⟨m', hm', ?_⟩
  rw [hm'q, quanta_add hc, f.one_eq hf.exponent, g.one_eq hg.exponent, Nat.mul_assoc, Nat.mul_assoc,
    ← Nat.pow_add, ← Nat.pow_add]
  congr 2
  omega

/-- **A number that is widened and narrowed again** is as it was, bit by bit. -/
theorem Holds.convert_convert (h : g.Holds f) (hf : f.Ample) (hg : g.Ample)
    (hw : word < 2 ^ f.width) (hn : f.read word ≠ .nan) :
    f.convert g word < 2 ^ g.width ∧ g.convert f (f.convert g word) = word := by
  by_cases hfg : f = g
  · subst hfg
    rw [convert, if_pos rfl, convert, if_pos rfl]
    exact ⟨hw, rfl⟩
  have hle : ¬ f.infinity < f.magnitude word := by
    intro hlt
    exact hn (by rw [read_eq hf.exponent, if_pos hlt])
  have hback := pack_negative_magnitude hf.precision hw
  have hwide : ∀ m', m' < g.signWeight → f.convert g word = g.pack (f.negative word) m' →
      f.convert g word < 2 ^ g.width ∧ g.negative (f.convert g word) = f.negative word ∧
        g.magnitude (f.convert g word) = m' := fun m' hm' he => by
    rw [he]
    exact ⟨pack_lt hg.precision _ hm', negative_pack _ hm', magnitude_pack _ hm'⟩
  by_cases hinf : f.magnitude word = f.infinity
  · obtain ⟨hlt, hneg, hmag⟩ := hwide g.infinity g.infinity_lt_signWeight (by
      simp [convert, hfg, hinf])
    refine ⟨hlt, ?_⟩
    rw [convert, if_neg (Ne.symm hfg), hneg, hmag]
    simp only [lt_irrefl, if_false, if_true]
    rw [← hinf, hback]
  · have hm : f.magnitude word < f.infinity := lt_of_le_of_ne (not_lt.mp hle) hinf
    obtain ⟨m', hm', hq⟩ := h.exists_quanta hf hg hm
    have hnear : g.nearest (f.quanta (f.magnitude word)) f.one = m' :=
      nearest_eq hm' f.one_pos hq.symm
    obtain ⟨hlt, hneg, hmag⟩ := hwide m' (hm'.trans g.infinity_lt_signWeight) (by
      simp [convert, hfg, hle, hinf, hnear])
    refine ⟨hlt, ?_⟩
    have hnear' : f.nearest (g.quanta m') g.one = f.magnitude word := nearest_eq hm g.one_pos hq
    rw [convert, if_neg (Ne.symm hfg), hneg, hmag]
    simp only [if_neg (Nat.not_lt.mpr hm'.le), if_neg hm'.ne, hnear', hback]

end Format

end ArrayContract.Binary
