import ArrayContract.Proofs.Shape.Resolve
import Mathlib.Algebra.BigOperators.Ring.List
import Mathlib.Algebra.Order.Ring.Nat

/-! # Resolving finds the one shape that fits

`Candidate axes n s` says, without `resolve`, that `s` has the declared axes and `n` elements. With
no free axis the fixed ones are the only candidate, if any. With one free axis the candidates are
the fillings of that axis (`Fits.exists_map_fill`), and there is just one of them exactly if the
product of the fixed axes is not zero and divides `n` (`only_factor_iff`); beside a zero, either no
length or every length will do. With more free axes there is nothing to infer, and an array whose
shape has the declared axes keeps it.

* `resolve_infers`: resolving succeeds just where the shape is determined so, and gives that shape.
* `resolve_of_fits`: a shape that has the declared axes is resolved to itself, unless the free axis
  stands beside a zero.
* `resolve?` is `resolve` with its divisions trapped; `resolve?_eq_some` says that none traps. -/

namespace ArrayContract.Shape

variable {axes : List Axis} {current s : Shape} {n q known : Nat}

/-! ## Shapes that have the declared axes -/

theorem mem_fixedAxes_iff : n ∈ fixedAxes axes ↔ Axis.fixed n ∈ axes := by
  induction axes with
  | nil => simp [fixedAxes]
  | cons a axes ih =>
    rcases a with m | _
    · simp [ih]
    · simp [ih]

theorem Fits.disagreement?_eq_none {k : Nat} (h : Fits axes s) : disagreement? k axes s = none := by
  induction axes, s, h using Fits.induction generalizing k with
  | nil => rfl
  | fixed n axes s _ ih => simp only [disagreement?, if_true, ih]
  | any m axes s _ ih => simp only [disagreement?, ih]

/-- Without free axes the fixed ones are the only shape that has them. -/
theorem Fits.eq_fixedAxes (h : Fits axes s) (hf : freeAxes axes = 0) : s = fixedAxes axes := by
  induction axes, s, h using Fits.induction with
  | nil => rfl
  | fixed n axes s _ ih =>
    rw [freeAxes_fixed] at hf
    rw [fixedAxes_fixed, ← ih hf]
  | any m axes s _ _ => simp at hf

theorem map_fill_of_no_free (hf : freeAxes axes = 0) : axes.map (Axis.fill q) = fixedAxes axes :=
  (fits_map_fill q).eq_fixedAxes hf

/-- With one free axis every shape that has the declared ones is a filling of it. -/
theorem Fits.exists_map_fill (h : Fits axes s) (hf : freeAxes axes = 1) :
    ∃ q, s = axes.map (Axis.fill q) := by
  induction axes, s, h using Fits.induction with
  | nil => simp [freeAxes] at hf
  | fixed n axes s _ ih =>
    rw [freeAxes_fixed] at hf
    obtain ⟨q, rfl⟩ := ih hf
    exact ⟨q, rfl⟩
  | any m axes s hs _ =>
    have hf' : freeAxes axes = 0 := by rw [freeAxes_any] at hf; omega
    refine ⟨m, ?_⟩
    rw [List.map_cons, map_fill_of_no_free hf', ← hs.eq_fixedAxes hf']
    rfl

theorem mem_map_fill (hf : freeAxes axes = 1) {m : Nat} :
    m ∈ axes.map (Axis.fill q) ↔ m = q ∨ Axis.fixed m ∈ axes := by
  have hany : Axis.any ∈ axes := by
    have hpos : 0 < axes.countP Axis.isAny := by
      have : axes.countP Axis.isAny = 1 := hf
      omega
    obtain ⟨a, ha, hi⟩ := List.countP_pos_iff.mp hpos
    rcases a with k | _
    · exact nomatch hi
    · exact ha
  rw [List.mem_map]
  constructor
  · rintro ⟨a, ha, rfl⟩
    rcases a with k | _
    · exact Or.inr ha
    · exact Or.inl rfl
  · rintro (rfl | hm)
    · exact ⟨.any, hany, rfl⟩
    · exact ⟨.fixed m, hm, rfl⟩

/-- The free axis can be read off a filling. -/
theorem map_fill_inj (hf : freeAxes axes = 1) {q' : Nat}
    (h : axes.map (Axis.fill q) = axes.map (Axis.fill q')) : q = q' := by
  induction axes with
  | nil => simp [freeAxes] at hf
  | cons a axes ih =>
    rw [List.map_cons, List.map_cons, List.cons.injEq] at h
    rcases a with n | _
    · exact ih (by simpa using hf) h.2
    · exact h.1

/-! ## Candidates -/

/-- A shape has the declared axes and so many elements, and its axes are of 64 bits. -/
structure Candidate (axes : List Axis) (n : Nat) (s : Shape) : Prop where
  fits : Fits axes s
  prod : s.prod = n
  lt : ∀ m ∈ s, m < countBound

/-- A shape is the only candidate. -/
def Determined (axes : List Axis) (n : Nat) (s : Shape) : Prop :=
  Candidate axes n s ∧ ∀ s', Candidate axes n s' → s' = s

theorem determined_of_no_free (hw : ∀ k, Axis.fixed k ∈ axes → k < countBound)
    (hf : freeAxes axes = 0) :
    Determined axes n s ↔ (fixedAxes axes).prod = n ∧ s = fixedAxes axes := by
  constructor
  · rintro ⟨hs, -⟩
    have he := hs.fits.eq_fixedAxes hf
    exact ⟨he ▸ hs.prod, he⟩
  · rintro ⟨hn, rfl⟩
    refine ⟨⟨fits_fixedAxes hf, hn, fun m hm => hw m (mem_fixedAxes_iff.mp hm)⟩, ?_⟩
    intro s' hs'
    exact hs'.fits.eq_fixedAxes hf

theorem candidate_map_fill_iff (hw : ∀ k, Axis.fixed k ∈ axes → k < countBound)
    (hf : freeAxes axes = 1) :
    Candidate axes n (axes.map (Axis.fill q)) ↔
      q < countBound ∧ q * (fixedAxes axes).prod = n := by
  have hprod : (axes.map (Axis.fill q)).prod = q * (fixedAxes axes).prod := by
    rw [prod_map_fill, hf, Nat.pow_one]
  constructor
  · intro h
    exact ⟨h.lt q ((mem_map_fill hf).mpr (Or.inl rfl)), hprod ▸ h.prod⟩
  · rintro ⟨hq, hn⟩
    refine ⟨fits_map_fill q, hprod.trans hn, fun m hm => ?_⟩
    rcases (mem_map_fill hf).mp hm with rfl | hm
    · exact hq
    · exact hw m hm

/-- A number has just one cofactor exactly if the factor divides it and is not zero: every number
is a cofactor of zero for zero. -/
theorem only_factor_iff (hn : n < countBound) :
    ((q < countBound ∧ q * known = n) ∧ ∀ q', q' < countBound ∧ q' * known = n → q' = q) ↔
      known ≠ 0 ∧ n % known = 0 ∧ q = n / known := by
  constructor
  · rintro ⟨⟨-, rfl⟩, honly⟩
    have h0 : known ≠ 0 := by
      rintro rfl
      have hzero : 0 = q := honly 0 ⟨by decide, by simp⟩
      have hone : 1 = q := honly 1 ⟨by decide, by simp⟩
      omega
    exact ⟨h0, Nat.mul_mod_left q known, (Nat.mul_div_cancel q (Nat.pos_of_ne_zero h0)).symm⟩
  · rintro ⟨h0, hd, rfl⟩
    have hle : n / known ≤ n := Nat.div_le_self n known
    refine ⟨⟨by omega, Nat.div_mul_cancel (Nat.dvd_of_mod_eq_zero hd)⟩, ?_⟩
    rintro q' ⟨-, rfl⟩
    exact (Nat.mul_div_cancel q' (Nat.pos_of_ne_zero h0)).symm

theorem determined_of_one_free (hw : ∀ k, Axis.fixed k ∈ axes → k < countBound)
    (hf : freeAxes axes = 1) (hn : n < countBound) :
    Determined axes n s ↔ (fixedAxes axes).prod ≠ 0 ∧ n % (fixedAxes axes).prod = 0 ∧
      s = axes.map (Axis.fill (n / (fixedAxes axes).prod)) := by
  constructor
  · rintro ⟨hs, honly⟩
    obtain ⟨q, rfl⟩ := hs.fits.exists_map_fill hf
    have honly' : ∀ q', q' < countBound ∧ q' * (fixedAxes axes).prod = n → q' = q := by
      intro q' hq'
      exact map_fill_inj hf (honly _ ((candidate_map_fill_iff hw hf).mpr hq'))
    obtain ⟨h0, hd, rfl⟩ :=
      (only_factor_iff hn).mp ⟨(candidate_map_fill_iff hw hf).mp hs, honly'⟩
    exact ⟨h0, hd, rfl⟩
  · rintro ⟨h0, hd, rfl⟩
    obtain ⟨hq, honly⟩ := (only_factor_iff hn).mpr ⟨h0, hd, rfl⟩
    refine ⟨(candidate_map_fill_iff hw hf).mpr hq, fun s' hs' => ?_⟩
    obtain ⟨q', rfl⟩ := hs'.fits.exists_map_fill hf
    rw [honly q' ((candidate_map_fill_iff hw hf).mp hs')]

/-! ## Outcomes -/

/-- **With at most one free axis** resolving succeeds just where the shape is determined. -/
theorem resolve_eq_ok_iff_determined (hc : current.count? = some n)
    (hk : (fixedAxes axes).count? = some known)
    (hw : ∀ k, Axis.fixed k ∈ axes → k < countBound) (hf : freeAxes axes ≤ 1) :
    resolve axes current = .ok s ↔ Determined axes n s := by
  obtain rfl := prod_of_count? hk
  rcases Nat.le_one_iff_eq_zero_or_eq_one.mp hf with hf | hf
  · rw [determined_of_no_free hw hf, resolve_of_no_free hc hk hf]
    by_cases he : (fixedAxes axes).prod = n
    · simp [he, eq_comm]
    · simp [he]
  · rw [determined_of_one_free hw hf (count?_lt hc), resolve_of_one_free hc hk hf]
    by_cases hn : (fixedAxes axes).prod = 0 ∨ n % (fixedAxes axes).prod ≠ 0
    · rw [if_pos hn]
      constructor
      · rintro ⟨⟩
      · rintro ⟨h0, hd, -⟩
        exact (hn.elim h0 fun hm => hm hd).elim
    · rw [if_neg hn, Except.ok.injEq]
      obtain ⟨h0, hd⟩ := not_or.mp hn
      simp [h0, not_not.mp hd, eq_comm]

/-- **With more free axes** an array keeps its shape, if that has the declared axes. -/
theorem resolve_eq_ok_iff_fits (hc : current.count? = some n)
    (hk : (fixedAxes axes).count? = some known) (hf : 2 ≤ freeAxes axes) :
    resolve axes current = .ok s ↔ Fits axes current ∧ s = current := by
  constructor
  · intro h
    have hs := fits_of_resolve h
    obtain ⟨_, _, -, -, ⟨hf', -, -⟩ | ⟨hf', -, -, -⟩ | ⟨-, -, -, rfl⟩⟩ := resolve_eq_ok h
    · omega
    · omega
    · exact ⟨hs, rfl⟩
  · rintro ⟨hs, rfl⟩
    unfold resolve
    rw [hc, hk]
    dsimp only
    split
    · omega
    · omega
    · rw [if_neg (not_not.mpr hs.1.symm), hs.disagreement?_eq_none]

/-! ## Shapes that have the declared axes already -/

/-- One axis is free, and beside a fixed axis of length zero any length would do for it. -/
def Ambiguous (axes : List Axis) : Prop := freeAxes axes = 1 ∧ Axis.fixed 0 ∈ axes

instance (axes : List Axis) : Decidable (Ambiguous axes) := inferInstanceAs (Decidable (_ ∧ _))

theorem prod_fixedAxes_eq_zero_iff : (fixedAxes axes).prod = 0 ↔ Axis.fixed 0 ∈ axes := by
  rw [List.prod_eq_zero_iff, mem_fixedAxes_iff]

/-- **A shape that has the declared axes is resolved to itself**, unless these are ambiguous: then
the length of the free axis is not taken from the shape at hand. -/
theorem resolve_of_fits (hc : s.count? = some n) (hk : (fixedAxes axes).count? ≠ none)
    (hs : Fits axes s) :
    resolve axes s = if Ambiguous axes then .error (.shapeMismatch (.axes axes) s (.size 0 axes))
      else .ok s := by
  obtain ⟨known, hk⟩ := Option.ne_none_iff_exists'.mp hk
  obtain rfl := prod_of_count? hc
  obtain rfl := prod_of_count? hk
  by_cases hf : freeAxes axes = 1
  · obtain ⟨q, hq⟩ := hs.exists_map_fill hf
    have hn : s.prod = q * (fixedAxes axes).prod := by
      rw [hq, prod_map_fill, hf, Nat.pow_one]
    rw [resolve_of_one_free hc hk hf]
    by_cases h0 : (fixedAxes axes).prod = 0
    · have hzero : s.prod = 0 := by rw [hn, h0, Nat.mul_zero]
      have ha : Ambiguous axes := ⟨hf, prod_fixedAxes_eq_zero_iff.mp h0⟩
      rw [if_pos (Or.inl h0), if_pos ha, hzero]
    · have ha : ¬ Ambiguous axes := fun ha => h0 (prod_fixedAxes_eq_zero_iff.mpr ha.2)
      have hd : s.prod % (fixedAxes axes).prod = 0 := by rw [hn, Nat.mul_mod_left]
      rw [if_neg (not_or.mpr ⟨h0, not_not.mpr hd⟩), if_neg ha, hn,
        Nat.mul_div_cancel q (Nat.pos_of_ne_zero h0), ← hq]
  · rw [if_neg fun ha => hf ha.1]
    by_cases hf' : freeAxes axes = 0
    · have he := hs.eq_fixedAxes hf'
      rw [resolve_of_no_free hc hk hf', ← he, if_pos rfl]
    · exact (resolve_eq_ok_iff_fits hc hk (by omega)).mpr ⟨hs, rfl⟩

/-! ## No division by zero -/

/-- Division, trapped where the divisor is zero. -/
def div? (a b : Nat) : Option Nat := if b = 0 then none else some (a / b)

/-- The remainder of a division, trapped where the divisor is zero. -/
def mod? (a b : Nat) : Option Nat := if b = 0 then none else some (a % b)

/-- `resolve` with its divisions trapped. -/
def resolve? (axes : List Axis) (current : Shape) : Option (Except Fault Shape) :=
  let refuse (reason : Misfit) : Except Fault Shape :=
    .error (.shapeMismatch (.axes axes) current reason)
  match current.count?, (fixedAxes axes).count? with
  | none, _ => some (refuse .uncountableArray)
  | some _, none => some (refuse .uncountableRequest)
  | some count, some known =>
    match freeAxes axes with
    | 0 => some (if known = count then .ok (fixedAxes axes) else refuse (.size count axes))
    | 1 =>
      -- the remainder is taken only where the divisor has been found not to be zero
      if known = 0 then some (refuse (.size count axes))
      else do
        let rest ← mod? count known
        if rest ≠ 0 then pure (refuse (.size count axes))
        else do
          let inferred ← div? count known
          pure (.ok (axes.map (Axis.fill inferred)))
    | _ =>
      if axes.length ≠ current.length then some (refuse (.rank axes.length current.length))
      else
        match disagreement? 0 axes current with
        | some (index, actual, expected) => some (refuse (.axis index actual expected))
        | none => some (.ok current)

/-- **No division traps.** -/
theorem resolve?_eq_some (axes : List Axis) (current : Shape) :
    resolve? axes current = some (resolve axes current) := by
  unfold resolve? resolve
  rcases current.count? with _ | count
  · rfl
  rcases (fixedAxes axes).count? with _ | known
  · rfl
  rcases freeAxes axes with _ | _ | free
  · rfl
  · by_cases h0 : known = 0
    · simp [h0]
    · by_cases hd : count % known = 0
      · simp [mod?, div?, h0, hd]
      · simp [mod?, h0, hd]
  · by_cases hl : axes.length = current.length
    · rcases disagreement? 0 axes current with _ | ⟨index, actual, expected⟩
      · simp [hl]
      · simp [hl]
    · simp [hl]

/-- **Resolving is sound and infers just what is determined.** A resolved shape has the declared
axes, and counts what the shape at hand counts without any product of leading axes reaching the
bound. If the fixed axes can be counted, it succeeds with at most one free axis exactly if one shape
alone has the declared axes and so many elements, and gives that shape; with more free axes exactly
if the shape at hand has the declared axes, and gives that one. Every refusal names the axes asked
for and the shape at hand, and nothing is divided by zero. All axes are of 64 bits. -/
theorem resolve_infers (hc : current.count? = some n)
    (hw : ∀ k, Axis.fixed k ∈ axes → k < countBound) :
    (∀ s, resolve axes current = .ok s → s.length = axes.length ∧
      (∀ i k : Nat, axes[i]? = some (.fixed k) → s[i]? = some k) ∧
      s.count? = some n ∧ ∀ p, p <+: s → p.prod < countBound) ∧
    (freeAxes axes ≤ 1 → (fixedAxes axes).count? ≠ none →
      ∀ s, resolve axes current = .ok s ↔
        Candidate axes n s ∧ ∀ s', Candidate axes n s' → s' = s) ∧
    (2 ≤ freeAxes axes → (fixedAxes axes).count? ≠ none →
      ∀ s, resolve axes current = .ok s ↔ Fits axes current ∧ s = current) ∧
    (∀ fault, resolve axes current = .error fault →
      ∃ reason, fault = .shapeMismatch (.axes axes) current reason) ∧
    resolve? axes current = some (resolve axes current) := by
  refine ⟨fun s hs => ?_, fun hf hk s => ?_, fun hf hk s => ?_, fun fault he => ?_,
    resolve?_eq_some axes current⟩
  · obtain ⟨hlen, hfix⟩ := fits_of_resolve hs
    have hcount : s.count? = some n := (count?_of_resolve hs).trans hc
    exact ⟨hlen, hfix, hcount, (count?_eq_some_iff.mp hcount).1⟩
  · obtain ⟨known, hk⟩ := Option.ne_none_iff_exists'.mp hk
    exact resolve_eq_ok_iff_determined hc hk hw hf
  · obtain ⟨known, hk⟩ := Option.ne_none_iff_exists'.mp hk
    exact resolve_eq_ok_iff_fits hc hk hf
  · obtain ⟨reason, hf, -⟩ := resolve_eq_error he
    exact ⟨reason, hf⟩

/-- In two rows, `2 ^ 33` elements are `2 ^ 32` to a row. -/
theorem resolve_infers_two_rows :
    Shape.count? [2 ^ 30, 8] = some (2 ^ 33) ∧
      (∀ k, Axis.fixed k ∈ [Axis.fixed 2, .any] → k < countBound) ∧
      Candidate [.fixed 2, .any] (2 ^ 33) [2, 2 ^ 32] ∧
      ∀ s', Candidate [.fixed 2, .any] (2 ^ 33) s' → s' = [2, 2 ^ 32] := by
  have hc : Shape.count? [2 ^ 30, 8] = some (2 ^ 33) := by decide
  have hw : ∀ k, Axis.fixed k ∈ [Axis.fixed 2, .any] → k < countBound := by
    intro k hk
    obtain rfl : k = 2 := by simpa using hk
    decide
  have hr : resolve [.fixed 2, .any] [2 ^ 30, 8] = .ok [2, 2 ^ 32] := by rfl
  exact ⟨hc, hw, ((resolve_infers hc hw).2.1 (by decide) (by decide) _).mp hr⟩

end ArrayContract.Shape
