import ArrayContract.Proofs.Shape.Count
import ArrayContract.Shape.Resolve

/-! # What resolving a declared shape gives

`resolve_eq_ok` lists the ways in which `resolve` succeeds, and `resolve_eq_error` says that it
fails with a misfit of the array at hand, which is `uncountableArray` only where the array cannot be
counted. The resolved shape has the declared axes (`Fits`, `fits_of_resolve`) and counts as many
elements as before (`count?_of_resolve`), without any product of leading axes reaching the bound; so
it is resolved to itself (`resolve_of_resolve`). -/

namespace ArrayContract.Shape

variable {axes : List Axis} {current s : Shape} {count known : Nat}

/-- A shape has the declared axes: as many, and the fixed ones of their lengths. -/
def Fits (axes : List Axis) (s : Shape) : Prop :=
  s.length = axes.length ∧ ∀ i n : Nat, axes[i]? = some (.fixed n) → s[i]? = some n

theorem fits_nil : Fits [] [] := ⟨rfl, by simp⟩

theorem fits_cons {a : Axis} {m : Nat} :
    Fits (a :: axes) (m :: s) ↔ (∀ n, a = .fixed n → m = n) ∧ Fits axes s := by
  unfold Fits
  constructor
  · rintro ⟨hl, h⟩
    refine ⟨fun n ha => ?_, by simpa using hl, fun i n hi => ?_⟩
    · simpa using h 0 n (by simpa using ha)
    · simpa using h (i + 1) n (by simpa using hi)
  · rintro ⟨ha, hl, h⟩
    refine ⟨by simpa using hl, fun i n hi => ?_⟩
    rcases i with _ | i
    · simpa using ha n (by simpa using hi)
    · simpa using h i n (by simpa using hi)

/-- A shape that has the declared axes, taken axis by axis: beside a fixed axis stands its length,
beside a free one any. -/
@[elab_as_elim]
theorem Fits.induction {motive : ∀ axes s, Fits axes s → Prop} (nil : motive [] [] fits_nil)
    (fixed : ∀ n axes s (h : Fits axes s), motive axes s h →
      motive (.fixed n :: axes) (n :: s) (fits_cons.mpr ⟨fun _ => Axis.fixed.inj, h⟩))
    (any : ∀ m axes s (h : Fits axes s), motive axes s h →
      motive (.any :: axes) (m :: s) (fits_cons.mpr ⟨nofun, h⟩))
    (axes : List Axis) (s : Shape) (h : Fits axes s) : motive axes s h := by
  induction axes generalizing s with
  | nil =>
    obtain rfl := List.eq_nil_of_length_eq_zero h.1
    exact nil
  | cons a axes ih =>
    obtain ⟨m, s, rfl⟩ := List.exists_cons_of_length_eq_add_one h.1
    obtain ⟨ha, hs⟩ := fits_cons.mp h
    rcases a with n | _
    · obtain rfl := ha n rfl
      exact fixed m axes s hs (ih s hs)
    · exact any m axes s hs (ih s hs)

/-! ## Fixed and free axes -/

/-- Without free axes the fixed ones are all. -/
theorem fits_fixedAxes (h : freeAxes axes = 0) : Fits axes (fixedAxes axes) := by
  induction axes with
  | nil => exact ⟨rfl, by simp⟩
  | cons a axes ih =>
    rcases a with n | _
    · rw [fixedAxes_fixed, fits_cons]
      exact ⟨fun m hm => Axis.fixed.inj hm, ih (by simpa using h)⟩
    · simp at h

theorem fits_map_fill (q : Nat) : Fits axes (axes.map (Axis.fill q)) := by
  refine ⟨by simp, fun i n hi => ?_⟩
  rw [List.getElem?_map, hi]
  rfl

theorem fits_of_disagreement? {k : Nat} (hl : axes.length = s.length)
    (h : disagreement? k axes s = none) : Fits axes s := by
  induction axes generalizing k s with
  | nil => exact ⟨by simpa using hl.symm, by simp⟩
  | cons a axes ih =>
    obtain ⟨m, s, rfl⟩ := List.exists_cons_of_length_eq_add_one hl.symm
    rw [fits_cons]
    rcases a with n | _
    · simp only [disagreement?] at h
      split at h
      · next he =>
        refine ⟨fun n' hn' => ?_, ih (by simpa using hl) h⟩
        rw [← Axis.fixed.inj hn']
        exact he.symm
      · exact nomatch h
    · exact ⟨by simp, ih (by simpa using hl) h⟩

/-- The product of the filled axes: free ones count as often as they occur. -/
theorem prod_map_fill (q : Nat) :
    (axes.map (Axis.fill q)).prod = q ^ freeAxes axes * (fixedAxes axes).prod := by
  induction axes with
  | nil => simp [freeAxes, fixedAxes]
  | cons a axes ih =>
    rw [List.map_cons, List.prod_cons, ih]
    rcases a with n | _
    · rw [freeAxes_fixed, fixedAxes_fixed, List.prod_cons]
      exact Nat.mul_left_comm _ _ _
    · rw [freeAxes_any, fixedAxes_any, Nat.pow_succ', Nat.mul_assoc]
      rfl

/-- The product of leading axes divides that of all. -/
theorem prod_dvd_of_prefix {p : Shape} (h : p <+: s) : p.prod ∣ s.prod := by
  obtain ⟨t, rfl⟩ := h
  rw [List.prod_append]
  exact Nat.dvd_mul_right _ _

/-- Filling the single free axis with what the others leave of a count gives a shape of that count.
The product of the fixed axes is not zero, so no leading axes multiply up beyond both it and the
count. -/
theorem count?_map_fill (hc : count < countBound)
    (hk : (fixedAxes axes).count? = some known) (hf : freeAxes axes = 1) (h0 : known ≠ 0)
    (hd : count % known = 0) :
    Shape.count? (axes.map (Axis.fill (count / known))) = some count := by
  have hkc : count / known * known = count := Nat.div_mul_cancel (Nat.dvd_of_mod_eq_zero hd)
  have hp := prod_of_count? hk
  rw [count?_eq_some_iff]
  refine ⟨fun p hpre => ?_, by rw [prod_map_fill, hf, hp, Nat.pow_one, hkc]⟩
  obtain ⟨as, has, rfl⟩ : ∃ as, as <+: axes ∧ p = as.map (Axis.fill (count / known)) := by
    rw [List.prefix_iff_eq_take, ← List.map_take] at hpre
    exact ⟨_, List.take_prefix _ _, hpre⟩
  have hle : (fixedAxes as).prod ≤ known := by
    have := prod_dvd_of_prefix (has.filterMap Axis.length?)
    rw [show (List.filterMap Axis.length? axes).prod = known from hp] at this
    exact Nat.le_of_dvd (Nat.pos_of_ne_zero h0) this
  have hfree : freeAxes as ≤ 1 := hf ▸ has.sublist.countP_le
  rw [prod_map_fill]
  rcases Nat.le_one_iff_eq_zero_or_eq_one.mp hfree with h | h
  · rw [h, Nat.pow_zero, Nat.one_mul]
    exact lt_of_le_of_lt hle (count?_lt hk)
  · rw [h, Nat.pow_one]
    exact lt_of_le_of_lt (Nat.mul_le_mul_left _ hle) (by rwa [hkc])

/-! ## Outcomes -/

theorem resolve_of_no_free (hc : current.count? = some count)
    (hk : (fixedAxes axes).count? = some known) (hf : freeAxes axes = 0) :
    resolve axes current = if known = count then .ok (fixedAxes axes)
      else .error (.shapeMismatch (.axes axes) current (.size count axes)) := by
  unfold resolve
  rw [hc, hk, hf]
  rfl

theorem resolve_of_one_free (hc : current.count? = some count)
    (hk : (fixedAxes axes).count? = some known) (hf : freeAxes axes = 1) :
    resolve axes current = if known = 0 ∨ count % known ≠ 0
      then .error (.shapeMismatch (.axes axes) current (.size count axes))
      else .ok (axes.map (Axis.fill (count / known))) := by
  unfold resolve
  rw [hc, hk, hf]
  rfl

/-- **The ways to succeed**: no free axis and equal sizes, one free axis that the others divide, or
more free axes and a shape that has the declared ones already. -/
theorem resolve_eq_ok (h : resolve axes current = .ok s) :
    ∃ count known, current.count? = some count ∧ (fixedAxes axes).count? = some known ∧
      ((freeAxes axes = 0 ∧ known = count ∧ s = fixedAxes axes) ∨
        (freeAxes axes = 1 ∧ known ≠ 0 ∧ count % known = 0 ∧
          s = axes.map (Axis.fill (count / known))) ∨
        (2 ≤ freeAxes axes ∧ axes.length = current.length ∧
          disagreement? 0 axes current = none ∧ s = current)) := by
  unfold resolve at h
  split at h
  · exact nomatch h
  · exact nomatch h
  · next count known hc hk =>
    refine ⟨count, known, hc, hk, ?_⟩
    split at h
    · next hf =>
      split at h
      · next he => exact Or.inl ⟨hf, he, (Except.ok.inj h).symm⟩
      · exact nomatch h
    · next hf =>
      split at h
      · exact nomatch h
      · next hn =>
        obtain ⟨h0, hd⟩ := not_or.mp hn
        exact Or.inr (Or.inl ⟨hf, h0, not_not.mp hd, (Except.ok.inj h).symm⟩)
    · next h0 h1 =>
      have h2 : 2 ≤ freeAxes axes := (Nat.two_le_iff _).mpr ⟨h0, h1⟩
      split at h
      · exact nomatch h
      · next hl =>
        split at h
        · exact nomatch h
        · next hd => exact Or.inr (Or.inr ⟨h2, not_not.mp hl, hd, (Except.ok.inj h).symm⟩)

/-- A refusal names the axes asked for, the shape at hand and a reason, which is that the array
cannot be counted only where that is so. -/
theorem resolve_eq_error {fault : Fault} (h : resolve axes current = .error fault) :
    ∃ reason, fault = .shapeMismatch (.axes axes) current reason ∧
      (reason = .uncountableArray → current.count? = none) := by
  unfold resolve at h
  split at h
  · next hc => exact ⟨_, (Except.error.inj h).symm, fun _ => hc⟩
  · exact ⟨_, (Except.error.inj h).symm, nofun⟩
  · split at h
    · split at h
      · exact nomatch h
      · exact ⟨_, (Except.error.inj h).symm, nofun⟩
    · split at h
      · exact ⟨_, (Except.error.inj h).symm, nofun⟩
      · exact nomatch h
    · split at h
      · exact ⟨_, (Except.error.inj h).symm, nofun⟩
      · split at h
        · exact ⟨_, (Except.error.inj h).symm, nofun⟩
        · exact nomatch h

/-- **A resolved shape has the declared axes.** -/
theorem fits_of_resolve (h : resolve axes current = .ok s) : Fits axes s := by
  obtain ⟨_, _, -, -, ⟨hf, -, rfl⟩ | ⟨-, -, -, rfl⟩ | ⟨-, hl, hd, rfl⟩⟩ := resolve_eq_ok h
  · exact fits_fixedAxes hf
  · exact fits_map_fill _
  · exact fits_of_disagreement? hl hd

/-- **A resolved shape counts the same elements.** -/
theorem count?_of_resolve (h : resolve axes current = .ok s) : s.count? = current.count? := by
  obtain ⟨count, known, hc, hk, ⟨-, rfl, rfl⟩ | ⟨hf, h0, hd, rfl⟩ | ⟨-, -, -, rfl⟩⟩ :=
    resolve_eq_ok h
  · rw [hk, hc]
  · rw [hc, count?_map_fill (count?_lt hc) hk hf h0 hd]
  · rfl

/-- **A resolved shape is resolved to itself.** It counts what the shape before it counted, so each
way to succeed is open to it again. -/
theorem resolve_of_resolve (h : resolve axes current = .ok s) : resolve axes s = .ok s := by
  have hs := count?_of_resolve h
  obtain ⟨count, known, hc, hk, ⟨hf, rfl, rfl⟩ | ⟨hf, h0, hd, rfl⟩ | ⟨-, -, -, rfl⟩⟩ :=
    resolve_eq_ok h
  · rw [resolve_of_no_free hk hk hf, if_pos rfl]
  · have hn : ¬ (known = 0 ∨ count % known ≠ 0) := not_or.mpr ⟨h0, not_not.mpr hd⟩
    rw [resolve_of_one_free (hs.trans hc) hk hf, if_neg hn]
  · -- with several free axes the shape is the one at hand
    exact h

end ArrayContract.Shape
