import ArrayContract.Proofs.Argument.Idempotence
import ArrayContract.Proofs.Shape.Exact
import ArrayContract.Proofs.Shape.Infer
import ArrayContract.Proofs.Value.Obtainable

/-! # Arrays that have the declared shape already

An array whose shape has the declared axes is left as it is, by the shape step as well as by the
check of a declaration that leaves the element type open (`fitting_unchanged`). Two things can come
in the way, and both only where an axis is of length zero. A single free axis beside a fixed zero is
not read off the array, so that the declaration is refused (`Shape.Ambiguous`,
`fitting_refused_beside_zero`); and fixed axes that cannot be counted are refused
(`fitting_refused_uncountable`), so that the theorem asks that they can be. Without a zero among the
axes this is no condition (`Shape.count?_fixedAxes_of_fits`). -/

namespace ArrayContract

open Outcome

namespace Shape

variable {axes : List Axis} {s : Shape} {n : Nat}

theorem Fits.fixedAxes_sublist (h : Fits axes s) : (fixedAxes axes).Sublist s := by
  induction axes, s, h using Fits.induction with
  | nil => exact List.nil_sublist []
  | fixed n axes s _ ih =>
    rw [fixedAxes_fixed]
    exact ih.cons_cons n
  | any m axes s _ ih =>
    rw [fixedAxes_any]
    exact ih.cons m

/-- The fixed axes of an array with elements can be counted: their product is no greater than the
number of elements. -/
theorem count?_fixedAxes_of_fits (hc : s.count? = some n) (h0 : 0 ∉ s) (h : Fits axes s) :
    (fixedAxes axes).count? ≠ none := by
  have hsub := h.fixedAxes_sublist
  have h0' : 0 ∉ fixedAxes axes := fun hz => h0 (hsub.subset hz)
  have hpos := prod_pos_of_zero_not_mem h0
  have hlt : s.prod < countBound := prod_of_count? hc ▸ count?_lt hc
  have hle : (fixedAxes axes).prod ≤ s.prod := Nat.le_of_dvd hpos hsub.prod_dvd_prod
  have ho : ¬ (fixedAxes axes).Overruns := fun ho => h0' ho.1
  rw [count?_of_not_overruns ho, if_pos (by omega)]
  simp

end Shape

/-- The shape step refuses an array of the backend where resolving its shape does. -/
theorem Backend.convertShape_eq_error {b : Backend} {v : Value} {s : Shape} {axes : List Axis}
    {fault : Fault} (hv : v.representation = .native b) (hs : v.shape? = some s)
    (h : s.resolve axes = .error fault) : (b.convertShape v axes).result = .error fault := by
  rw [convertShape_of_native (toNative_of_native hv) hs, h, map_error]

variable {v : Value} {b : Backend} {s : Shape} {axes : List Axis}

/-- A counted array has a counted shape. -/
theorem Value.Counted.exists_count? (hv : v.Counted) (hs : v.shape? = some s) :
    ∃ n, s.count? = some n := by
  rcases v with a | t | _ | _ | _ | _ | _
  · obtain rfl := Option.some.inj hs
    exact ⟨_, hv⟩
  · obtain rfl := Option.some.inj hs
    exact ⟨_, hv⟩
  all_goals exact nomatch hs

/-- **An array that has the declared shape is left alone**, by a reshape and by the check of a
declaration of its backend that leaves the element type open. Where the array has an axis of length
zero, the fixed axes are to be ones that can be counted; of these, a single free axis beside a fixed
zero is refused, and nothing else. -/
theorem fitting_unchanged (hv : Obtainable v) (hb : v.representation = .native b)
    (hs : v.shape? = some s) (hfit : s.Fits axes)
    (hk : 0 ∈ s → (Shape.fixedAxes axes).count? ≠ none) :
    (∀ a, v = .dense a → (a.reshape axes).result =
      if Shape.Ambiguous axes then .error (.shapeMismatch (.axes axes) s (.size 0 axes))
      else .ok a) ∧
    (∀ t, v = .tensor t → (t.reshape axes).result =
      if Shape.Ambiguous axes then .error (.shapeMismatch (.axes axes) s (.size 0 axes))
      else .ok t) ∧
    ∀ spec : ArraySpec, spec.backend = b → spec.type = .any → spec.shape = .axes axes →
      (spec.check v).result =
        if Shape.Ambiguous axes then .error (.shapeMismatch (.axes axes) s (.size 0 axes))
        else .ok v := by
  obtain ⟨n, hc⟩ := hv.counted.exists_count? hs
  have hknown : (Shape.fixedAxes axes).count? ≠ none := by
    by_cases h0 : 0 ∈ s
    · exact hk h0
    · exact Shape.count?_fixedAxes_of_fits hc h0 hfit
  have hres := Shape.resolve_of_fits hc hknown hfit
  refine ⟨?_, ?_, ?_⟩
  · rintro a rfl
    obtain rfl : a.shape = s := Option.some.inj hs
    rw [DenseArray.result_reshape, hres]
    by_cases ha : Shape.Ambiguous axes
    · rw [if_pos ha, if_pos ha, map_error]
    · rw [if_neg ha, if_neg ha, map_ok]
  · rintro t rfl
    obtain rfl : t.shape = s := Option.some.inj hs
    rw [Tensor.result_reshape, hres]
    by_cases ha : Shape.Ambiguous axes
    · rw [if_pos ha, if_pos ha, map_error]
    · rw [if_neg ha, if_neg ha, map_ok]
  · rintro spec rfl ht hshape
    rw [ArraySpec.result_check, ArraySpec.result_checkType_any ht, bind_ok,
      ArraySpec.result_checkShape_axes hshape]
    by_cases ha : Shape.Ambiguous axes
    · rw [if_pos ha] at hres ⊢
      exact Backend.convertShape_eq_error hb hs hres
    · rw [if_neg ha] at hres ⊢
      exact Backend.convertShape_self hb hs hres

/-- With a second free axis the zero does no harm; and a tensor that has elements, one of them null,
keeps its shape beside a single free axis. -/
theorem fitting_unchanged_two_free :
    (Obtainable (.dense ⟨[2, 0, 3], .int32, []⟩) ∧
      Shape.Fits [.any, .fixed 0, .any] [2, 0, 3] ∧
      (Shape.fixedAxes [.any, .fixed 0, .any]).count? ≠ none ∧
      (ArraySpec.check { name := "x", shape := .axes [.any, .fixed 0, .any] }
        (.dense ⟨[2, 0, 3], .int32, []⟩)).result = .ok (.dense ⟨[2, 0, 3], .int32, []⟩)) ∧
    let t : Tensor := .ofCells [2, 3] .int16 [some 1, none, some 3, some 4, some 5, some 6]
    Obtainable (.tensor t) ∧ Shape.Fits [.any, .fixed 3] [2, 3] ∧
      (t.reshape [.any, .fixed 3]).result = .ok t ∧
      (ArraySpec.check { name := "x", shape := .axes [.any, .fixed 3], backend := .arrow }
        (.tensor t)).result = .ok (.tensor t) := by
  constructor
  · have ha : DenseArray.ofBuffer [2, 0, 3] ⟨.int32, []⟩ = .ok ⟨[2, 0, 3], .int32, []⟩ := by rfl
    have hv : Obtainable (.dense ⟨[2, 0, 3], .int32, []⟩) := .ofBuffer ha
    have hfit : Shape.Fits [.any, .fixed 0, .any] [2, 0, 3] := by
      simp [Shape.fits_cons, Shape.fits_nil]
    have hk : (Shape.fixedAxes [.any, .fixed 0, .any]).count? ≠ none := by decide
    obtain ⟨-, -, hcheck⟩ := fitting_unchanged (b := .host) hv rfl rfl hfit fun _ => hk
    exact ⟨hv, hfit, hk, hcheck _ rfl rfl rfl⟩
  · intro t
    have ht : Tensor.ofColumn [2, 3]
        (.ofElements .int16 [some 1, none, some 3, some 4, some 5, some 6]) = .ok t := by rfl
    have hv : Obtainable (.tensor t) := .ofColumn ht
    have hfit : Shape.Fits [.any, .fixed 3] [2, 3] := by simp [Shape.fits_cons, Shape.fits_nil]
    have h0 : (0 : Nat) ∉ [2, 3] := by decide
    obtain ⟨-, hreshape, hcheck⟩ :=
      fitting_unchanged (b := .arrow) hv rfl rfl hfit fun h => absurd h h0
    exact ⟨hv, hfit, hreshape t rfl, hcheck _ rfl rfl rfl⟩

/-- **The length of a free axis is not inferred beside a fixed zero**, not even for an array that
has the declared axes: every length would do for so many elements. -/
theorem fitting_refused_beside_zero :
    Obtainable (.dense ⟨[3, 0], .int32, []⟩) ∧ Shape.Fits [.any, .fixed 0] [3, 0] ∧
      (DenseArray.reshape ⟨[3, 0], .int32, []⟩ [.any, .fixed 0]).result =
        .error (.shapeMismatch (.axes [.any, .fixed 0]) [3, 0] (.size 0 [.any, .fixed 0])) := by
  have ha : DenseArray.ofBuffer [3, 0] ⟨.int32, []⟩ = .ok ⟨[3, 0], .int32, []⟩ := by rfl
  have hfit : Shape.Fits [.any, .fixed 0] [3, 0] := by
    simp [Shape.fits_cons, Shape.fits_nil]
  exact ⟨.ofBuffer ha, hfit, by rfl⟩

/-- **Fixed axes that cannot be counted are refused**, even by an array that has them, and so by an
array whose own axes are counted because one of them is of length zero. -/
theorem fitting_refused_uncountable (hv : Obtainable v) (hb : v.representation = .native b)
    (hs : v.shape? = some s) (hk : (Shape.fixedAxes axes).count? = none) {spec : ArraySpec}
    (hspec : spec.backend = b) (htype : spec.type = .any) (hshape : spec.shape = .axes axes) :
    (spec.check v).result = .error (.shapeMismatch (.axes axes) s .uncountableRequest) := by
  obtain ⟨n, hc⟩ := hv.counted.exists_count? hs
  have hres : s.resolve axes = .error (.shapeMismatch (.axes axes) s .uncountableRequest) := by
    rw [Shape.resolve, hc, hk]
  subst hspec
  rw [ArraySpec.result_check, ArraySpec.result_checkType_any htype, bind_ok,
    ArraySpec.result_checkShape_axes hshape]
  exact Backend.convertShape_eq_error hb hs hres

example : (ArraySpec.check { name := "x", shape := .axes [.fixed (2 ^ 63), .any, .fixed 2] }
    (.dense ⟨[2 ^ 63, 0, 2], .int32, []⟩)).result = .error (.shapeMismatch
      (.axes [.fixed (2 ^ 63), .any, .fixed 2]) [2 ^ 63, 0, 2] .uncountableRequest) := by cbv

end ArrayContract
