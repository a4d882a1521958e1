import ArrayContract.Proofs.Shape.Exact
import ArrayContract.Proofs.Value.Obtainable

/-! # Reshaping along a path

Dense arrays and tensors are reshaped in the same way: their shape is resolved, and the outcome is
put in the place of it (`ReshapedThrough`). So whatever is said of a path of reshapes is said once
for both, and comes down to the shapes: each step keeps the count (`exists_put_of_foldlM`), and with
at most one free axis nothing but the count decides about the next (`Shape.resolve_alike`). An array
at the end of a path is therefore reshaped like the one at its start, and back to it
(`reshape_path_independent`), also where it has no elements and axes of any length were passed on
the way. -/

namespace ArrayContract

open Outcome

namespace Shape

variable {axes : List Axis} {s s' : Shape} {n : Nat}

/-- **With at most one free axis** shapes that count alike are resolved to the same shape, or are
refused for the same reason. -/
theorem resolve_alike (h : s'.count? = s.count?) (hf : freeAxes axes ≤ 1) :
    (∃ r, resolve axes s = .ok r ∧ resolve axes s' = .ok r) ∨
    ∃ reason, resolve axes s = .error (.shapeMismatch (.axes axes) s reason) ∧
      resolve axes s' = .error (.shapeMismatch (.axes axes) s' reason) := by
  unfold resolve
  rw [h]
  rcases s.count? with _ | count
  · exact Or.inr ⟨_, rfl, rfl⟩
  rcases (fixedAxes axes).count? with _ | known
  · exact Or.inr ⟨_, rfl, rfl⟩
  rcases Nat.le_one_iff_eq_zero_or_eq_one.mp hf with hf | hf
  · rw [hf]
    by_cases he : known = count
    · simp [he]
    · simp [he]
  · rw [hf]
    by_cases hr : known = 0 ∨ count % known ≠ 0
    · simp [hr]
    · simp [hr]

/-- Axes that are all fixed are resolved to themselves, if they count as many elements as there
are. -/
theorem resolve_map_fixed (hs : s.count? = some n) (h : s'.count? = s.count?) :
    resolve (s.map .fixed) s' = .ok s := by
  have hk : (fixedAxes (s.map .fixed)).count? = some n := by rw [fixedAxes_map_fixed, hs]
  rw [resolve_of_no_free (h.trans hs) hk freeAxes_map_fixed, if_pos rfl, fixedAxes_map_fixed]

end Shape

/-! ## Arrays that are reshaped through their shape -/

/-- A reshape resolves the shape of an array and puts the outcome in its place, and leaves the rest
of the array alone. -/
structure ReshapedThrough {α : Type} (shape : α → Shape) (put : α → Shape → α)
    (reshape : α → List Axis → Audit α) : Prop where
  result : ∀ x axes, (reshape x axes).result = ((shape x).resolve axes).map (put x)
  shape_put : ∀ x s, shape (put x s) = s
  put_put : ∀ x s s', put (put x s) s' = put x s'
  put_shape : ∀ x, put x (shape x) = x

/-- An array is reshaped like another one, and back to that one: with at most one free axis both
become the same array, or both are refused alike. -/
structure Retraces {α : Type} (shape : α → Shape) (reshape : α → List Axis → Audit α)
    (x y : α) : Prop where
  onward : ∀ axes, Shape.freeAxes axes ≤ 1 →
    (∃ z, (reshape x axes).result = .ok z ∧ (reshape y axes).result = .ok z) ∨
    ∃ reason, (reshape x axes).result = .error (.shapeMismatch (.axes axes) (shape x) reason) ∧
      (reshape y axes).result = .error (.shapeMismatch (.axes axes) (shape y) reason)
  back : (reshape y ((shape x).map .fixed)).result = .ok x

section ReshapedThrough

variable {α : Type} {shape : α → Shape} {put : α → Shape → α}
  {reshape : α → List Axis → Audit α} {x y : α} (hr : ReshapedThrough shape put reshape)

include hr

/-- **A path of reshapes** leads to the same array in a shape that counts as many elements. By
induction on the path; each of its steps keeps the count. -/
theorem ReshapedThrough.exists_put_of_foldlM {path : List (List Axis)}
    (h : (path.foldlM reshape x).result = .ok y) :
    ∃ s, y = put x s ∧ s.count? = (shape x).count? := by
  induction path generalizing x with
  | nil =>
    obtain rfl : x = y := Except.ok.inj h
    exact ⟨shape x, (hr.put_shape x).symm, rfl⟩
  | cons axes path ih =>
    rw [List.foldlM_cons, Audit.result_bind] at h
    obtain ⟨x', hx', hy⟩ := bind_eq_ok.mp h
    rw [hr.result] at hx'
    obtain ⟨r, hres, rfl⟩ := map_eq_ok.mp hx'
    obtain ⟨s, hs, hc⟩ := ih hy
    refine ⟨s, hs.trans (hr.put_put x r s), ?_⟩
    calc s.count? = (shape (put x r)).count? := hc
      _ = r.count? := by rw [hr.shape_put]
      _ = (shape x).count? := Shape.count?_of_resolve hres

/-- The array at the end of a path retraces the one at its start. -/
theorem ReshapedThrough.retraces {n : Nat} (hn : (shape x).count? = some n)
    {path : List (List Axis)} (h : (path.foldlM reshape x).result = .ok y) :
    Retraces shape reshape x y := by
  obtain ⟨s, rfl, hs⟩ := hr.exists_put_of_foldlM h
  have hput : put (put x s) = put x := funext (hr.put_put x s)
  refine ⟨fun axes hf => ?_, ?_⟩
  · rw [hr.result, hr.result, hr.shape_put, hput]
    rcases Shape.resolve_alike hs hf with ⟨r, hx, hy⟩ | ⟨reason, hx, hy⟩
    · rw [hx, hy]
      exact Or.inl ⟨put x r, rfl, rfl⟩
    · rw [hx, hy]
      exact Or.inr ⟨reason, rfl, rfl⟩
  · rw [hr.result, hr.shape_put, Shape.resolve_map_fixed hn hs, map_ok, hput, hr.put_shape]

end ReshapedThrough

theorem DenseArray.reshapedThrough :
    ReshapedThrough DenseArray.shape (fun a s => { a with shape := s }) DenseArray.reshape where
  result := DenseArray.result_reshape
  shape_put _ _ := rfl
  put_put _ _ _ := rfl
  put_shape _ := rfl

theorem Tensor.reshapedThrough :
    ReshapedThrough Tensor.shape (fun t s => { t with shape := s }) Tensor.reshape where
  result := Tensor.result_reshape
  shape_put _ _ := rfl
  put_put _ _ _ := rfl
  put_shape _ := rfl

/-- **Reshaping does not depend on the path, and can be undone.** Where reshapes lead from one array
to another, axes of which at most one is free make the same array of both, or are refused for the
same reason; and the axes of the first array, all of them fixed, give it back. -/
theorem reshape_path_independent :
    (∀ (a a' : DenseArray) (path : List (List Axis)), Obtainable (.dense a) →
      (path.foldlM DenseArray.reshape a).result = .ok a' →
      Retraces DenseArray.shape DenseArray.reshape a a') ∧
    (∀ (t t' : Tensor) (path : List (List Axis)), Obtainable (.tensor t) →
      (path.foldlM Tensor.reshape t).result = .ok t' →
      Retraces Tensor.shape Tensor.reshape t t') := by
  constructor
  · intro a a' path ha h
    have hc : a.shape.count? = some a.length := ha.counted
    exact DenseArray.reshapedThrough.retraces hc h
  · intro t t' path ht h
    have hc : t.shape.count? = some t.length := ht.counted
    exact Tensor.reshapedThrough.retraces hc h

/-- Without elements the path may go over axes of any length, and over free ones; a scalar goes over
any number of axes and back to none, and its null goes with it. -/
theorem reshape_path_independent_degenerate :
    let a : DenseArray := ⟨[2 ^ 40, 0, 3], .float32, []⟩
    let a' : DenseArray := ⟨[0], .float32, []⟩
    let t : Tensor := .ofCells [] .int32 [none]
    let t' : Tensor := .ofCells [1, 1] .int32 [none]
    (Obtainable (.dense a) ∧
      ([[.fixed (2 ^ 63), .any], [.any, .any], [.fixed 0]].foldlM DenseArray.reshape a).result =
        .ok a' ∧
      Retraces DenseArray.shape DenseArray.reshape a a' ∧
      (a'.reshape [.fixed (2 ^ 40), .fixed 0, .fixed 3]).result = .ok a) ∧
    Obtainable (.tensor t) ∧
      ([[.any], [.fixed 1, .any]].foldlM Tensor.reshape t).result = .ok t' ∧
      Retraces Tensor.shape Tensor.reshape t t' ∧
      (t'.reshape []).result = .ok t := by
  intro a a' t t'
  have hb : DenseArray.ofBuffer [2 ^ 40, 0, 3] ⟨.float32, []⟩ = .ok a := by rfl
  have ha : Obtainable (.dense a) := .ofBuffer hb
  have hp : ([[.fixed (2 ^ 63), .any], [.any, .any], [.fixed 0]].foldlM
      DenseArray.reshape a).result = .ok a' := by rfl
  have hdense := reshape_path_independent.1 a a' _ ha hp
  have hc : Tensor.ofColumn [] (.ofElements .int32 [none]) = .ok t := by rfl
  have ht : Obtainable (.tensor t) := .ofColumn hc
  have hq : ([[.any], [.fixed 1, .any]].foldlM Tensor.reshape t).result = .ok t' := by rfl
  have htensor := reshape_path_independent.2 t t' _ ht hq
  exact ⟨⟨ha, hp, hdense, hdense.back⟩, ht, hq, htensor, htensor.back⟩

end ArrayContract
