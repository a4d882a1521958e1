import ArrayContract.Argument.ArraySpec
import ArrayContract.Proofs.Value.Native

/-! # The order of the steps does not matter

A check brings a value to the declared element type and then to the declared shape. The other order
gives the same (`check_steps_commute`): whichever step comes first brings the value to the backend,
with the same refusal if it has none, the cast leaves the shape that is resolved as it is, and no
step fails on account of the other. Where a step has nothing declared it does nothing at all, and
the other one is left alone with the value. -/

namespace ArrayContract

open Outcome

/-- The conversions of a backend commute, if there is a type to cast to. -/
theorem Backend.convertType_convertShape_comm (b : Backend) (v : Value) (t : ElementType)
    (axes : List Axis) :
    ((b.convertType v (.of t)).result.bind fun w => (b.convertShape w axes).result) =
      (b.convertShape v axes).result.bind fun w => (b.convertType w (.of t)).result := by
  cases h : b.toNative v with
  | error fault =>
    -- both orders stop at the representation
    rw [convertType_of_refused h, convertShape_of_refused h, bind_error, bind_error]
  | ok u =>
    obtain ⟨hu, s, hs, -⟩ := native_of_toNative h
    have hcast : b.toNative (u.castTo t) = .ok (u.castTo t) :=
      toNative_of_native ((u.representation_castTo t).trans hu)
    have hshape : (u.castTo t).shape? = some s := (u.shape?_castTo t).trans hs
    rw [convertType_of_native h, bind_ok, convertShape_of_native hcast hshape,
      convertShape_of_native h hs]
    cases s.resolve axes with
    | error fault => rfl
    | ok r =>
      have hread : b.toNative (u.withShape r) = .ok (u.withShape r) :=
        toNative_of_native ((u.representation_withShape r).trans hu)
      rw [map_ok, map_ok, bind_ok, convertType_of_native hread, Value.castTo_withShape]

/-- **The type step and the shape step commute**, on every value and for every declaration of an
array: either order gives the same array, or the same fault with the same data. -/
theorem ArraySpec.check_steps_commute (s : ArraySpec) (v : Value) :
    (s.checkType v >>= s.checkShape).result = (s.checkShape v >>= s.checkType).result := by
  rw [Audit.result_bind, Audit.result_bind]
  cases ht : s.type with
  | any =>
    -- nothing to cast to: the type step is no step
    have htype : ∀ w, (s.checkType w).result = .ok w := result_checkType_any ht
    rw [htype v, bind_ok]
    cases (s.checkShape v).result with
    | error fault => rfl
    | ok w => rw [bind_ok, htype w]
  | of t =>
    have htype : ∀ w, (s.checkType w).result = (s.backend.convertType w (.of t)).result :=
      result_checkType_of ht
    cases hs : s.shape with
    | any =>
      -- no axes: the shape step is no step
      have hshape : ∀ w, (s.checkShape w).result = .ok w := result_checkShape_any hs
      rw [hshape v, bind_ok]
      cases (s.checkType v).result with
      | error fault => rfl
      | ok w => rw [bind_ok, hshape w]
    | axes axes =>
      have hshape : ∀ w, (s.checkShape w).result = (s.backend.convertShape w axes).result :=
        result_checkShape_axes hs
      simp only [htype, hshape]
      exact s.backend.convertType_convertShape_comm v t axes

end ArrayContract
