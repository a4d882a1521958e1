import ArrayContract.Proofs.Argument.Conformance
import ArrayContract.Proofs.Value.Native

/-! # Checking a checked value

A checked value is as declared already, so that checking it once more gives it back
(`check_of_check`): a cast to the type that an array has is no cast (`convertType_self`), and a
shape that declared axes are resolved to is resolved to itself (`convertShape_self`). A table is
not touched at all, so that every argument that has been checked can be checked again
(`check_idempotent`). -/

namespace ArrayContract

open Outcome

namespace Backend

variable {b : Backend} {v : Value}

/-- An array of a backend that has the element type asked for is left alone. -/
theorem convertType_self {t : ElementType} (hv : v.representation = .native b)
    (ht : v.type? = some t) : (b.convertType v (.of t)).result = .ok v := by
  rw [convertType_of_native (toNative_of_native hv), Value.castTo_self ht]

/-- An array of a backend whose shape is what the axes are resolved to is left alone. -/
theorem convertShape_self {axes : List Axis} {s : Shape} (hv : v.representation = .native b)
    (hs : v.shape? = some s) (h : s.resolve axes = .ok s) :
    (b.convertShape v axes).result = .ok v := by
  rw [convertShape_of_native (toNative_of_native hv) hs, h, map_ok, Value.withShape_self hs]

end Backend

namespace ArraySpec

variable {s : ArraySpec} {v w : Value}

/-- The type step leaves a value alone that is as declared. -/
theorem Conforms.checkType_self (h : s.Conforms v) : (s.checkType v).result = .ok v := by
  cases ht : s.type with
  | any => exact result_checkType_any ht v
  | of t =>
    rw [result_checkType_of ht]
    exact Backend.convertType_self (h.representation (Or.inl (by simp [ht]))) (h.type t ht)

/-- **Checking a checked value gives it back.** -/
theorem check_of_check (h : (s.check v).result = .ok w) : (s.check w).result = .ok w := by
  have hw := conforms_of_check h
  rw [result_check] at h ⊢
  rw [hw.checkType_self, bind_ok]
  obtain ⟨u, -, hu⟩ := bind_eq_ok.mp h
  cases hs : s.shape with
  | any => exact result_checkShape_any hs w
  | axes axes =>
    rw [result_checkShape_axes hs] at hu ⊢
    obtain ⟨hr, _, shape, hshape, hres⟩ := Backend.exists_resolve_of_convertShape hu
    exact Backend.convertShape_self hr hshape (Shape.resolve_of_resolve hres)

end ArraySpec

namespace ArgumentSpec

variable {spec : ArgumentSpec} {v w : Value}

/-- **A check is idempotent.** Whatever was passed and whatever is declared, what a check gives is
left by the same check exactly as it is, word by word and null by null. -/
theorem check_idempotent (h : (spec.check v).result = .ok w) : (spec.check w).result = .ok w := by
  rcases spec with s | t
  · exact ArraySpec.check_of_check h
  · -- a table is passed on whatever it is
    rfl

/-- Not a number, a null and a rounded fraction, cast and put into rows of two: the second check
has nothing to cast, and infers the number of rows from the shape that the first one gave. -/
theorem check_idempotent_rows :
    let spec : ArgumentSpec := .array
      { name := "x", type := .of .float32, shape := .axes [.any, .fixed 2], backend := .arrow }
    let v : Value := .tensor (.ofCells [4] .float64
      [some 0x7ff8000020000000, none, some 0x3fb999999999999a, some 0x8000000000000000])
    let w : Value := .tensor (.ofCells [2, 2] .float32
      [some 0x7fc00001, none, some 0x3dcccccd, some 0x80000000])
    (spec.check v).result = .ok w ∧ (spec.check w).result = .ok w := by
  intro spec v w
  have h : (spec.check v).result = .ok w := by rfl
  exact ⟨h, check_idempotent h⟩

end ArgumentSpec

end ArrayContract
