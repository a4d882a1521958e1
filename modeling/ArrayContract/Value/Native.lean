import ArrayContract.Nested.Rectangle
import ArrayContract.Value.Basic

/-! # Bringing values to a backend

Each backend takes a value into its own representation (`toNative`), and from there to an element
type (`convertType`) or to declared axes (`convertShape`). Both accept each other's arrays and
nested sequences, and refuse every other value; the host backend also refuses nulls. -/

namespace ArrayContract

namespace Value

/-- A value as a dense array. -/
def toDense : Value → Except Fault DenseArray
  | dense a => .ok a
  | nested v => v.toDense
  | tensor t => t.toDense
  | v => .error (.unsupportedRepresentation (.native .host) (.representation v.representation))

/-- A value as a tensor. -/
def toTensor : Value → Except Fault Tensor
  | tensor t => .ok t
  | dense a => .ok (.ofDense a)
  | nested v => v.toDense.map .ofDense
  | v => .error (.unsupportedRepresentation (.native .arrow) (.representation v.representation))

end Value

namespace Backend

/-- A value in the backend's representation, its elements and shape unchanged. -/
def toNative : Backend → Value → Except Fault Value
  | host, v => v.toDense.map .dense
  | arrow, v => v.toTensor.map .tensor

/-- A value in the backend's representation with its elements cast. -/
def convertType (b : Backend) (v : Value) (target : DeclaredType) : Audit Value :=
  match b with
  | host => do
    let a ← v.toDense
    let a ← a.cast target
    pure (.dense a)
  | arrow => do
    let t ← v.toTensor
    let t ← t.cast target
    pure (.tensor t)

/-- A value in the backend's representation with the declared axes. -/
def convertShape (b : Backend) (v : Value) (axes : List Axis) : Audit Value :=
  match b with
  | host => do
    let a ← v.toDense
    let a ← a.reshape axes
    pure (.dense a)
  | arrow => do
    let t ← v.toTensor
    let t ← t.reshape axes
    pure (.tensor t)

@[simp] theorem result_convertType_host (v : Value) (target : DeclaredType) :
    (host.convertType v target).result =
      v.toDense.bind fun a => (a.cast target).result.map .dense := by
  cases h : v.toDense <;> simp [convertType, h]

@[simp] theorem result_convertType_arrow (v : Value) (target : DeclaredType) :
    (arrow.convertType v target).result =
      v.toTensor.bind fun t => (t.cast target).result.map .tensor := by
  cases h : v.toTensor <;> simp [convertType, h]

@[simp] theorem result_convertShape_host (v : Value) (axes : List Axis) :
    (host.convertShape v axes).result =
      v.toDense.bind fun a => (a.reshape axes).result.map .dense := by
  cases h : v.toDense <;> simp [convertShape, h]

@[simp] theorem result_convertShape_arrow (v : Value) (axes : List Axis) :
    (arrow.convertShape v axes).result =
      v.toTensor.bind fun t => (t.reshape axes).result.map .tensor := by
  cases h : v.toTensor <;> simp [convertShape, h]

end Backend

end ArrayContract
