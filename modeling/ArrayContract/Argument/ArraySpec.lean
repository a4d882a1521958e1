import ArrayContract.Catalog.Entry
import ArrayContract.Value.Native

/-! # Declared arrays

An `ArraySpec` declares an argument that is one array. `check` brings a value to the declared
element type and then to the declared shape; where the declaration leaves both open the value is not
touched, not even its representation. -/

namespace ArrayContract

/-- The declaration of an array argument. -/
structure ArraySpec where
  name : String
  nullable : Bool := false
  type : DeclaredType := .any
  shape : ShapePattern := .any
  backend : Backend := .host
  deriving DecidableEq

namespace ArraySpec

def logicalType (_ : ArraySpec) : LogicalType := .ndArray

/-- The catalog's record of the argument. -/
def entry (s : ArraySpec) (isInput : Bool) : CatalogEntry where
  name := s.name
  logicalType := s.logicalType
  nullable := s.nullable
  type := s.type
  shape := s.shape
  isInput := isInput

/-- Brings a value to the declared element type. -/
def checkType (s : ArraySpec) (v : Value) : Audit Value :=
  match s.type with
  | .any => pure v
  | .of t => do
    Audit.report (.convertingType s.name (.of t) s.backend)
    s.backend.convertType v (.of t)

/-- Brings a value to the declared shape. -/
def checkShape (s : ArraySpec) (v : Value) : Audit Value :=
  match s.shape with
  | .any => pure v
  | .axes axes => do
    Audit.report (.convertingShape s.name (.axes axes) s.backend)
    s.backend.convertShape v axes

/-- Brings a value to the declared element type and shape. -/
def check (s : ArraySpec) (v : Value) : Audit Value := do
  let v ← s.checkType v
  s.checkShape v

theorem result_checkType_any {s : ArraySpec} (h : s.type = .any) (v : Value) :
    (s.checkType v).result = .ok v := by
  simp [checkType, h]

theorem result_checkType_of {s : ArraySpec} {t : ElementType} (h : s.type = .of t) (v : Value) :
    (s.checkType v).result = (s.backend.convertType v (.of t)).result := by
  simp [checkType, h]

theorem result_checkShape_any {s : ArraySpec} (h : s.shape = .any) (v : Value) :
    (s.checkShape v).result = .ok v := by
  simp [checkShape, h]

theorem result_checkShape_axes {s : ArraySpec} {axes : List Axis} (h : s.shape = .axes axes)
    (v : Value) : (s.checkShape v).result = (s.backend.convertShape v axes).result := by
  simp [checkShape, h]

theorem result_check (s : ArraySpec) (v : Value) :
    (s.check v).result = (s.checkType v).result.bind fun u => (s.checkShape u).result := by
  simp [check]

end ArraySpec

end ArrayContract
