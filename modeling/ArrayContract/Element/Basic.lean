import ArrayContract.Binary.Format

/-! # Element types

The six types of array elements, each stored as a machine word (`ElementType.Word`), and the types
that a declaration may ask for (`DeclaredType`), which add the wildcard. -/

namespace ArrayContract

open Binary (Format binary32 binary64)

/-- The type of the elements of an array. -/
inductive ElementType
  | int8
  | int16
  | int32
  | int64
  | float32
  | float64
  deriving DecidableEq, Inhabited

namespace ElementType

/-- Every element type, in order of declaration. -/
def all : List ElementType := [int8, int16, int32, int64, float32, float64]

/-- The number of bits of an element. -/
@[reducible] def width : ElementType → Nat
  | int8 => 8
  | int16 => 16
  | int32 | float32 => 32
  | int64 | float64 => 64

/-- The floating-point format of the elements; integers have none. -/
def format? : ElementType → Option Format
  | float32 => some binary32
  | float64 => some binary64
  | _ => none

def isFloat (t : ElementType) : Bool := t.format?.isSome

/-- The words that hold elements of a type: two's complement, or a floating-point format. -/
abbrev Word (t : ElementType) : Type := BitVec t.width

def name : ElementType → String
  | int8 => "INT8"
  | int16 => "INT16"
  | int32 => "INT32"
  | int64 => "INT64"
  | float32 => "FLOAT32"
  | float64 => "FLOAT64"

end ElementType

/-- The element type a declaration asks for: one of the six, or any of them. -/
inductive DeclaredType
  | any
  | of (type : ElementType)
  deriving DecidableEq, Inhabited

namespace DeclaredType

def all : List DeclaredType := ElementType.all.map of ++ [any]

def name : DeclaredType → String
  | any => "ANY"
  | of t => t.name

def isAny : DeclaredType → Bool
  | any => true
  | of _ => false

/-- The element type, unless it is left open. -/
def type? : DeclaredType → Option ElementType
  | any => none
  | of t => some t

def isFloat : DeclaredType → Bool
  | any => false
  | of t => t.isFloat

end DeclaredType

end ArrayContract
