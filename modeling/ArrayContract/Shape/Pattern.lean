import ArrayContract.Shape.Count

/-! # Declared shapes

A `ShapePattern` is either no constraint at all or a list of axes, each of them fixed or free. Its
`text` reads like a tuple: `*`, `()`, `(3,)`, `(2, *)`. -/

namespace ArrayContract

/-- One axis of a declared shape. -/
inductive Axis
  | fixed (length : Nat)
  | any
  deriving DecidableEq, Inhabited

namespace Axis

def length? : Axis → Option Nat
  | fixed n => some n
  | any => none

def isAny : Axis → Bool
  | fixed _ => false
  | any => true

/-- The length of an axis, where a free one gets the given length. -/
def fill (n : Nat) (a : Axis) : Nat := a.length?.getD n

def text : Axis → String
  | fixed n => toString n
  | any => "*"

end Axis

/-- The shape a declaration asks for. -/
inductive ShapePattern
  | any
  | axes (axes : List Axis)
  deriving DecidableEq, Inhabited

namespace ShapePattern

/-- The pattern that only the given shape has. -/
def ofShape (shape : Shape) : ShapePattern := axes (shape.map .fixed)

def isAny : ShapePattern → Bool
  | any => true
  | axes _ => false

def axes? : ShapePattern → Option (List Axis)
  | any => none
  | axes as => some as

/-- The text of a pattern; a single axis is followed by a comma. -/
def text : ShapePattern → String
  | any => "*"
  | axes [a] => "(" ++ a.text ++ ",)"
  | axes as => "(" ++ ", ".intercalate (as.map Axis.text) ++ ")"

end ShapePattern

/-- The text of a shape, written as the pattern that only it has. -/
def Shape.text (shape : Shape) : String := (ShapePattern.ofShape shape).text

end ArrayContract
