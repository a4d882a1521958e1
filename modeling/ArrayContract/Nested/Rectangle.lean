import ArrayContract.DenseArray
import ArrayContract.Nested.Basic

/-! # Nested sequences as arrays

The shape of a nested sequence is read off the chain of first items (`spine?`), which may not be
longer than `nestingLimit`; then `leaves` collects the numbers in order and refuses the first node
that disagrees with the shape. A sequence of integers alone gives an integer array, one with a
floating-point number, or without any number, a floating-point array. -/

namespace ArrayContract.Nested

/-- A number in a nested sequence. -/
inductive Leaf
  | int (value : ElementType.int64.Word)
  | float (value : ElementType.float64.Word)
  deriving DecidableEq

namespace Leaf

def isInt : Leaf → Bool
  | int _ => true
  | float _ => false

/-- The integer of a leaf; a floating-point number has none. -/
def int? : Leaf → Option ElementType.int64.Word
  | int v => some v
  | float _ => none

/-- The floating-point number of a leaf, the nearest one if it is an integer. -/
def toFloat : Leaf → ElementType.float64.Word
  | int v => ElementType.int64.cast .float64 v
  | float v => v

end Leaf

/-- The lengths of the lists along the chain of first items, if no more than `limit` of them. -/
def spine? : Nat → Nested → Option Shape
  | 0, list _ => none
  | _ + 1, list [] => some [0]
  | limit + 1, list (first :: rest) => (spine? limit first).map ((rest.length + 1) :: ·)
  | _, _ => some []

/-- The numbers of a value of the given shape, in order; `depth` lists lie around the value. -/
def leaves (depth : Nat) : Shape → Nested → Except Obstacle (List Leaf)
  | [], int v => .ok [.int v]
  | [], float v => .ok [.float v]
  | length :: shape, list items =>
    if items.length = length then (items.mapM (leaves (depth + 1) shape)).map List.flatten
    else .error (.ragged depth)
  | _, _ => .error (.ragged depth)

/-- The buffer of a sequence of leaves. -/
def bufferOf (ls : List Leaf) : Buffer :=
  if ls ≠ [] ∧ ls.all Leaf.isInt then ⟨.int64, ls.filterMap Leaf.int?⟩
  else ⟨.float64, ls.map Leaf.toFloat⟩

/-- The shape and the numbers of a nested sequence. -/
def rectangle (v : Nested) : Except Obstacle (Shape × List Leaf) :=
  match v.spine? nestingLimit with
  | none => .error .tooDeep
  | some shape => (v.leaves 0 shape).map (shape, ·)

/-- The array that a nested sequence spells out. -/
def toDense (v : Nested) : Except Fault DenseArray :=
  match v.rectangle with
  | .error found => .error (.unsupportedRepresentation .rectangle found)
  | .ok (shape, ls) => .ok ⟨shape, bufferOf ls⟩

end ArrayContract.Nested
