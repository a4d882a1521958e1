/-! # Shapes and their element counts

A `Shape` is the list of an array's axis lengths, outermost first. `count?` multiplies the axes from
the left and gives up as soon as a partial product no longer fits in 64 bits. -/

namespace ArrayContract

/-- The lengths of the axes of an array. -/
abbrev Shape : Type := List Nat

/-- Axis lengths and element counts are below this bound. -/
def countBound : Nat := 1 <<< 64

namespace Shape

/-- The product of two counts, if it fits. -/
def mul? (a b : Nat) : Option Nat :=
  if a * b < countBound then some (a * b) else none

/-- The number of elements of an array, if every partial product fits. -/
def count? (shape : Shape) : Option Nat := shape.foldlM mul? 1

end Shape

end ArrayContract
