import ArrayContract.Element.Cast

/-! # Nested sequences

A `Nested` value is an integer, a floating-point number, or a list of nested values. `same` compares
two of them, numbers as numbers. -/

namespace ArrayContract

/-- A number, or a list of nested values. -/
inductive Nested
  | int (value : ElementType.int64.Word)
  | float (value : ElementType.float64.Word)
  | list (items : List Nested)
  deriving Inhabited

namespace Nested

/-- A value inside a number of lists of one item. -/
def wrap : Nat → Nested → Nested
  | 0, v => v
  | n + 1, v => list [wrap n v]

mutual

/-- Equality of nested values: one structure, and equal numbers of one kind. -/
def same : Nested → Nested → Bool
  | int a, int b => a == b
  | float a, float b => ElementType.float64.same a b
  | list as, list bs => sameItems as bs
  | _, _ => false

/-- Equality of lists of nested values, item by item. -/
def sameItems : List Nested → List Nested → Bool
  | [], [] => true
  | a :: as, b :: bs => same a b && sameItems as bs
  | _, _ => false

end

/-! ## Sequences of machine numbers -/

/-- A list of elements of one type; integers are widened and so are floating-point numbers. -/
def ofWords (t : ElementType) (words : List t.Word) : Nested :=
  list (words.map fun w =>
    if t.isFloat then float (t.cast .float64 w) else int (t.cast .int64 w))

end Nested

end ArrayContract
