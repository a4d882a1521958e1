import ArrayContract.Batch
import ArrayContract.Nested.Basic
import ArrayContract.Tensor

/-! # Values

A `Value` is what a caller passes and a function returns. Equality (`same`) compares dense arrays
and nested sequences as numbers, tensors and tables word by word, and handles by identity. -/

namespace ArrayContract

/-- An argument or result of a function. -/
inductive Value
  | dense (array : DenseArray)
  | tensor (tensor : Tensor)
  | nested (sequence : Nested)
  | table (batch : Batch)
  | text (string : String)
  /-- A value known by its identity alone. -/
  | handle (identity : Nat)
  | tuple (items : List Value)
  deriving Inhabited

namespace Value

def representation : Value → Representation
  | dense _ => .native .host
  | tensor _ => .native .arrow
  | nested _ => .nested
  | table _ => .table
  | text _ => .text
  | handle _ => .handle
  | tuple _ => .tuple

/-- The shape of an array; a nested sequence has none until it is converted. -/
def shape? : Value → Option Shape
  | dense a => some a.shape
  | tensor t => some t.shape
  | _ => none

/-- The element type of an array. -/
def type? : Value → Option ElementType
  | dense a => some a.type
  | tensor t => t.type.type?
  | _ => none

/-- The items of a tuple. -/
def toTuple : Value → Except Fault (List Value)
  | tuple items => .ok items
  | v => .error (.unsupportedRepresentation .tuple (.representation v.representation))

theorem representation_eq_host {v : Value} :
    v.representation = .native .host ↔ ∃ a, v = .dense a := by
  cases v <;> simp [representation]

theorem representation_eq_arrow {v : Value} :
    v.representation = .native .arrow ↔ ∃ t, v = .tensor t := by
  cases v <;> simp [representation]

theorem toTuple_eq_ok {v : Value} {items : List Value} :
    v.toTuple = .ok items ↔ v = .tuple items := by
  cases v <;> simp [toTuple]

mutual

/-- Equality of values of one representation. -/
def same : Value → Value → Bool
  | dense a, dense b => a.same b
  | tensor a, tensor b => a.same b
  | nested a, nested b => a.same b
  | table a, table b => a == b
  | text a, text b => a == b
  | handle a, handle b => a == b
  | tuple as, tuple bs => sameItems as bs
  | _, _ => false

/-- Equality of lists of values, item by item. -/
def sameItems : List Value → List Value → Bool
  | [], [] => true
  | a :: as, b :: bs => same a b && sameItems as bs
  | _, _ => false

end

end Value

end ArrayContract
