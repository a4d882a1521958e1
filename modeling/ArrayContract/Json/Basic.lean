/-! # JSON values

`Json` is a JSON document as it was written: the members of an object keep their order and their
repetitions, and a `Number` keeps the parts of its literal. A string with an unpaired surrogate has
no text, and an object with such a name has no members; both are `unreadable`, which is a document
but fits no type. -/

namespace ArrayContract

/-- A number literal: its sign, whole part, fraction digits and exponent. -/
structure Json.Number where
  negative : Bool
  whole : Nat
  fraction : List Nat
  exponent : Option Int
  deriving DecidableEq

/-- A JSON document. -/
inductive Json
  | null
  | bool (value : Bool)
  | number (value : Json.Number)
  | string (value : String)
  | array (items : List Json)
  | object (members : List (String × Json))
  | unreadable
  deriving Inhabited

namespace Json

/-- The bound of the naturals a number can stand for. -/
def naturalBound : Nat := 1 <<< 64

/-- The natural that a literal without sign, fraction and exponent stands for, if it fits. -/
def Number.natural? (n : Number) : Option Nat :=
  if !n.negative && n.fraction.isEmpty && n.exponent.isNone && n.whole < naturalBound then
    some n.whole
  else none

def ofNat (n : Nat) : Json := number ⟨false, n, [], none⟩

def ofInt (x : Int) : Json := number ⟨x < 0, x.natAbs, [], none⟩

end Json

/-- The keyword arguments of a setup routine, in order of their names. -/
abbrev SetupArguments : Type := List (String × Json)

end ArrayContract
