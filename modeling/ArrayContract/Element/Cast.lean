import ArrayContract.Element.Basic

/-! # Casting elements

`cast` takes a word of one element type to the word of another: between integers it keeps the low
bits, to a floating-point format it rounds to nearest, and from one to an integer it drops the
fraction and stops at the bounds. `same` is the equality of elements as numbers. -/

namespace ArrayContract.ElementType

/-- The least integer of a type's width. -/
def lowest (t : ElementType) : Int := -(1 <<< (t.width - 1) : Nat)

/-- The greatest integer of a type's width. -/
def highest (t : ElementType) : Int := (1 <<< (t.width - 1) : Nat) - 1

/-- The element of type `t` that stands for an element of type `s`. -/
def cast (s t : ElementType) (word : s.Word) : t.Word :=
  match s.format?, t.format? with
  | none, none => BitVec.ofInt t.width word.toInt
  | none, some g => BitVec.ofNat t.width (g.ofInt word.toInt)
  | some f, none => BitVec.ofInt t.width (f.truncate t.lowest t.highest word.toNat)
  | some f, some g => BitVec.ofNat t.width (f.convert g word.toNat)

@[simp] theorem cast_self (t : ElementType) : t.cast t = id := by
  funext word
  cases t <;> simp [cast, format?, Binary.Format.convert]

/-- Equality of elements as numbers: not-a-number differs from itself, and the zeros are equal. -/
def same (t : ElementType) (a b : t.Word) : Bool :=
  match t.format? with
  | none => a == b
  | some f => f.same a.toNat b.toNat

/-- Whether an element is not a number. -/
def isNaN (t : ElementType) (word : t.Word) : Bool :=
  match t.format? with
  | none => false
  | some f => f.isNaN word.toNat

end ArrayContract.ElementType
