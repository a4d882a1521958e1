import ArrayContract.Audit
import ArrayContract.Buffer
import ArrayContract.Shape.Resolve

/-! # Dense arrays

A `DenseArray` is a buffer read in a shape. `ofBuffer` checks that the shape counts the elements;
`reshape` and `cast` keep that so without checking it again. -/

namespace ArrayContract

/-- An array in row-major order, every element of which is a value. -/
structure DenseArray where
  shape : Shape
  buffer : Buffer
  deriving DecidableEq

namespace DenseArray

def type (a : DenseArray) : ElementType := a.buffer.type

def length (a : DenseArray) : Nat := a.buffer.length

/-- The shape counts the elements. -/
def Counted (a : DenseArray) : Prop := a.shape.count? = some a.length

/-- Reads a buffer in a shape that counts its elements. -/
def ofBuffer (shape : Shape) (buffer : Buffer) : Except Fault DenseArray :=
  let refuse (reason : Misfit) : Except Fault DenseArray :=
    .error (.shapeMismatch (.ofShape shape) [buffer.length] reason)
  match shape.count? with
  | none => refuse .uncountable
  | some n =>
    if n = buffer.length then .ok ⟨shape, buffer⟩
    else refuse (.content .host n buffer.length)

theorem ofBuffer_eq_ok {shape : Shape} {buffer : Buffer} {a : DenseArray} :
    ofBuffer shape buffer = .ok a ↔ a = ⟨shape, buffer⟩ ∧ a.Counted := by
  unfold ofBuffer
  split
  · next h =>
    constructor
    · rintro ⟨⟩
    · rintro ⟨rfl, hc⟩
      exact nomatch h.symm.trans hc
  · next n h =>
    split
    · next hn =>
      constructor
      · rintro ⟨⟩
        exact ⟨rfl, h.trans (congrArg some hn)⟩
      · rintro ⟨rfl, -⟩
        rfl
    · next hn =>
      constructor
      · rintro ⟨⟩
      · rintro ⟨rfl, hc⟩
        exact absurd (Option.some.inj (h.symm.trans hc)) hn

/-- The array with one axis that holds a buffer. -/
def vector (buffer : Buffer) : DenseArray := ⟨[buffer.length], buffer⟩

/-- The same elements in the declared axes. -/
def reshape (a : DenseArray) (axes : List Axis) : Audit DenseArray := do
  let shape ← a.shape.resolve axes
  Audit.report (.reshaping .host a.shape shape)
  pure ⟨shape, a.buffer⟩

/-- The same shape with each element cast; an array of the declared type is left alone. -/
def cast (a : DenseArray) (target : DeclaredType) : Audit DenseArray :=
  if target = .of a.type then pure a
  else do
    Audit.report (.casting .host (.of a.type) target)
    let buffer ← a.buffer.cast target
    pure ⟨a.shape, buffer⟩

@[simp] theorem result_reshape (a : DenseArray) (axes : List Axis) :
    (a.reshape axes).result = (a.shape.resolve axes).map (⟨·, a.buffer⟩) := by
  unfold reshape
  cases a.shape.resolve axes <;> simp

@[simp] theorem result_cast_of (a : DenseArray) (t : ElementType) :
    (a.cast (.of t)).result = .ok ⟨a.shape, a.buffer.castTo t⟩ := by
  unfold cast
  split
  · next h =>
    cases h
    simp [type]
  · simp [Buffer.cast]

@[simp] theorem result_cast_any (a : DenseArray) :
    (a.cast .any).result = .error (.unknownElementType .any) := by
  simp [cast, Buffer.cast]

/-- The elements, if they have the given type. -/
def words? (a : DenseArray) (t : ElementType) : Option (List t.Word) :=
  if h : a.buffer.type = t then some (h ▸ a.buffer.words) else none

/-- Equality of arrays: one shape, and elements equal as numbers. -/
def same (a b : DenseArray) : Bool := a.shape == b.shape && a.buffer.same b.buffer

end DenseArray

end ArrayContract
