import ArrayContract.Element.Cast
import ArrayContract.Fault

/-! # Buffers

A `Buffer` is a sequence of words of one element type, the contents of an array in row-major order.
`cast` takes each word to another type; `same` compares words as numbers. -/

namespace ArrayContract

/-- A sequence of elements of one type. -/
structure Buffer where
  type : ElementType
  words : List type.Word
  deriving DecidableEq

namespace Buffer

def length (b : Buffer) : Nat := b.words.length

/-- Each element as one of another type. -/
def castTo (b : Buffer) (t : ElementType) : Buffer := ⟨t, b.words.map (b.type.cast t)⟩

@[simp] theorem castTo_self (b : Buffer) : b.castTo b.type = b := by
  simp [castTo]

@[simp] theorem length_castTo (b : Buffer) (t : ElementType) : (b.castTo t).length = b.length :=
  List.length_map _

/-- Each element as one of the declared type; any type is no type to cast to. -/
def cast (b : Buffer) : DeclaredType → Except Fault Buffer
  | .any => .error (.unknownElementType .any)
  | .of t => .ok (b.castTo t)

/-- Whether two sequences of elements agree place by place as numbers. -/
def sameWords (t : ElementType) : List t.Word → List t.Word → Bool
  | [], [] => true
  | a :: as, b :: bs => t.same a b && sameWords t as bs
  | _, _ => false

/-- Equality of buffers: one type, and elements equal as numbers. -/
def same (a b : Buffer) : Bool :=
  if h : b.type = a.type then sameWords a.type a.words (h ▸ b.words) else false

end Buffer

end ArrayContract
