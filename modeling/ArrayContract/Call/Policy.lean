/-! # Checking policies

Which side of a call is checked, and what becomes of a call with another number of arguments than
declared. -/

namespace ArrayContract

/-- What becomes of a call with another number of arguments than declared. -/
inductive Arity
  /-- It is refused. -/
  | strict
  /-- The arguments that have a declaration are checked, and the others passed on. -/
  | permissive
  deriving DecidableEq, Inhabited

namespace Arity

def all : List Arity := [strict, permissive]

def name : Arity → String
  | strict => "strict"
  | permissive => "permissive"

end Arity

/-- How the calls of a function are checked. -/
structure CheckPolicy where
  checkInput : Bool := true
  checkOutput : Bool := true
  arity : Arity := .strict
  deriving DecidableEq, Inhabited

end ArrayContract
