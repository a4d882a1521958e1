import ArrayContract.Json.Basic

/-! # Keyword arguments from JSON

An object is read as keyword arguments in order of their names; of a name that comes twice the last
value counts. The same holds of the objects inside. -/

namespace ArrayContract.Json

/-- Puts a member in its place in order of the names, in place of one of the same name. -/
def insertMember (name : String) (value : Json) : List (String × Json) → List (String × Json)
  | [] => [(name, value)]
  | (other, v) :: ms =>
    if name < other then (name, value) :: (other, v) :: ms
    else if name = other then (name, value) :: ms
    else (other, v) :: insertMember name value ms

/-- Members in order of their names, each name once. -/
def sortMembers (members : List (String × Json)) : List (String × Json) :=
  members.foldl (fun sorted (name, value) => insertMember name value sorted) []

mutual

/-- A document with the members of every object in order. -/
def sorted : Json → Json
  | array vs => array (sortedItems vs)
  | object ms => object (sortMembers (sortedValues ms))
  | v => v

def sortedItems : List Json → List Json
  | [] => []
  | v :: vs => sorted v :: sortedItems vs

def sortedValues : List (String × Json) → List (String × Json)
  | [] => []
  | (name, v) :: ms => (name, sorted v) :: sortedValues ms

end

/-- The keyword arguments of a document; null stands for none. -/
def arguments? : Json → Option SetupArguments
  | null => some []
  | object ms => some (sortMembers (sortedValues ms))
  | _ => none

end ArrayContract.Json
