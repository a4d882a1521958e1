import ArrayContract.Json.Number
import ArrayContract.Text.Quoted

/-! # Notation of inspected values

How the parts of a value are put together where it is shown to a developer: sequences in brackets,
constructors with their arguments in parentheses, and records with named fields in braces. -/

namespace ArrayContract.Inspect

def commaSeparated (items : List String) : String := ", ".intercalate items

/-- A sequence. -/
def sequence (items : List String) : String := "[" ++ commaSeparated items ++ "]"

/-- A constructor with one argument. -/
def applied (constructor argument : String) : String := constructor ++ "(" ++ argument ++ ")"

/-- The fields of a record. -/
def fields (parts : List (String × String)) : String :=
  commaSeparated (parts.map fun (name, part) => name ++ ": " ++ part)

/-- A record all of whose fields are shown. -/
def record (name : String) (parts : List (String × String)) : String :=
  name ++ " \x7b " ++ fields parts ++ " \x7d"

/-- A record that has more fields than those shown. -/
def openRecord (name : String) (parts : List (String × String)) : String :=
  name ++ " \x7b " ++ fields parts ++ ", .. \x7d"

def bool (b : Bool) : String := if b then "true" else "false"

/-- A shape as a sequence of lengths. -/
def shape (lengths : List Nat) : String := sequence (lengths.map toString)

/-- A list of names. -/
def names (texts : List String) : String := sequence (texts.map Text.quoted)

/-! ## Documents -/

mutual

/-- A JSON document with its constructors. -/
def json : Json → String
  | .null => "Null"
  | .bool b => applied "Bool" (bool b)
  | .number n => applied "Number" n.text
  | .string s => applied "String" (Text.quoted s)
  | .array vs => "Array [" ++ commaSeparated (jsonItems vs) ++ "]"
  | .object ms => "Object \x7b" ++ commaSeparated (jsonMembers ms) ++ "\x7d"
  | .unreadable => "Null"

def jsonItems : List Json → List String
  | [] => []
  | v :: vs => json v :: jsonItems vs

def jsonMembers : List (String × Json) → List String
  | [] => []
  | (name, v) :: ms => (Text.quoted name ++ ": " ++ json v) :: jsonMembers ms

end

/-- The keyword arguments of a setup routine. -/
def arguments (args : SetupArguments) : String :=
  "\x7b" ++ commaSeparated (jsonMembers args) ++ "\x7d"

end ArrayContract.Inspect
