import ArrayContract.Call.Policy
import ArrayContract.Catalog.Entry
import ArrayContract.Function.Setup
import ArrayContract.Json.Printer
import ArrayContract.Json.Reader
import ArrayContract.Representation

/-! # The persisted form of declarations

A `Persisted` type has a JSON form, written by `Persisted.text` and read by `Persisted.ofText?`.
Names are strings, or objects whose only member is the name with the value null. Records are objects
with their fields in order; they are also read from arrays of their fields, unknown members are
ignored, and no field may come twice. Where a record has defaults, fields may be left out. -/

namespace ArrayContract

/-- A type with a JSON form. -/
class Persisted (α : Type) where
  toJson : α → Json
  ofJson? : Json → Option α

namespace Persisted

/-- The persisted text of a value. -/
def text {α : Type} [Persisted α] (a : α) : String := (toJson a).text

/-- The value of a persisted text. -/
def ofText? {α : Type} [Persisted α] (text : String) : Option α :=
  (Json.ofText? text).bind ofJson?

end Persisted

namespace Json

/-- The one of some values that a document names. -/
def named? {α : Type} (all : List α) (name : α → String) : Json → Option α
  | string s => all.find? (name · == s)
  | object [(s, null)] => all.find? (name · == s)
  | _ => none

def bool? : Json → Option Bool
  | bool b => some b
  | _ => none

def string? : Json → Option String
  | string s => some s
  | _ => none

/-- The value of a name among the members of an object; a repeated name is refused. -/
def member? (members : List (String × Json)) (name : String) : Option (Option Json) :=
  match members.filter (·.1 == name) with
  | [] => some none
  | [(_, v)] => some (some v)
  | _ => none

/-- The values of a record's fields in order, from an object or from an array. -/
def fields? (names : List String) : Json → Option (List (Option Json))
  | object members => names.mapM (member? members)
  | array items =>
    if items.length ≤ names.length then
      some (items.map some ++ List.replicate (names.length - items.length) none)
    else none
  | _ => none

/-- The value of a field, or a default if it is left out. -/
def orDefault {α : Type} (default : α) (read : Json → Option α) : Option Json → Option α
  | none => some default
  | some v => read v

end Json

open Json (named? bool? string? fields? orDefault)

/-! ## Types and shapes -/

instance : Persisted DeclaredType where
  toJson t := .string t.name
  ofJson? := named? DeclaredType.all DeclaredType.name

instance : Persisted LogicalType where
  toJson t := .string t.name
  ofJson? := named? LogicalType.all LogicalType.name

instance : Persisted Backend where
  toJson b := .string b.name
  ofJson? := named? Backend.all Backend.name

instance : Persisted Arity where
  toJson a := .string a.name
  ofJson? := named? Arity.all Arity.name

namespace Axis

def toJson : Axis → Json
  | fixed n => .ofNat n
  | any => .null

def ofJson? : Json → Option Axis
  | .null => some any
  | .number n => n.natural?.map fixed
  | _ => none

instance : Persisted Axis := ⟨toJson, ofJson?⟩

end Axis

namespace ShapePattern

def toJson : ShapePattern → Json
  | any => .null
  | axes as => .array (as.map Axis.toJson)

def ofJson? : Json → Option ShapePattern
  | .null => some any
  | .array items => (items.mapM Axis.ofJson?).map axes
  | _ => none

instance : Persisted ShapePattern := ⟨toJson, ofJson?⟩

end ShapePattern

/-! ## Records -/

namespace CheckPolicy

def fieldNames : List String := ["check_input", "check_output", "arity"]

def toJson (p : CheckPolicy) : Json :=
  .object (fieldNames.zip [.bool p.checkInput, .bool p.checkOutput, Persisted.toJson p.arity])

def ofJson? (v : Json) : Option CheckPolicy :=
  let default : CheckPolicy := {}
  match fields? fieldNames v with
  | some [checkInput, checkOutput, arity] => do
    let checkInput ← orDefault default.checkInput bool? checkInput
    let checkOutput ← orDefault default.checkOutput bool? checkOutput
    let arity ← orDefault default.arity Persisted.ofJson? arity
    pure ⟨checkInput, checkOutput, arity⟩
  | _ => none

instance : Persisted CheckPolicy := ⟨toJson, ofJson?⟩

end CheckPolicy

namespace ScheduleTags

def fieldNames : List String := ["cachable", "udf_type", "batchable"]

def toJson (t : ScheduleTags) : Json :=
  .object (fieldNames.zip [.bool t.cachable, .string t.category, .bool t.batchable])

def ofJson? (v : Json) : Option ScheduleTags :=
  let default : ScheduleTags := {}
  match fields? fieldNames v with
  | some [cachable, category, batchable] => do
    let cachable ← orDefault default.cachable bool? cachable
    let category ← orDefault default.category string? category
    let batchable ← orDefault default.batchable bool? batchable
    pure ⟨cachable, category, batchable⟩
  | _ => none

instance : Persisted ScheduleTags := ⟨toJson, ofJson?⟩

end ScheduleTags

namespace CatalogEntry

def fieldNames : List String :=
  ["name", "logical_type", "is_nullable", "element_type", "dimensions", "is_input"]

def toJson (e : CatalogEntry) : Json :=
  .object (fieldNames.zip [.string e.name, Persisted.toJson e.logicalType, .bool e.nullable,
    Persisted.toJson e.type, e.shape.toJson, .bool e.isInput])

/-- An entry has no defaults: every field is required. -/
def ofJson? (v : Json) : Option CatalogEntry :=
  match fields? fieldNames v with
  | some [some name, some logicalType, some nullable, some type, some shape, some isInput] => do
    let name ← string? name
    let logicalType ← Persisted.ofJson? logicalType
    let nullable ← bool? nullable
    let type ← Persisted.ofJson? type
    let shape ← ShapePattern.ofJson? shape
    let isInput ← bool? isInput
    pure ⟨name, logicalType, nullable, type, shape, isInput⟩
  | _ => none

instance : Persisted CatalogEntry := ⟨toJson, ofJson?⟩

end CatalogEntry

end ArrayContract
