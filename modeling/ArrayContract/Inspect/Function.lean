import ArrayContract.Call.Checked
import ArrayContract.Function.Setup
import ArrayContract.Inspect.Notation

/-! # Inspecting functions

The text of a setup routine and of a checked routine for a developer. It shows what is declared of
them and leaves the routines themselves out. -/

namespace ArrayContract.Inspect

def elementType : ElementType → String
  | .int8 => "Int8"
  | .int16 => "Int16"
  | .int32 => "Int32"
  | .int64 => "Int64"
  | .float32 => "Float32"
  | .float64 => "Float64"

def declaredType : DeclaredType → String
  | .any => "Any"
  | .of t => elementType t

def axis : Axis → String
  | .any => "Any"
  | .fixed n => applied "Fixed" (toString n)

def pattern : ShapePattern → String
  | .any => "Any"
  | .axes axes => applied "Axes" (sequence (axes.map axis))

def backend : Backend → String
  | .host => "Host"
  | .arrow => "Arrow"

def arity : Arity → String
  | .strict => "Strict"
  | .permissive => "Permissive"

def argument : ArgumentSpec → String
  | .array s =>
    applied "Array" (record "ArrayArgument" [("name", Text.quoted s.name),
      ("is_nullable", bool s.nullable), ("element_type", declaredType s.type),
      ("dimensions", pattern s.shape), ("backend", backend s.backend)])
  | .table s =>
    applied "Table" (record "TableArgument" [("columns", names s.names),
      ("column_types", sequence (s.types.map declaredType)),
      ("column_shapes", sequence (s.shapes.map pattern))])

def signature (s : Signature) : String :=
  record "ForwardTags" [("input", sequence (s.inputs.map argument)),
    ("output", sequence (s.outputs.map argument))]

def policy (p : CheckPolicy) : String :=
  record "ForwardConfig" [("check_input", bool p.checkInput),
    ("check_output", bool p.checkOutput), ("arity", arity p.arity)]

def tags (t : ScheduleTags) : String :=
  record "SetupTags" [("cachable", bool t.cachable), ("udf_type", Text.quoted t.category),
    ("batchable", bool t.batchable)]

end Inspect

variable {ρ : Type}

/-- The text of a setup routine. -/
def SetupRoutine.inspect (s : SetupRoutine ρ) : String :=
  Inspect.openRecord "SetupWrapper" [("tags", Inspect.tags s.tags)]

/-- The text of a checked routine. -/
def CheckedRoutine.inspect (c : CheckedRoutine ρ) : String :=
  Inspect.openRecord "ForwardWrapper" [("tags", Inspect.signature c.signature),
    ("config", Inspect.policy c.policy)]

end ArrayContract
