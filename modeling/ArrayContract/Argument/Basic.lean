import ArrayContract.Argument.TableSpec

/-! # Declared arguments

An `ArgumentSpec` declares one input or output of a function, an array or a table. `check` brings a
value to the declaration; a table is passed on as it is, for its columns are brought to theirs when
they are taken out. `entries` describes arguments to a catalog. -/

namespace ArrayContract

/-- The declaration of an input or output. -/
inductive ArgumentSpec
  | array (spec : ArraySpec)
  | table (spec : TableSpec)
  deriving DecidableEq

namespace ArgumentSpec

/-- The name in reports. -/
def title : ArgumentSpec → String
  | array s => s.name
  | table s => "table(" ++ ", ".intercalate s.names ++ ")"

def checkType : ArgumentSpec → Value → Audit Value
  | array s, v => s.checkType v
  | table _, v => pure v

def checkShape : ArgumentSpec → Value → Audit Value
  | array s, v => s.checkShape v
  | table _, v => pure v

/-- Brings a value to its declaration. -/
def check : ArgumentSpec → Value → Audit Value
  | array s, v => s.check v
  | table _, v => pure v

/-- The catalog's records of an argument: one of an array, and one of each column of a table. -/
def entries (isInput : Bool) : ArgumentSpec → List CatalogEntry
  | array s => [s.entry isInput]
  | table s => s.arraySpecs.map (·.entry isInput)

/-- What is reported while an argument is described. -/
def reports (isInput : Bool) : ArgumentSpec → List Event
  | array _ => []
  | table s => [.describingTable s.names isInput]

end ArgumentSpec

/-! ## Signatures -/

/-- The declared inputs and outputs of a function. -/
structure Signature where
  inputs : List ArgumentSpec := []
  outputs : List ArgumentSpec := []
  deriving DecidableEq, Inhabited

namespace Signature

/-- The catalog's records of the inputs, then of the outputs. -/
def entries (s : Signature) : List CatalogEntry :=
  s.inputs.flatMap (·.entries true) ++ s.outputs.flatMap (·.entries false)

/-- What is reported while a signature is described. -/
def reports (s : Signature) : List Event :=
  s.inputs.flatMap (·.reports true) ++ s.outputs.flatMap (·.reports false) ++
    [.describedFunction s.inputs.length s.outputs.length s.entries.length]

/-- The catalog's records of a signature, with their reports. -/
def describe (s : Signature) : Audit (List CatalogEntry) := do
  Audit.reportAll s.reports
  pure s.entries

end Signature

end ArrayContract
