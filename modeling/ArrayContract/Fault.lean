import ArrayContract.Column
import ArrayContract.Representation
import ArrayContract.Shape.Pattern

/-! # Faults

`Fault` lists the ways in which checking a value can fail, by cause. A fault of one argument or one
column is wrapped in a layer that tells the place; `kind` looks through those layers, `message` puts
each layer's text before that of its cause, and `sources` are the causes from the outside in. -/

namespace ArrayContract

/-- The side of a call a value belongs to. -/
inductive Direction
  | input
  | output
  deriving DecidableEq

def Direction.name : Direction → String
  | input => "input"
  | output => "output"

/-- Why a shape does not fit. -/
inductive Misfit
  /-- The elements of a shape cannot be counted. -/
  | uncountable
  /-- A shape counts other than what an array of this representation stores. -/
  | content (backend : Backend) (counted stored : Nat)
  /-- The elements of the array at hand cannot be counted. -/
  | uncountableArray
  /-- The fixed axes asked for cannot be counted. -/
  | uncountableRequest
  /-- So many elements do not fill the axes. -/
  | size (count : Nat) (axes : List Axis)
  | rank (expected actual : Nat)
  | axis (index actual expected : Nat)
  /-- A reason in the caller's words. -/
  | stated (text : String)
  deriving DecidableEq

def Misfit.text : Misfit → String
  | uncountable => "shape overflows"
  | content .host counted stored =>
    s!"shape holds {counted} elements, buffer has {stored}"
  | content .arrow counted stored =>
    s!"shape holds {counted} elements, array has {stored}"
  | uncountableArray => "array shape overflows"
  | uncountableRequest => "requested shape overflows"
  | size count axes =>
    s!"cannot reshape array of size {count} into shape {(ShapePattern.axes axes).text}"
  | rank expected actual => s!"expected {expected} axes, array has {actual}"
  | axis index actual expected => s!"axis {index} has length {actual}, expected {expected}"
  | stated text => text

/-- What a value was to become. -/
inductive Target
  | native (backend : Backend)
  | tuple
  | rectangle
  /-- A target in the caller's words. -/
  | stated (text : String)
  deriving DecidableEq

def Target.text : Target → String
  | native b => b.title
  | tuple => "tuple"
  | rectangle => "a rectangular array"
  | stated text => text

/-- The number of lists that may be nested in each other. -/
def nestingLimit : Nat := 64

/-- What stood in the way of a conversion. -/
inductive Obstacle
  | representation (found : Representation)
  | column (type : DataType)
  | nulls (count : Nat)
  | ragged (depth : Nat)
  | tooDeep
  /-- An obstacle in the caller's words. -/
  | stated (text : String)
  deriving DecidableEq

def Obstacle.text : Obstacle → String
  | representation found => found.title
  | column type => s!"arrow array of type {type.title}"
  | nulls count => s!"arrow tensor containing {count} nulls"
  | ragged depth => s!"ragged nested sequence at depth {depth}"
  | tooDeep => s!"sequence nested deeper than {nestingLimit} levels"
  | stated text => text

/-- Why columns do not make a table. -/
inductive TableDefect
  | noColumns
  | unequalLengths
  /-- A defect in the caller's words. -/
  | stated (text : String)
  deriving DecidableEq

def TableDefect.text : TableDefect → String
  | noColumns =>
    "Invalid argument error: must either specify a row count or at least one column"
  | unequalLengths =>
    "Invalid argument error: all columns in a record batch must have the same length"
  | stated text => text

/-- A failed check, by its cause. -/
inductive Fault
  | shapeMismatch (expected : ShapePattern) (actual : Shape) (reason : Misfit)
  | unsupportedRepresentation (target : Target) (found : Obstacle)
  | unknownElementType (type : DeclaredType)
  | lengthMismatch (columns types shapes : Nat)
  | duplicateColumn (column : String)
  | missingColumn (column : String)
  | arityMismatch (direction : Direction) (expected actual : Nat)
  | invalidArgument (direction : Direction) (index : Nat) (cause : Fault)
  | invalidColumn (column : String) (cause : Fault)
  | duplicateFunction (name : String)
  | execution (text : String)
  | malformedTable (defect : TableDefect)
  deriving DecidableEq

namespace Fault

/-- The causes of a fault, without the place where it arose. -/
inductive Kind
  | shapeMismatch
  | unsupportedRepresentation
  | unknownElementType
  | lengthMismatch
  | duplicateColumn
  | missingColumn
  | arityMismatch
  | duplicateFunction
  | execution
  | malformedTable
  deriving DecidableEq

def kind : Fault → Kind
  | shapeMismatch .. => .shapeMismatch
  | unsupportedRepresentation .. => .unsupportedRepresentation
  | unknownElementType _ => .unknownElementType
  | lengthMismatch .. => .lengthMismatch
  | duplicateColumn _ => .duplicateColumn
  | missingColumn _ => .missingColumn
  | arityMismatch .. => .arityMismatch
  | invalidArgument _ _ cause => cause.kind
  | invalidColumn _ cause => cause.kind
  | duplicateFunction _ => .duplicateFunction
  | execution _ => .execution
  | malformedTable _ => .malformedTable

/-- The text of a fault. -/
def message : Fault → String
  | shapeMismatch expected _ reason =>
    s!"The input object cannot be reshaped to {expected.text}. Error is {reason.text}"
  | unsupportedRepresentation target found =>
    "Unknown data type. Only nested sequences, host arrays and arrow tensors can be converted to " ++
      s!"{target.text}, got {found.text}"
  | unknownElementType type => s!"Unknown array type: {type.name}"
  | lengthMismatch columns types shapes =>
    "columns, column_types and column_shapes should be of same length if specified. " ++
      s!"Got {columns} columns, {types} column types and {shapes} column shapes"
  | duplicateColumn column => s!"Duplicate column name: {column}"
  | missingColumn column => s!"Missing column: {column}"
  | arityMismatch direction expected actual =>
    s!"Expected {expected} {direction.name} values, got {actual}"
  | invalidArgument direction index cause =>
    s!"Invalid {direction.name} value at position {index}: " ++ cause.message
  | invalidColumn column cause => s!"Invalid column {column}: " ++ cause.message
  | duplicateFunction name => s!"UDF is already registered: {name}"
  | execution text => text
  | malformedTable defect => defect.text

/-- The fault directly behind this one. -/
def source? : Fault → Option Fault
  | invalidArgument _ _ cause => some cause
  | invalidColumn _ cause => some cause
  | _ => none

/-- The faults behind this one, from the outside in. -/
def sources : Fault → List Fault
  | invalidArgument _ _ cause => cause :: cause.sources
  | invalidColumn _ cause => cause :: cause.sources
  | _ => []

end Fault

end ArrayContract
