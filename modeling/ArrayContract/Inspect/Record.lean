import ArrayContract.Event
import ArrayContract.Inspect.Notation

/-! # Records of events

The form in which an event is written to a log: a level, the part of the library that reports it, a
message, and the event's data as named fields. -/

namespace ArrayContract

/-- How much an event matters. -/
inductive Level
  | trace
  | debug
  deriving DecidableEq

def Level.name : Level → String
  | trace => "TRACE"
  | debug => "DEBUG"

namespace Event

def level : Event → Level
  | casting .. | reshaping .. | convertingType .. | convertingShape .. | checkingInputs ..
  | checkingOutputs _ => .trace
  | describingTable .. | describedFunction .. | addingEntries _ | registeringEntries _
  | instantiating .. | registered .. => .debug

/-- The part of the library that reports an event. -/
def target : Event → String
  | casting .host .. | reshaping .host .. => "udfio::array::host"
  | casting .arrow .. | reshaping .arrow .. => "udfio::array::tensor"
  | convertingType .. | convertingShape .. => "udfio::descriptor::array"
  | describingTable .. => "udfio::descriptor::table"
  | describedFunction .. | addingEntries _ => "udfio::catalog"
  | checkingInputs .. | checkingOutputs _ => "udfio::forward"
  | registeringEntries _ | instantiating .. | registered .. => "udfio::udf"

def message : Event → String
  | casting b .. => "casting " ++ b.title
  | reshaping b .. => "reshaping " ++ b.title
  | convertingType .. => "converting type"
  | convertingShape .. => "converting shape"
  | describingTable .. => "generating table catalog entries"
  | describedFunction .. => "generated udf catalog entries"
  | addingEntries _ => "adding catalog entries"
  | checkingInputs .. => "validating forward inputs"
  | checkingOutputs _ => "validating forward outputs"
  | registeringEntries _ => "registering udf catalog entries"
  | instantiating .. => "instantiating udf"
  | registered .. => "registered udf"

/-- The data of an event. -/
def fields : Event → List (String × Json)
  | casting _ source target => [("from", .string source.name), ("to", .string target.name)]
  | reshaping _ source target =>
    [("from", .string (Inspect.shape source)), ("to", .string (Inspect.shape target))]
  | convertingType argument target backend =>
    [("name", .string argument), ("to", .string target.name), ("backend", .string backend.title)]
  | convertingShape argument target backend =>
    [("name", .string argument), ("to", .string target.text), ("backend", .string backend.title)]
  | describingTable columns isInput =>
    [("columns", .string (Inspect.names columns)), ("is_input", .bool isInput)]
  | describedFunction inputs outputs entries =>
    [("inputs", .ofNat inputs), ("outputs", .ofNat outputs), ("entries", .ofNat entries)]
  | addingEntries count => [("count", .ofNat count)]
  | checkingInputs arguments declared =>
    [("args", .ofNat arguments), ("descriptors", .ofNat declared)]
  | checkingOutputs outputs => [("outputs", .ofNat outputs)]
  | registeringEntries function => [("name", .string function)]
  | instantiating function arguments =>
    [("name", .string function), ("args", .string (Inspect.arguments arguments))]
  | registered function entries => [("name", .string function), ("entries", .ofNat entries)]

end Event

end ArrayContract
