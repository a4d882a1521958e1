import ArrayContract.Function.Registry
import ArrayContract.Inspect.Function
import ArrayContract.Inspect.Record
import ArrayContract.Json.Arguments
import ArrayContract.Json.Persisted
import ArrayContract.Proofs.Shape.Count
import ArrayContract.Proofs.Shape.Resolve
import ArrayContract.Proofs.Shape.Exact
import ArrayContract.Proofs.Shape.Infer
import ArrayContract.Proofs.Argument.Conformance
import ArrayContract.Proofs.Call.Contract
import ArrayContract.Proofs.Call.Failure
import ArrayContract.Proofs.Nested.Rectangle
import ArrayContract.Proofs.Nested.Disagreement
import ArrayContract.Proofs.Value.Content
import ArrayContract.Proofs.Argument.Coercion
import ArrayContract.Proofs.Argument.Materialize
import ArrayContract.Proofs.Argument.Idempotence
import ArrayContract.Proofs.Argument.Unchanged
import ArrayContract.Proofs.Argument.Declare
import ArrayContract.Proofs.Argument.Description
import ArrayContract.Proofs.Value.Counted
import ArrayContract.Proofs.Value.Obtainable
import ArrayContract.Proofs.Value.Simulation
import ArrayContract.Proofs.Value.Nulls
import ArrayContract.Proofs.Function.History
import ArrayContract.Proofs.Function.Order
import ArrayContract.Proofs.Json.Persisted
import ArrayContract.Proofs.Call.Columns
import ArrayContract.Proofs.Call.Reports
import ArrayContract.Proofs.Function.Journal
import ArrayContract.Proofs.Argument.Commute
import ArrayContract.Proofs.Argument.Refusal
import ArrayContract.Proofs.Value.Reshape
import ArrayContract.Proofs.Call.Modes
import ArrayContract.Proofs.Argument.Lookup
import ArrayContract.Proofs.Element.Integers
import ArrayContract.Proofs.Binary.Magnitude
import ArrayContract.Proofs.Binary.Reading
import ArrayContract.Proofs.Element.Arrays
import ArrayContract.Proofs.Element.Floats
import ArrayContract.Proofs.Value.Equality
import ArrayContract.Proofs.Json.Records
import ArrayContract.Proofs.Json.ShapeText
import ArrayContract.Proofs.Shape.Text
import ArrayContract.Proofs.Fault.Layers
import ArrayContract.Proofs.Fault.Texts
import ArrayContract.Proofs.Inspect.Record
import ArrayContract.Proofs.Nested.Depth
