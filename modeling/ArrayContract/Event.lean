import ArrayContract.Fault
import ArrayContract.Json.Basic

/-! # Events

What the checks report while they work: one `Event` per step that changes a value, describes
arguments to a catalog, or registers a function. -/

namespace ArrayContract

/-- A reported step. -/
inductive Event
  /-- An array's elements are cast. -/
  | casting (backend : Backend) (source target : DeclaredType)
  /-- An array is read in another shape. -/
  | reshaping (backend : Backend) (source target : Shape)
  /-- An argument is brought to its declared element type. -/
  | convertingType (argument : String) (target : DeclaredType) (backend : Backend)
  /-- An argument is brought to its declared shape. -/
  | convertingShape (argument : String) (target : ShapePattern) (backend : Backend)
  /-- The columns of a table argument are described. -/
  | describingTable (columns : List String) (isInput : Bool)
  /-- All arguments of a function are described. -/
  | describedFunction (inputs outputs entries : Nat)
  /-- A store takes in entries. -/
  | addingEntries (count : Nat)
  | checkingInputs (arguments declared : Nat)
  | checkingOutputs (outputs : Nat)
  /-- A function's entries are about to go to a store. -/
  | registeringEntries (function : String)
  | instantiating (function : String) (arguments : SetupArguments)
  /-- A registry has taken in a function. -/
  | registered (function : String) (entries : Nat)

end ArrayContract
