import ArrayContract.Call.Checked
import ArrayContract.Catalog.Store
import ArrayContract.Function.Setup

/-! # Functions

A `Definition` names a setup routine and a checked routine over receivers of one type. `register`
puts its entries into a catalog store; `instantiate` sets a receiver up once and keeps it for any
number of calls. -/

namespace ArrayContract

/-- A named function. -/
structure Definition (ρ : Type) where
  name : String
  setup : SetupRoutine ρ
  body : CheckedRoutine ρ

/-- A function with a receiver that is set up. -/
structure Instance (ρ : Type) where
  definition : Definition ρ
  receiver : ρ

variable {ρ : Type}

namespace Definition

/-- The catalog's records of the inputs, then of the outputs. -/
def entries (d : Definition ρ) : List CatalogEntry := d.body.signature.entries

/-- Appends the function's entries to a store. -/
def register {σ : Type} [CatalogStore σ] (d : Definition ρ) (store : σ) : σ × Audit Unit :=
  let (store, taken) := CatalogStore.add store d.entries
  (store, do
    Audit.report (.registeringEntries d.name)
    Audit.reportAll d.body.signature.reports
    taken)

/-- Sets a receiver up for calls. -/
def instantiate (d : Definition ρ) (receiver : ρ) (args : SetupArguments) :
    Audit (Instance ρ) := do
  Audit.report (.instantiating d.name args)
  let (receiver, done) := d.setup.call receiver args
  done
  pure ⟨d, receiver⟩

end Definition

/-- Calls a function on the receiver that was set up for it. -/
def Instance.call (i : Instance ρ) (args : List Value) : Audit Value :=
  i.definition.body.call i.receiver args

end ArrayContract
