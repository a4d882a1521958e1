import ArrayContract.Function.Definition
import Std.Data.TreeMap.Basic

/-! # Registries of functions

A `Registry` keeps what is recorded about functions by name, in order of the names. A name is taken
in once: `register` refuses it afterwards, before anything is offered to the store, and records
nothing if the store refuses the entries. -/

namespace ArrayContract

/-- What is recorded about a function. -/
structure Registration where
  name : String
  tags : ScheduleTags
  entries : List CatalogEntry
  deriving DecidableEq

/-- The record of a definition. -/
def Definition.registration {ρ : Type} (d : Definition ρ) : Registration :=
  ⟨d.name, d.setup.tags, d.entries⟩

/-- The functions recorded, by name. -/
structure Registry where
  functions : Std.TreeMap String Registration := ∅

namespace Registry

def get? (r : Registry) (name : String) : Option Registration := r.functions[name]?

def contains (r : Registry) (name : String) : Bool := r.functions.contains name

/-- The names of all functions, sorted. -/
def names (r : Registry) : List String := r.functions.keys

def size (r : Registry) : Nat := r.functions.size

/-- Records a function and appends its entries to a store. -/
def register {ρ σ : Type} [CatalogStore σ] (r : Registry) (d : Definition ρ) (store : σ) :
    (Registry × σ) × Audit Unit :=
  if r.contains d.name then ((r, store), Audit.fail (.duplicateFunction d.name))
  else
    let (store, taken) := CatalogStore.add store d.entries
    let audit : Audit Unit := do
      Audit.reportAll d.body.signature.reports
      taken
      Audit.report (.registered d.name d.entries.length)
    match taken.result with
    | .ok () => ((⟨r.functions.insert d.name d.registration⟩, store), audit)
    | .error _ => ((r, store), audit)

end Registry

end ArrayContract
