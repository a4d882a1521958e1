import ArrayContract.Audit

/-! # Setup routines

A `SetupRoutine` prepares a receiver from keyword arguments, and carries the tags by which calls are
scheduled. It changes the receiver even where it fails. -/

namespace ArrayContract

/-- How the calls of a function may be scheduled. -/
structure ScheduleTags where
  /-- Results for equal arguments may be kept. -/
  cachable : Bool := false
  /-- A category in free form. -/
  category : String := "Abstract"
  /-- Arguments may be put together in batches. -/
  batchable : Bool := true
  deriving DecidableEq, Inhabited

/-- A routine that prepares receivers of type `ρ`. -/
structure SetupRoutine (ρ : Type) where
  routine : ρ → SetupArguments → ρ × Audit Unit
  tags : ScheduleTags := {}

namespace SetupRoutine

variable {ρ : Type}

/-- The routine that does nothing. -/
def noop : SetupRoutine ρ where
  routine receiver _ := (receiver, pure ())

/-- Prepares a receiver: what becomes of it, and whether that succeeded. -/
def call (s : SetupRoutine ρ) (receiver : ρ) (args : SetupArguments) : ρ × Audit Unit :=
  s.routine receiver args

end SetupRoutine

end ArrayContract
