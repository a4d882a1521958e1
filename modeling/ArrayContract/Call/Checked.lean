import ArrayContract.Argument.Basic
import ArrayContract.Call.Policy

/-! # Checked routines

A `CheckedRoutine` is a routine with its signature and its policy. `call` brings every argument to
the declaration at its place, runs the routine, and brings the result to the declared outputs; a
fault of an argument or a result is wrapped with its place, and one of the routine is not. -/

namespace ArrayContract

/-- Brings each value to the declaration at its place, counted from `index`; values without a
declaration are passed on. -/
def checkPlaces (direction : Direction) (index : Nat) :
    List ArgumentSpec → List Value → Audit (List Value)
  | spec :: specs, v :: vs => do
    let w ← (spec.check v).wrapFault (.invalidArgument direction index)
    let ws ← checkPlaces direction (index + 1) specs vs
    pure (w :: ws)
  | _, vs => pure vs

@[simp] theorem checkPlaces_no_specs (direction : Direction) (index : Nat) (vs : List Value) :
    checkPlaces direction index [] vs = pure vs := by
  unfold checkPlaces
  rfl

@[simp] theorem checkPlaces_no_values (direction : Direction) (index : Nat)
    (specs : List ArgumentSpec) : checkPlaces direction index specs [] = pure [] := by
  cases specs <;> rfl

@[simp] theorem result_checkPlaces_cons (direction : Direction) (index : Nat)
    (spec : ArgumentSpec) (specs : List ArgumentSpec) (v : Value) (vs : List Value) :
    (checkPlaces direction index (spec :: specs) (v :: vs)).result =
      ((spec.check v).result.mapError (.invalidArgument direction index)).bind fun w =>
        (checkPlaces direction (index + 1) specs vs).result.map (w :: ·) := by
  rw [checkPlaces]
  simp

/-- A routine over receivers of type `ρ`, with what is declared about its calls. -/
structure CheckedRoutine (ρ : Type) where
  routine : ρ → List Value → Audit Value
  signature : Signature := {}
  policy : CheckPolicy := {}

namespace CheckedRoutine

variable {ρ : Type}

/-- Brings the arguments of a call to the declared inputs. -/
def checkInputs (c : CheckedRoutine ρ) (args : List Value) : Audit (List Value) :=
  let declared := c.signature.inputs.length
  if args.length ≠ declared ∧ c.policy.arity = .strict then
    Audit.fail (.arityMismatch .input declared args.length)
  else do
    Audit.report (.checkingInputs args.length declared)
    checkPlaces .input 0 c.signature.inputs args

/-- Brings the result of a call to the declared outputs: one output is the result itself, and more
are the items of a tuple. -/
def checkOutputs (c : CheckedRoutine ρ) (out : Value) : Audit Value :=
  match c.signature.outputs with
  | [] => pure out
  | [spec] => (spec.check out).wrapFault (.invalidArgument .output 0)
  | specs => do
    let items ← (Audit.ofExcept out.toTuple).wrapFault (.invalidArgument .output 0)
    if items.length ≠ specs.length then
      Audit.fail (.arityMismatch .output specs.length items.length)
    else do
      Audit.report (.checkingOutputs items.length)
      let items ← checkPlaces .output 0 specs items
      pure (.tuple items)

/-- The arguments that reach the routine. -/
def prepare (c : CheckedRoutine ρ) (args : List Value) : Audit (List Value) :=
  if c.policy.checkInput && !c.signature.inputs.isEmpty then c.checkInputs args else pure args

/-- The result that reaches the caller. -/
def finish (c : CheckedRoutine ρ) (out : Value) : Audit Value :=
  if c.policy.checkOutput then c.checkOutputs out else pure out

/-- Calls the routine between the checks that the policy asks for. -/
def call (c : CheckedRoutine ρ) (receiver : ρ) (args : List Value) : Audit Value := do
  let args ← c.prepare args
  let out ← c.routine receiver args
  c.finish out

theorem result_call (c : CheckedRoutine ρ) (receiver : ρ) (args : List Value) :
    (c.call receiver args).result =
      (c.prepare args).result.bind fun ws =>
        (c.routine receiver ws).result.bind fun out => (c.finish out).result := by
  simp [call]

end CheckedRoutine

end ArrayContract
