import ArrayContract.Proofs.Call.Places

/-! # How a call fails

A call fails in three stages, each of which is taken only if the ones before went well: the check of
the inputs (`InputFault`), the routine, and the check of the outputs (`OutputFault`). Within a check
the number of values comes before the values, and of these the first that its declaration refuses
names the fault. `call_eq_error_iff` says that `Fails`, which lists these cases, is exactly how a
call fails. -/

namespace ArrayContract

open Outcome

variable {v : Value} {args ws : List Value} {raw : Value} {fault e : Fault}

/-! ## The cases -/

/-- How a result is refused, given the declared outputs: one of them is the undivided result, and
more are the items of a tuple, whose number is never left to the policy. -/
inductive OutputFault (specs : List ArgumentSpec) (raw : Value) : Fault → Prop
  | result {spec : ArgumentSpec} (one : specs = [spec]) {e : Fault}
      (refused : (spec.check raw).result = .error e) :
      OutputFault specs raw (.invalidArgument .output 0 e)
  | undivided (more : 2 ≤ specs.length) (undivided : ∀ items, raw ≠ .tuple items) :
      OutputFault specs raw (.invalidArgument .output 0
        (.unsupportedRepresentation .tuple (.representation raw.representation)))
  | arity (more : 2 ≤ specs.length) {items : List Value} (divided : raw = .tuple items)
      (other : items.length ≠ specs.length) :
      OutputFault specs raw (.arityMismatch .output specs.length items.length)
  | item (more : 2 ≤ specs.length) {items : List Value} (divided : raw = .tuple items)
      (fits : items.length = specs.length) {i : Nat} {e : Fault}
      (first : FirstRefused specs items i e) :
      OutputFault specs raw (.invalidArgument .output i e)

namespace CheckedRoutine

variable {ρ : Type} {c : CheckedRoutine ρ}

/-- The inputs are checked: the policy says so, and there are declarations to check against. -/
def ChecksInputs (c : CheckedRoutine ρ) : Prop :=
  c.policy.checkInput = true ∧ c.signature.inputs ≠ []

/-- The number of arguments is no reason to refuse a call. -/
def ArityFits (c : CheckedRoutine ρ) (args : List Value) : Prop :=
  c.policy.arity = .strict → args.length = c.signature.inputs.length

/-- The routine is run on `ws`: the arguments as they are accepted, or as they are passed if they
are not checked. -/
def Receives (c : CheckedRoutine ρ) (args ws : List Value) : Prop :=
  (c.ChecksInputs ∧ c.ArityFits args ∧ Accepted c.signature.inputs args ws) ∨
    (¬ c.ChecksInputs ∧ ws = args)

/-- How the inputs are refused. -/
inductive InputFault (c : CheckedRoutine ρ) (args : List Value) : Fault → Prop
  | arity (checked : c.ChecksInputs) (strict : c.policy.arity = .strict)
      (other : args.length ≠ c.signature.inputs.length) :
      InputFault c args (.arityMismatch .input c.signature.inputs.length args.length)
  | value (checked : c.ChecksInputs) (fits : c.ArityFits args) {i : Nat} {e : Fault}
      (first : FirstRefused c.signature.inputs args i e) :
      InputFault c args (.invalidArgument .input i e)

/-- How a call fails: a fault of the inputs, else one of the routine, which is left as it is, and
else one of the outputs. -/
inductive Fails (c : CheckedRoutine ρ) (receiver : ρ) (args : List Value) (fault : Fault) : Prop
  | input (refused : c.InputFault args fault)
  | routine {ws : List Value} (run : c.Receives args ws)
      (failed : (c.routine receiver ws).result = .error fault)
  | output {ws : List Value} {raw : Value} (run : c.Receives args ws)
      (returned : (c.routine receiver ws).result = .ok raw)
      (checked : c.policy.checkOutput = true) (refused : OutputFault c.signature.outputs raw fault)

/-! ## The check of the inputs -/

theorem prepare_of_checksInputs (h : c.ChecksInputs) (args : List Value) :
    c.prepare args = c.checkInputs args := by
  simp [prepare, h.1, h.2]

theorem prepare_of_not_checksInputs (h : ¬ c.ChecksInputs) (args : List Value) :
    c.prepare args = pure args := by
  unfold prepare
  rw [if_neg]
  intro hc
  rw [Bool.and_eq_true, Bool.not_eq_true', List.isEmpty_eq_false_iff] at hc
  exact h hc

theorem result_checkInputs_of_arityFits (h : c.ArityFits args) :
    (c.checkInputs args).result = (checkPlaces .input 0 c.signature.inputs args).result := by
  have hn : ¬ (args.length ≠ c.signature.inputs.length ∧ c.policy.arity = .strict) :=
    fun ⟨hl, hs⟩ => hl (h hs)
  simp [checkInputs, hn]

theorem result_checkInputs_of_not_arityFits (h : ¬ c.ArityFits args) :
    c.policy.arity = .strict ∧ args.length ≠ c.signature.inputs.length ∧
      (c.checkInputs args).result =
        .error (.arityMismatch .input c.signature.inputs.length args.length) := by
  obtain ⟨hs, hl⟩ := Classical.not_imp.mp h
  exact ⟨hs, hl, by simp [checkInputs, hs, hl]⟩

theorem prepare_eq_ok_iff : (c.prepare args).result = .ok ws ↔ c.Receives args ws := by
  by_cases hc : c.ChecksInputs
  · rw [prepare_of_checksInputs hc]
    by_cases ha : c.ArityFits args
    · simp [Receives, result_checkInputs_of_arityFits ha, checkPlaces_eq_ok_iff, hc, ha]
    · simp [Receives, (result_checkInputs_of_not_arityFits ha).2.2, hc, ha]
  · rw [prepare_of_not_checksInputs hc]
    simp [Receives, hc, eq_comm]

theorem prepare_eq_error_iff :
    (c.prepare args).result = .error fault ↔ c.InputFault args fault := by
  by_cases hc : c.ChecksInputs
  · rw [prepare_of_checksInputs hc]
    by_cases ha : c.ArityFits args
    · rw [result_checkInputs_of_arityFits ha, checkPlaces_eq_error_iff]
      constructor
      · rintro ⟨i, e, h, rfl⟩
        rw [Nat.zero_add]
        exact .value hc ha h
      · rintro (⟨-, hs, hl⟩ | ⟨-, -, h⟩)
        · exact absurd (ha hs) hl
        · exact ⟨_, _, h, by rw [Nat.zero_add]⟩
    · obtain ⟨hs, hl, he⟩ := result_checkInputs_of_not_arityFits ha
      rw [he]
      constructor
      · rintro ⟨⟩
        exact .arity hc hs hl
      · rintro (_ | ⟨-, ha', -⟩)
        · rfl
        · exact absurd ha' ha
  · rw [prepare_of_not_checksInputs hc]
    constructor
    · rintro ⟨⟩
    · rintro (⟨hc', -, -⟩ | ⟨hc', -, -⟩) <;> exact absurd hc' hc

/-! ## The check of the outputs -/

theorem checkOutputs_of_two_le (h : 2 ≤ c.signature.outputs.length) (raw : Value) :
    (c.checkOutputs raw).result =
      (raw.toTuple.mapError (.invalidArgument .output 0)).bind fun items =>
        if items.length = c.signature.outputs.length then
          (checkPlaces .output 0 c.signature.outputs items).result.map .tuple
        else .error (.arityMismatch .output c.signature.outputs.length items.length) := by
  unfold checkOutputs
  split
  · next h0 => simp [h0] at h
  · next h1 => simp [h1] at h
  · rw [Audit.result_bind, Audit.result_wrapFault, Audit.result_ofExcept]
    congr 1
    funext items
    by_cases hl : items.length = c.signature.outputs.length <;> simp [hl]

theorem toTuple_eq_error_iff : raw.toTuple = .error e ↔ (∀ items, raw ≠ .tuple items) ∧
    e = .unsupportedRepresentation .tuple (.representation raw.representation) := by
  cases raw <;> simp [Value.toTuple, eq_comm]

theorem checkOutputs_eq_error_iff : (c.checkOutputs raw).result = .error fault ↔
    OutputFault c.signature.outputs raw fault := by
  rcases hs : c.signature.outputs with _ | ⟨spec, _ | ⟨spec', specs⟩⟩
  · -- nothing is declared, and nothing is refused
    rw [show c.checkOutputs raw = pure raw by simp [checkOutputs, hs]]
    constructor
    · rintro ⟨⟩
    · rintro (⟨h, -⟩ | ⟨h, -⟩ | ⟨h, -, -⟩ | ⟨h, -, -, -⟩) <;> exact nomatch h
  · rw [show (c.checkOutputs raw).result =
      (spec.check raw).result.mapError (.invalidArgument .output 0) by simp [checkOutputs, hs],
      mapError_eq_error]
    constructor
    · rintro ⟨e, he, rfl⟩
      exact .result rfl he
    · rintro (⟨⟨⟩, he⟩ | ⟨h, -⟩ | ⟨h, -, -⟩ | ⟨h, -, -, -⟩)
      · exact ⟨_, he, rfl⟩
      all_goals exact absurd h (by simp)
  · have hl : 2 ≤ c.signature.outputs.length := by simp [hs]
    rw [checkOutputs_of_two_le hl, ← hs, bind_eq_error, mapError_eq_error]
    simp only [mapError_eq_ok, Value.toTuple_eq_ok, toTuple_eq_error_iff]
    constructor
    · rintro (⟨_, ⟨hn, rfl⟩, rfl⟩ | ⟨items, rfl, h⟩)
      · exact .undivided hl hn
      · split at h
        · next hn =>
          rw [map_eq_error, checkPlaces_eq_error_iff] at h
          obtain ⟨i, e, hf, rfl⟩ := h
          rw [Nat.zero_add]
          exact .item hl rfl hn hf
        · next hn =>
          obtain rfl := Except.error.inj h
          exact .arity hl rfl hn
    · rintro (⟨h, -⟩ | ⟨-, hn⟩ | ⟨-, rfl, hn⟩ | ⟨-, rfl, hn, hf⟩)
      · simp [h] at hl
      · exact Or.inl ⟨_, ⟨hn, rfl⟩, rfl⟩
      · exact Or.inr ⟨_, rfl, if_neg hn⟩
      · refine Or.inr ⟨_, rfl, ?_⟩
        rw [if_pos hn, map_eq_error, checkPlaces_eq_error_iff]
        exact ⟨_, _, hf, by rw [Nat.zero_add]⟩

theorem finish_eq_error_iff : (c.finish raw).result = .error fault ↔
    c.policy.checkOutput = true ∧ OutputFault c.signature.outputs raw fault := by
  unfold finish
  split
  · next h => simp [h, checkOutputs_eq_error_iff]
  · next h => simp [h]

/-! ## The call -/

/-- A call whose inputs are refused does not run its routine: with any other routine and receiver it
gives the same fault, and reports the same events. -/
theorem call_of_inputFault (h : c.InputFault args fault) (routine : ρ → List Value → Audit Value)
    (r : ρ) :
    ({ c with routine } : CheckedRoutine ρ).call r args =
      ⟨.error fault, (c.prepare args).events⟩ := by
  have hp : (CheckedRoutine.prepare { c with routine } args).result = .error fault := by
    show (c.prepare args).result = .error fault
    exact prepare_eq_error_iff.mpr h
  ext1
  · rw [result_call, hp, bind_error]
  · unfold call
    rw [Audit.events_bind, hp, List.append_nil]
    rfl

/-- **How a call fails.** Whatever the routine, a call fails exactly as `Fails` lists: with a fault
of the inputs, else with one of the routine on the arguments it receives, else with one of the
outputs; and otherwise it returns. Refused inputs keep the routine from being run. -/
theorem call_eq_error_iff (c : CheckedRoutine ρ) (receiver : ρ) (args : List Value) :
    (∀ fault, (c.call receiver args).result = .error fault ↔ c.Fails receiver args fault) ∧
    ((∃ out, (c.call receiver args).result = .ok out) ↔ ∀ fault, ¬ c.Fails receiver args fault) ∧
    ∀ fault, c.InputFault args fault → ∀ (routine : ρ → List Value → Audit Value) (r : ρ),
      ({ c with routine } : CheckedRoutine ρ).call r args =
        ⟨.error fault, (c.call receiver args).events⟩ := by
  have herr : ∀ fault, (c.call receiver args).result = .error fault ↔
      c.Fails receiver args fault := by
    intro fault
    simp only [result_call, bind_eq_error, prepare_eq_error_iff, prepare_eq_ok_iff,
      finish_eq_error_iff]
    constructor
    · rintro (h | ⟨ws, hw, h | ⟨raw, hr, ho, h⟩⟩)
      · exact .input h
      · exact .routine hw h
      · exact .output hw hr ho h
    · rintro (h | ⟨hw, h⟩ | ⟨hw, hr, ho, h⟩)
      · exact Or.inl h
      · exact Or.inr ⟨_, hw, Or.inl h⟩
      · exact Or.inr ⟨_, hw, Or.inr ⟨_, hr, ho, h⟩⟩
  refine ⟨herr, ?_, fun fault h routine r => ?_⟩
  · simp only [← herr]
    cases (c.call receiver args).result <;> simp
  · rw [call_of_inputFault h,
      show c.call receiver args = _ from call_of_inputFault h c.routine receiver]

/-- Of two arguments that are refused the first counts, and the routine is not run. -/
theorem call_eq_error_iff_second_place :
    let c : CheckedRoutine Unit :=
      { routine := fun _ _ => Audit.fail (.execution "stopped")
        signature := ⟨[.array { name := "x", shape := .axes [.any] },
          .array { name := "y", type := .of .int8 }, .array { name := "z", type := .of .int8 }], []⟩
        policy := { arity := .permissive } }
    let args : List Value := [.nested (.list [.int 1]), .text "y", .handle 0, .text "rest"]
    let fault : Fault := .invalidArgument .input 1
      (.unsupportedRepresentation (.native .host) (.representation .text))
    c.InputFault args fault ∧ c.Fails () args fault ∧
      ({ c with routine := fun _ _ => pure (.handle 1) } : CheckedRoutine Unit).call () args =
        ⟨.error fault, (c.call () args).events⟩ := by
  intro c args fault
  have h : c.InputFault args fault := prepare_eq_error_iff.mp rfl
  obtain ⟨hf, -, hr⟩ := call_eq_error_iff c () args
  exact ⟨h, (hf fault).mp rfl, hr fault h _ ()⟩

end CheckedRoutine

end ArrayContract
