import ArrayContract.Proofs.Argument.Conformance
import ArrayContract.Proofs.Call.Places

/-! # The contract of a call

Checked inputs reach the routine in the number in which they were passed, each of them as declared
at its place, and checked outputs reach the caller as declared (`Delivers`). `Reaches` names the
arguments on which a call runs its routine. -/

namespace ArrayContract

open Outcome

/-- Values at their places: as many come out as go in, each as the declaration at its place says. -/
def Placed (specs : List ArgumentSpec) (vs ws : List Value) : Prop :=
  ws.length = vs.length ∧ ∀ (i : Nat) (v w : Value), vs[i]? = some v → ws[i]? = some w →
    ArgumentSpec.Places specs[i]? v w

theorem placed_of_checkPlaces {d : Direction} {k : Nat} {specs : List ArgumentSpec}
    {vs ws : List Value} (h : (checkPlaces d k specs vs).result = .ok ws) :
    Placed specs vs ws := by
  obtain ⟨hl, ha⟩ := checkPlaces_eq_ok_iff.mp h
  refine ⟨hl, fun i v w hv hw => ?_⟩
  have hi := ha i v w hv hw
  cases hs : specs[i]? with
  | none => rwa [hs] at hi
  | some spec =>
    rw [hs] at hi
    exact ArgumentSpec.places_of_check hi

/-- What the caller gets for a result, given the declared outputs: without any the result, with one
the result at its place, and with more a tuple of the items at theirs. -/
def Delivers (outputs : List ArgumentSpec) (raw out : Value) : Prop :=
  match outputs with
  | [] => out = raw
  | [spec] => ArgumentSpec.Places (some spec) raw out
  | specs => ∃ raws outs, raw = .tuple raws ∧ out = .tuple outs ∧ outs.length = specs.length ∧
      Placed specs raws outs

namespace CheckedRoutine

variable {ρ : Type} {c : CheckedRoutine ρ}

/-- A call with these arguments runs the routine on `ws`. -/
def Reaches (c : CheckedRoutine ρ) (args ws : List Value) : Prop :=
  (c.prepare args).result = .ok ws

theorem placed_of_reaches {args ws : List Value} (hc : c.policy.checkInput = true)
    (h : c.Reaches args ws) : Placed c.signature.inputs args ws := by
  unfold Reaches prepare at h
  split at h
  · dsimp only [checkInputs] at h
    split at h
    · exact nomatch h
    · exact placed_of_checkPlaces (by simpa using h)
  · next hi =>
    -- nothing is declared, and every argument is passed on
    have hn : c.signature.inputs = [] := by simpa [hc] using hi
    rw [hn]
    exact placed_of_checkPlaces (d := .input) (k := 0) (by rwa [checkPlaces_no_specs])

theorem delivers_of_checkOutputs {raw out : Value} (h : (c.checkOutputs raw).result = .ok out) :
    Delivers c.signature.outputs raw out := by
  unfold checkOutputs at h
  split at h
  · next hs =>
    rw [hs]
    exact (Except.ok.inj h).symm
  · next spec hs =>
    rw [hs]
    exact ArgumentSpec.places_of_check (mapError_eq_ok.mp h)
  · next h0 h1 =>
    simp only [Audit.result_bind, Audit.result_wrapFault, Audit.result_ofExcept, bind_eq_ok,
      mapError_eq_ok, Value.toTuple_eq_ok] at h
    obtain ⟨raws, hraw, h⟩ := h
    split at h
    · exact nomatch h
    · next hl =>
      simp only [Audit.result_bind, Audit.result_report, bind_ok, bind_eq_ok] at h
      obtain ⟨outs, houts, ⟨⟩⟩ := h
      have hp := placed_of_checkPlaces houts
      unfold Delivers
      split
      · exact absurd ‹_› h0
      · exact absurd ‹_› (h1 _)
      · exact ⟨raws, outs, hraw, rfl, by rw [hp.1]; exact not_not.mp hl, hp⟩

/-- **The contract of a call.** Whatever the routine, it is run on the arguments that are reached,
and only there. With inputs checked, these are as many as were passed, each as declared at its place
or, without an array's declaration, the one passed; and with outputs checked the caller gets the
routine's result as declared. A side that is not checked is passed on. -/
theorem call_contract (c : CheckedRoutine ρ) (receiver : ρ) (args : List Value) :
    (∀ ws, c.Reaches args ws →
      (c.call receiver args).result =
        (c.routine receiver ws).result.bind fun raw => (c.finish raw).result) ∧
    ((∀ ws, ¬ c.Reaches args ws) → ∃ fault, ∀ (routine : ρ → List Value → Audit Value) r,
      (({ c with routine } : CheckedRoutine ρ).call r args).result = .error fault) ∧
    (∀ ws, c.Reaches args ws →
      if c.policy.checkInput then Placed c.signature.inputs args ws else ws = args) ∧
    ∀ out, (c.call receiver args).result = .ok out → ∃ ws raw, c.Reaches args ws ∧
      (c.routine receiver ws).result = .ok raw ∧
      if c.policy.checkOutput then Delivers c.signature.outputs raw out else out = raw := by
  refine ⟨fun ws h => ?_, fun h => ?_, fun ws h => ?_, fun out h => ?_⟩
  · rw [result_call, show (c.prepare args).result = .ok ws from h, bind_ok]
  · cases hp : (c.prepare args).result with
    | ok ws => exact absurd hp (h ws)
    | error fault =>
      refine ⟨fault, fun routine r => ?_⟩
      rw [result_call, show (CheckedRoutine.prepare { c with routine } args).result = .error fault
        from hp, bind_error]
  · split
    · next hc => exact placed_of_reaches hc h
    · next hc =>
      have hp : (c.prepare args).result = .ok args := by simp [prepare, hc]
      exact Except.ok.inj (h.symm.trans hp)
  · simp only [result_call, bind_eq_ok] at h
    obtain ⟨ws, hws, raw, hraw, hout⟩ := h
    refine ⟨ws, raw, hws, hraw, ?_⟩
    unfold finish at hout
    split at hout
    · next ho => rw [if_pos ho]; exact delivers_of_checkOutputs hout
    · next ho => rw [if_neg ho]; exact (Except.ok.inj hout).symm

/-- A permissive call with more arguments than declared: the first is narrowed, and the second is
passed on. -/
theorem call_contract_permissive :
    let c : CheckedRoutine Unit :=
      { routine := fun _ args => pure (.tuple args)
        signature := ⟨[.array { name := "x", type := .of .int8 }], []⟩
        policy := { arity := .permissive } }
    let args : List Value := [.nested (.list [.int 300, .int (-1)]), .text "rest"]
    let ws : List Value := [.dense ⟨[2], .int8, [44, -1]⟩, .text "rest"]
    c.Reaches args ws ∧ Placed c.signature.inputs args ws := by
  intro c args ws
  have h : c.Reaches args ws := by
    show (c.prepare args).result = .ok ws
    cbv
  exact ⟨h, (call_contract c () args).2.2.1 ws h⟩

end CheckedRoutine

end ArrayContract
