import ArrayContract.Proofs.Argument.Idempotence
import ArrayContract.Proofs.Call.Failure

/-! # Calls under different policies

A routine can be called under policies that check one side or the other, or that take another number
of arguments than declared; where two policies have nothing to disagree about, the calls agree
(`modes_agree`). Values that a check accepted are accepted as they are (`Accepted.self`), so that it
makes no difference whether they are checked again. Values behind the last declaration are passed on
(`checkPlaces_append`), and declarations behind the last value are not read (`checkPlaces_take`):
these two are the inductions over the places, and hold of the reports as well as of the result. -/

namespace ArrayContract

open Outcome

variable {d : Direction} {k : Nat} {specs : List ArgumentSpec} {vs ws : List Value}

/-! ## Places -/

/-- What a check made of some values it leaves alone. -/
theorem Accepted.self (h : Accepted specs vs ws) : Accepted specs ws ws := by
  refine ⟨rfl, fun i w w' hw hw' => ?_⟩
  obtain rfl := Option.some.inj (hw.symm.trans hw')
  have hi : i < vs.length := h.1 ▸ (List.getElem?_eq_some_iff.mp hw).1
  have hc := h.2 i vs[i] w (List.getElem?_eq_getElem hi) hw
  split
  · next spec hs =>
    rw [hs] at hc
    rcases spec with s | t
    · exact ArraySpec.check_of_check hc
    · rfl
  · rfl

theorem checkPlaces_append (h : specs.length ≤ vs.length) (extra : List Value) :
    checkPlaces d k specs (vs ++ extra) = (· ++ extra) <$> checkPlaces d k specs vs := by
  induction vs generalizing specs k with
  | nil =>
    obtain rfl : specs = [] := List.eq_nil_of_length_eq_zero (Nat.le_zero.mp h)
    simp
  | cons v vs ih =>
    rcases specs with _ | ⟨spec, specs⟩
    · simp
    · rw [List.cons_append, checkPlaces, checkPlaces, ih (Nat.le_of_succ_le_succ h)]
      simp

theorem checkPlaces_take (d : Direction) (k : Nat) (specs : List ArgumentSpec) (vs : List Value) :
    checkPlaces d k (specs.take vs.length) vs = checkPlaces d k specs vs := by
  induction vs generalizing specs k with
  | nil => simp
  | cons v vs ih =>
    rcases specs with _ | ⟨spec, specs⟩
    · simp
    · rw [List.length_cons, List.take_succ_cons, checkPlaces, checkPlaces, ih]

namespace CheckedRoutine

variable {ρ : Type} {c : CheckedRoutine ρ} {args : List Value} {raw out : Value}

/-! ## Policies -/

/-- The routine with its inputs checked, or not. -/
def withInputCheck (c : CheckedRoutine ρ) (checkInput : Bool) : CheckedRoutine ρ :=
  { c with policy := { c.policy with checkInput } }

/-- The routine with its outputs checked, or not. -/
def withOutputCheck (c : CheckedRoutine ρ) (checkOutput : Bool) : CheckedRoutine ρ :=
  { c with policy := { c.policy with checkOutput } }

/-- The routine with another treatment of the number of arguments. -/
def withArity (c : CheckedRoutine ρ) (arity : Arity) : CheckedRoutine ρ :=
  { c with policy := { c.policy with arity } }

/-- The routine with other inputs declared. -/
def withInputs (c : CheckedRoutine ρ) (inputs : List ArgumentSpec) : CheckedRoutine ρ :=
  { c with signature := { c.signature with inputs } }

theorem arityFits_permissive (c : CheckedRoutine ρ) (args : List Value) :
    (c.withArity .permissive).ArityFits args := by
  rintro ⟨⟩

/-! ## Arguments that are checked already -/

theorem Receives.self (h : c.Receives args ws) : c.Receives ws ws := by
  rcases h with ⟨hc, ha, hw⟩ | ⟨hc, -⟩
  · exact Or.inl ⟨hc, fun hs => hw.1.trans (ha hs), hw.self⟩
  · exact Or.inr ⟨hc, rfl⟩

/-- What the check of the inputs gives is what the routine is run on. -/
theorem prepare_eq_ok_of_checkInputs (h : (c.checkInputs args).result = .ok ws) :
    ((c.withInputCheck true).prepare args).result = .ok ws := by
  by_cases hc : (c.withInputCheck true).ChecksInputs
  · rw [prepare_of_checksInputs hc]
    exact h
  · -- nothing is declared, so that the check has passed the arguments on
    have hs : c.signature.inputs = [] := by
      by_contra hne
      exact hc ⟨rfl, hne⟩
    by_cases ha : c.ArityFits args
    · rw [result_checkInputs_of_arityFits ha, hs, checkPlaces_no_specs] at h
      rw [prepare_of_not_checksInputs hc]
      exact h
    · rw [(result_checkInputs_of_not_arityFits ha).2.2] at h
      cases h

theorem result_call_of_prepare (r : ρ) (h : (c.prepare args).result = .ok ws) :
    (c.call r args).result = ((c.withInputCheck false).call r ws).result := by
  rw [result_call, result_call, h]
  rfl

/-! ## The number of arguments -/

/-- With as many arguments as declared, nobody asks what becomes of another number. -/
theorem prepare_withArity (h : args.length = c.signature.inputs.length) (a b : Arity) :
    (c.withArity a).prepare args = (c.withArity b).prepare args := by
  have hin : ∀ arity, (c.withArity arity).checkInputs args = (do
      Audit.report (.checkingInputs args.length c.signature.inputs.length)
      checkPlaces .input 0 c.signature.inputs args) :=
    fun arity => if_neg fun hn => hn.1 h
  unfold prepare
  rw [hin a, hin b]
  rfl

theorem result_checkInputs_permissive (c : CheckedRoutine ρ) (args : List Value) :
    ((c.withArity .permissive).checkInputs args).result =
      (checkPlaces .input 0 c.signature.inputs args).result :=
  result_checkInputs_of_arityFits (arityFits_permissive c args)

/-- A permissive check of the inputs is that of the places, also where nothing is declared and none
is made. -/
theorem result_prepare_permissive (c : CheckedRoutine ρ) (args : List Value) :
    ((c.withArity .permissive).prepare args).result =
      if c.policy.checkInput then (checkPlaces .input 0 c.signature.inputs args).result
      else .ok args := by
  by_cases h : (c.withArity .permissive).ChecksInputs
  · have hc : c.policy.checkInput = true := h.1
    rw [prepare_of_checksInputs h, result_checkInputs_permissive, if_pos hc]
  · rw [prepare_of_not_checksInputs h, Audit.result_pure]
    split
    · next hc =>
      have hs : c.signature.inputs = [] := by
        by_contra hne
        exact h ⟨hc, hne⟩
      rw [hs, checkPlaces_no_specs, Audit.result_pure]
    · rfl

section Surplus

variable {inputs : List ArgumentSpec}

/-- Declarations with the same beginning make the same of so many values. -/
theorem checkPlaces_of_take_eq (h : inputs.take args.length = specs.take args.length) :
    checkPlaces d k inputs args = checkPlaces d k specs args := by
  rw [← checkPlaces_take, h, checkPlaces_take]

theorem result_checkInputs_withInputs
    (h : inputs.take args.length = c.signature.inputs.take args.length) :
    (((c.withInputs inputs).withArity .permissive).checkInputs args).result =
      ((c.withArity .permissive).checkInputs args).result := by
  rw [result_checkInputs_permissive, result_checkInputs_permissive]
  exact congrArg Audit.result (checkPlaces_of_take_eq h)

theorem result_call_withInputs (r : ρ)
    (h : inputs.take args.length = c.signature.inputs.take args.length) :
    (((c.withInputs inputs).withArity .permissive).call r args).result =
      ((c.withArity .permissive).call r args).result := by
  have hprep : (((c.withInputs inputs).withArity .permissive).prepare args).result =
      ((c.withArity .permissive).prepare args).result := by
    rw [result_prepare_permissive, result_prepare_permissive]
    show (if c.policy.checkInput then (checkPlaces .input 0 inputs args).result else _) = _
    rw [checkPlaces_of_take_eq h]
  rw [result_call, result_call, hprep]
  rfl

end Surplus

/-! ## Results that are checked already -/

/-- What a check of the outputs made of a result it leaves alone. -/
theorem checkOutputs_of_checkOutputs (h : (c.checkOutputs raw).result = .ok out) :
    (c.checkOutputs out).result = .ok out := by
  rcases hs : c.signature.outputs with _ | ⟨spec, _ | ⟨spec', specs⟩⟩
  · simp [checkOutputs, hs]
  · have hone : ∀ v, (c.checkOutputs v).result =
        (spec.check v).result.mapError (.invalidArgument .output 0) := by
      intro v
      simp [checkOutputs, hs]
    rw [hone, mapError_eq_ok] at h ⊢
    have ha : Accepted [spec] [raw] [out] :=
      accepted_cons.mpr ⟨out, [], h, accepted_no_specs.mpr rfl, rfl⟩
    exact ha.self.2 0 out out rfl rfl
  · have hl : 2 ≤ c.signature.outputs.length := by simp [hs]
    rw [checkOutputs_of_two_le hl, bind_eq_ok] at h ⊢
    obtain ⟨items, -, h⟩ := h
    split at h
    · next hlen =>
      obtain ⟨ws, hws, rfl⟩ := map_eq_ok.mp h
      have ha := checkPlaces_eq_ok_iff.mp hws
      refine ⟨ws, rfl, ?_⟩
      rw [if_pos (ha.1.trans hlen), checkPlaces_eq_ok_iff.mpr ha.self, map_ok]
    · cases h

/-- The check of the outputs can be left out where it would change nothing. -/
theorem result_call_withOutputCheck (r : ρ)
    (h : ∀ ws raw, (c.prepare args).result = .ok ws → (c.routine r ws).result = .ok raw →
      (c.checkOutputs raw).result = .ok raw) :
    ((c.withOutputCheck true).call r args).result =
      ((c.withOutputCheck false).call r args).result := by
  rw [result_call, result_call]
  show (c.prepare args).result.bind _ = (c.prepare args).result.bind _
  cases hp : (c.prepare args).result with
  | error fault => rfl
  | ok ws =>
    rw [bind_ok, bind_ok]
    show (c.routine r ws).result.bind _ = (c.routine r ws).result.bind _
    cases hr : (c.routine r ws).result with
    | error fault => rfl
    | ok raw => exact h ws raw hp hr

/-! ## Agreement -/

/-- **Policies agree where they overlap.** The arguments that an input check accepts can be passed
unchecked instead, or be passed checked once more. With as many arguments as declared, a strict call
is a permissive one. A permissive check passes on what is behind the last declaration, and does not
read a declaration behind the last argument. A routine that returns what the output check leaves
alone, as it does all that it gives, can do without that check. -/
theorem modes_agree (c : CheckedRoutine ρ) (r : ρ) (args : List Value) :
    ((∀ ws, (c.checkInputs args).result = .ok ws →
        ((c.withInputCheck true).prepare args).result = .ok ws) ∧
      ∀ ws, ((c.withInputCheck true).prepare args).result = .ok ws →
        ((c.withInputCheck true).call r args).result =
          ((c.withInputCheck false).call r ws).result ∧
        ((c.withInputCheck true).call r args).result =
          ((c.withInputCheck true).call r ws).result) ∧
    (args.length = c.signature.inputs.length →
      (c.withArity .strict).call r args = (c.withArity .permissive).call r args) ∧
    (c.signature.inputs.length ≤ args.length → ∀ extra,
      ((c.withArity .permissive).checkInputs (args ++ extra)).result =
        ((c.withArity .permissive).checkInputs args).result.map (· ++ extra)) ∧
    (∀ inputs, inputs.take args.length = c.signature.inputs.take args.length →
      (((c.withInputs inputs).withArity .permissive).checkInputs args).result =
        ((c.withArity .permissive).checkInputs args).result ∧
      (((c.withInputs inputs).withArity .permissive).call r args).result =
        ((c.withArity .permissive).call r args).result) ∧
    ((∀ ws raw, (c.prepare args).result = .ok ws → (c.routine r ws).result = .ok raw →
        (c.checkOutputs raw).result = .ok raw) →
      ((c.withOutputCheck true).call r args).result =
        ((c.withOutputCheck false).call r args).result) ∧
    ∀ raw out, (c.checkOutputs raw).result = .ok out → (c.checkOutputs out).result = .ok out := by
  refine ⟨⟨fun ws => prepare_eq_ok_of_checkInputs, fun ws h => ?_⟩, fun hl => ?_,
    fun hl extra => ?_,
    fun inputs hi => ⟨result_checkInputs_withInputs hi, result_call_withInputs r hi⟩,
    result_call_withOutputCheck r, fun raw out => checkOutputs_of_checkOutputs⟩
  · have hws : ((c.withInputCheck true).prepare ws).result = .ok ws :=
      prepare_eq_ok_iff.mpr (prepare_eq_ok_iff.mp h).self
    have hoff := result_call_of_prepare r h
    exact ⟨hoff, hoff.trans (result_call_of_prepare r hws).symm⟩
  · unfold call
    rw [prepare_withArity hl .strict .permissive]
    rfl
  · rw [result_checkInputs_permissive, result_checkInputs_permissive, checkPlaces_append hl,
      Audit.result_map]

/-- A narrowed argument is not narrowed again, and a third argument is passed on by a permissive
check of two. -/
theorem modes_agree_surplus :
    let c : CheckedRoutine Unit :=
      { routine := fun _ args => pure (.tuple args)
        signature := ⟨[.array { name := "x", type := .of .int8 }, .array { name := "y" }], []⟩ }
    let args : List Value := [.nested (.list [.int 300, .int (-1)]), .text "y"]
    let ws : List Value := [.dense ⟨[2], .int8, [44, -1]⟩, .text "y"]
    (c.checkInputs args).result = .ok ws ∧
      ((c.withInputCheck true).call () args).result = .ok (.tuple ws) ∧
      ((c.withInputCheck true).call () ws).result = .ok (.tuple ws) ∧
      ((c.withArity .permissive).checkInputs (args ++ [.handle 0])).result =
        .ok (ws ++ [.handle 0]) := by
  intro c args ws
  have h : (c.checkInputs args).result = .ok ws := rfl
  obtain ⟨⟨reached, again⟩, -, surplus, -⟩ := modes_agree c () args
  obtain ⟨hoff, hon⟩ := again ws (reached ws h)
  have hcall : ((c.withInputCheck true).call () args).result = .ok (.tuple ws) := hoff
  exact ⟨h, hcall, hon.symm.trans hcall, surplus (Nat.le_refl 2) [.handle 0]⟩

end CheckedRoutine

end ArrayContract
