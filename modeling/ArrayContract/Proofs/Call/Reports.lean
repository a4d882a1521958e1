import ArrayContract.Call.Checked

/-! # What checks report

Among the events two kinds tell of a change that stays: that a store takes in entries
(`Event.added?`), and that a registry takes in a function (`Event.registered?`). Describing arguments
and checking values change nothing of the sort and report neither: all they report is `Quiet`, from
the single cast to the whole call (`CheckedRoutine.quiet_call`), as long as the routine keeps quiet
itself. -/

namespace ArrayContract

/-- The number of entries that a store takes in. -/
def Event.added? : Event → Option Nat
  | addingEntries count => some count
  | _ => none

/-- The function that a registry has taken in, and the number of its entries. -/
def Event.registered? : Event → Option (String × Nat)
  | registered function entries => some (function, entries)
  | _ => none

/-- The numbers of entries that stores take in, one for each addition. -/
def additions (log : List Event) : List Nat := log.filterMap Event.added?

/-- The functions that registries have taken in, with the numbers of their entries. -/
def registrations (log : List Event) : List (String × Nat) := log.filterMap Event.registered?

@[simp] theorem additions_append (log log' : List Event) :
    additions (log ++ log') = additions log ++ additions log' :=
  List.filterMap_append

@[simp] theorem registrations_append (log log' : List Event) :
    registrations (log ++ log') = registrations log ++ registrations log' :=
  List.filterMap_append

/-- Events none of which tells of an addition or a registration. -/
def Quiet (log : List Event) : Prop := additions log = [] ∧ registrations log = []

/-! ## Sequences of quiet steps -/

section Audit

variable {α β : Type}

theorem quiet_nil : Quiet [] := ⟨rfl, rfl⟩

theorem Quiet.append {log log' : List Event} (h : Quiet log) (h' : Quiet log') :
    Quiet (log ++ log') := by
  constructor
  · rw [additions_append, h.1, h'.1]
    rfl
  · rw [registrations_append, h.2, h'.2]
    rfl

theorem Quiet.cons {e : Event} {log : List Event} (he : Quiet [e]) (h : Quiet log) :
    Quiet (e :: log) :=
  he.append h

theorem Audit.quiet_bind {x : Audit α} {f : α → Audit β} (hx : Quiet x.events)
    (hf : ∀ a, Quiet (f a).events) : Quiet (x >>= f).events := by
  rw [events_bind]
  refine hx.append ?_
  cases x.result with
  | ok a => exact hf a
  | error e => exact quiet_nil

/-- A step that reports one quiet event before it goes on. -/
theorem Audit.quiet_report_bind {e : Event} {x : Audit α} (he : Quiet [e]) (hx : Quiet x.events) :
    Quiet (report e >>= fun _ => x).events :=
  quiet_bind he fun _ => hx

/-- A step whose outcome is reported by no event. -/
theorem Audit.quiet_liftM_bind {r : Except Fault α} {f : α → Audit β}
    (hf : ∀ a, Quiet (f a).events) : Quiet ((liftM r : Audit α) >>= f).events :=
  quiet_bind quiet_nil hf

end Audit

/-! ## Casts and shapes -/

theorem DenseArray.quiet_reshape (a : DenseArray) (axes : List Axis) :
    Quiet (a.reshape axes).events :=
  Audit.quiet_liftM_bind fun _ => Audit.quiet_report_bind ⟨rfl, rfl⟩ quiet_nil

theorem DenseArray.quiet_cast (a : DenseArray) (target : DeclaredType) :
    Quiet (a.cast target).events := by
  unfold cast
  split
  · exact quiet_nil
  · exact Audit.quiet_report_bind ⟨rfl, rfl⟩ (Audit.quiet_liftM_bind fun _ => quiet_nil)

theorem Tensor.quiet_reshape (t : Tensor) (axes : List Axis) : Quiet (t.reshape axes).events :=
  Audit.quiet_liftM_bind fun _ => Audit.quiet_report_bind ⟨rfl, rfl⟩ quiet_nil

theorem Tensor.quiet_cast (t : Tensor) (target : DeclaredType) : Quiet (t.cast target).events := by
  unfold cast
  split
  · exact quiet_nil
  · refine Audit.quiet_report_bind ⟨rfl, rfl⟩ ?_
    split
    · split
      · exact quiet_nil
      · exact quiet_nil
    · exact quiet_nil

theorem Backend.quiet_convertType (b : Backend) (v : Value) (target : DeclaredType) :
    Quiet (b.convertType v target).events := by
  rcases b with _ | _
  · exact Audit.quiet_liftM_bind fun a => Audit.quiet_bind (a.quiet_cast target) fun _ => quiet_nil
  · exact Audit.quiet_liftM_bind fun t => Audit.quiet_bind (t.quiet_cast target) fun _ => quiet_nil

theorem Backend.quiet_convertShape (b : Backend) (v : Value) (axes : List Axis) :
    Quiet (b.convertShape v axes).events := by
  rcases b with _ | _
  · exact Audit.quiet_liftM_bind fun a => Audit.quiet_bind (a.quiet_reshape axes) fun _ => quiet_nil
  · exact Audit.quiet_liftM_bind fun t => Audit.quiet_bind (t.quiet_reshape axes) fun _ => quiet_nil

/-! ## Declarations -/

theorem ArraySpec.quiet_checkType (s : ArraySpec) (v : Value) : Quiet (s.checkType v).events := by
  unfold checkType
  split
  · exact quiet_nil
  · exact Audit.quiet_report_bind ⟨rfl, rfl⟩ (s.backend.quiet_convertType v _)

theorem ArraySpec.quiet_checkShape (s : ArraySpec) (v : Value) :
    Quiet (s.checkShape v).events := by
  unfold checkShape
  split
  · exact quiet_nil
  · exact Audit.quiet_report_bind ⟨rfl, rfl⟩ (s.backend.quiet_convertShape v _)

theorem ArgumentSpec.quiet_check (spec : ArgumentSpec) (v : Value) :
    Quiet (spec.check v).events := by
  rcases spec with s | s
  · exact Audit.quiet_bind (s.quiet_checkType v) s.quiet_checkShape
  · exact quiet_nil

theorem ArgumentSpec.quiet_reports (isInput : Bool) (spec : ArgumentSpec) :
    Quiet (spec.reports isInput) := by
  rcases spec with s | s
  · exact quiet_nil
  · exact ⟨rfl, rfl⟩

theorem quiet_flatMap_reports (isInput : Bool) (specs : List ArgumentSpec) :
    Quiet (specs.flatMap (·.reports isInput)) := by
  induction specs with
  | nil => exact quiet_nil
  | cons spec specs ih => exact (spec.quiet_reports isInput).append ih

theorem Signature.quiet_reports (s : Signature) : Quiet s.reports :=
  ((quiet_flatMap_reports true _).append (quiet_flatMap_reports false _)).append ⟨rfl, rfl⟩

/-! ## Calls -/

theorem quiet_checkPlaces (d : Direction) (k : Nat) (specs : List ArgumentSpec) (vs : List Value) :
    Quiet (checkPlaces d k specs vs).events := by
  induction specs generalizing k vs with
  | nil =>
    rw [checkPlaces_no_specs]
    exact quiet_nil
  | cons spec specs ih =>
    rcases vs with _ | ⟨v, vs⟩
    · exact quiet_nil
    · unfold checkPlaces
      exact Audit.quiet_bind (spec.quiet_check v) fun _ =>
        Audit.quiet_bind (ih _ _) fun _ => quiet_nil

namespace CheckedRoutine

variable {ρ : Type}

theorem quiet_prepare (c : CheckedRoutine ρ) (args : List Value) :
    Quiet (c.prepare args).events := by
  unfold prepare
  split
  · dsimp only [checkInputs]
    split
    · exact quiet_nil
    · exact Audit.quiet_report_bind ⟨rfl, rfl⟩ (quiet_checkPlaces _ _ _ _)
  · exact quiet_nil

theorem quiet_checkOutputs (c : CheckedRoutine ρ) (out : Value) :
    Quiet (c.checkOutputs out).events := by
  unfold checkOutputs
  split
  · exact quiet_nil
  · next spec _ => exact spec.quiet_check out
  · refine Audit.quiet_bind quiet_nil fun items => ?_
    split
    · exact quiet_nil
    · exact Audit.quiet_report_bind ⟨rfl, rfl⟩
        (Audit.quiet_bind (quiet_checkPlaces _ _ _ _) fun _ => quiet_nil)

theorem quiet_finish (c : CheckedRoutine ρ) (out : Value) : Quiet (c.finish out).events := by
  unfold finish
  split
  · exact c.quiet_checkOutputs out
  · exact quiet_nil

/-- A call is as quiet as its routine. -/
theorem quiet_call (c : CheckedRoutine ρ) {receiver : ρ}
    (h : ∀ ws, Quiet (c.routine receiver ws).events) (args : List Value) :
    Quiet (c.call receiver args).events :=
  Audit.quiet_bind (c.quiet_prepare args) fun ws => Audit.quiet_bind (h ws) c.quiet_finish

end CheckedRoutine

end ArrayContract
