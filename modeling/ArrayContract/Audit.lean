import ArrayContract.Event
import ArrayContract.Outcome

/-! # Audited computations

An `Audit` is the result of a check, a value or a fault, together with the events reported on the
way. `result` forgets the events and commutes with sequencing (`result_bind`); a step after a fault
is not taken and reports nothing (`events_bind`). -/

namespace ArrayContract

/-- A value or a fault, and what was reported before it. -/
structure Audit (α : Type) where
  result : Except Fault α
  events : List Event

namespace Audit

variable {α β : Type}

instance : Monad Audit where
  pure a := ⟨.ok a, []⟩
  bind x f :=
    match x.result with
    | .ok a =>
      let y := f a
      ⟨y.result, x.events ++ y.events⟩
    | .error e => ⟨.error e, x.events⟩

/-- A result that is reported by no event. -/
def ofExcept (r : Except Fault α) : Audit α := ⟨r, []⟩

instance : MonadLift (Except Fault) Audit where
  monadLift := ofExcept

def fail (fault : Fault) : Audit α := ⟨.error fault, []⟩

/-- Reports an event. -/
def report (event : Event) : Audit Unit := ⟨.ok (), [event]⟩

/-- Reports events in order. -/
def reportAll (events : List Event) : Audit Unit := ⟨.ok (), events⟩

/-- Puts a layer around the fault of a computation. -/
def wrapFault (layer : Fault → Fault) (x : Audit α) : Audit α :=
  ⟨x.result.mapError layer, x.events⟩

@[simp] theorem result_pure (a : α) : (pure a : Audit α).result = .ok a := rfl

@[simp] theorem events_pure (a : α) : (pure a : Audit α).events = [] := rfl

@[simp] theorem result_ofExcept (r : Except Fault α) : (ofExcept r).result = r := rfl

@[simp] theorem events_ofExcept (r : Except Fault α) : (ofExcept r).events = [] := rfl

@[simp] theorem result_liftM (r : Except Fault α) : (liftM r : Audit α).result = r := rfl

@[simp] theorem events_liftM (r : Except Fault α) : (liftM r : Audit α).events = [] := rfl

@[simp] theorem result_fail (e : Fault) : (fail e : Audit α).result = .error e := rfl

@[simp] theorem events_fail (e : Fault) : (fail e : Audit α).events = [] := rfl

@[simp] theorem result_report (e : Event) : (report e).result = .ok () := rfl

@[simp] theorem events_report (e : Event) : (report e).events = [e] := rfl

@[simp] theorem result_reportAll (es : List Event) : (reportAll es).result = .ok () := rfl

@[simp] theorem events_reportAll (es : List Event) : (reportAll es).events = es := rfl

@[simp] theorem result_wrapFault (layer : Fault → Fault) (x : Audit α) :
    (x.wrapFault layer).result = x.result.mapError layer := rfl

@[simp] theorem events_wrapFault (layer : Fault → Fault) (x : Audit α) :
    (x.wrapFault layer).events = x.events := rfl

@[simp] theorem result_bind (x : Audit α) (f : α → Audit β) :
    (x >>= f).result = x.result.bind fun a => (f a).result := by
  cases x with
  | mk r es => cases r <;> rfl

@[simp] theorem result_map (f : α → β) (x : Audit α) : (f <$> x).result = x.result.map f := by
  cases x with
  | mk r es => cases r <;> rfl

@[simp] theorem events_map (f : α → β) (x : Audit α) : (f <$> x).events = x.events := by
  cases x with
  | mk r es => cases r <;> simp [Functor.map]

theorem events_bind (x : Audit α) (f : α → Audit β) :
    (x >>= f).events = x.events ++ match x.result with
      | .ok a => (f a).events
      | .error _ => [] := by
  cases x with
  | mk r es => cases r <;> simp [bind]

@[ext] theorem ext {x y : Audit α} (hr : x.result = y.result) (he : x.events = y.events) :
    x = y := by
  cases x
  cases y
  simp_all

instance : LawfulMonad Audit :=
  LawfulMonad.mk' Audit
    (fun x => by
      cases x with
      | mk r es => cases r <;> simp [Functor.map])
    (fun _ _ => rfl)
    (fun x f g => by
      cases x with
      | mk r es =>
        cases r with
        | error e => rfl
        | ok a =>
          ext1
          · simp [Except.bind]
          · simp only [events_bind, result_bind, Except.bind]
            cases (f a).result <;> simp)

end Audit

end ArrayContract
