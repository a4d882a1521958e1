import ArrayContract.Proofs.Call.Reports
import ArrayContract.Proofs.Function.Registry
import Mathlib.Algebra.Ring.Nat

/-! # What the log says of registrations

A registry and a store in memory serve steps of every kind, and what they report is put into one
log. A step may reach the store through a bound, which refuses entries before the store is asked.
Whatever a step does, it does one of three things (`Service.step_cases`): it is quiet and changes
nothing, or it adds some entries and reports their number, or it takes in a function and reports
that as well. So the log stays faithful to what is held (`Faithful.step`, `Faithful.run`): the store
can be counted, and the registry can be listed, from the log alone. -/

namespace ArrayContract

/-! ## A store behind a bound -/

namespace MemoryStore

/-- The store as it is reached through a bound, if there is one. -/
def behind (store : MemoryStore) : Option Nat → MemoryStore ⊕ BoundedStore
  | none => .inl store
  | some capacity => .inr ⟨capacity, store⟩

/-- The store that is reached. -/
def reached : MemoryStore ⊕ BoundedStore → MemoryStore
  | .inl store => store
  | .inr bounded => bounded.store

variable (store : MemoryStore) (bound : Option Nat)

@[simp] theorem reached_behind : reached (store.behind bound) = store := by
  cases bound <;> rfl

/-- Entries are taken and counted, or they are refused before the store is asked. -/
theorem add_behind (new : List CatalogEntry) :
    CatalogStore.add (store.behind bound) new =
      ((store.add new).1.behind bound, Audit.report (.addingEntries new.length)) ∨
    CatalogStore.add (store.behind bound) new =
      (store.behind bound, Audit.fail (.execution "store full")) := by
  rcases bound with _ | capacity
  · exact Or.inl rfl
  · by_cases full : capacity < store.held.length + new.length
    · exact Or.inr (by simp [behind, CatalogStore.add, BoundedStore.add, full])
    · exact Or.inl (by simp [behind, CatalogStore.add, BoundedStore.add, add, full])

end MemoryStore

/-! ## Steps -/

/-- What a registry and a store are used for. -/
inductive Step
  /-- A function is registered. -/
  | register {ρ : Type} (function : Definition ρ) (bound : Option Nat)
  /-- The entries of a function are added past the registry. -/
  | add {ρ : Type} (function : Definition ρ) (bound : Option Nat)
  /-- A signature is described. -/
  | describe (signature : Signature)
  /-- One argument is described. -/
  | describeArgument (isInput : Bool) (spec : ArgumentSpec)
  /-- A receiver is set up. -/
  | instantiate {ρ : Type} (function : Definition ρ) (receiver : ρ) (args : SetupArguments)
  /-- A function is called. -/
  | call {ρ : Type} (function : Instance ρ) (args : List Value)

/-- The routine that a step runs, if any, does not itself report that a store or a registry takes
something in: whatever it may do with others, this store and this registry are served by steps
only. -/
def Step.Discreet : Step → Prop
  | instantiate d receiver args => Quiet (d.setup.call receiver args).2.events
  | call i _ => ∀ ws, Quiet (i.definition.body.routine i.receiver ws).events
  | _ => True

/-- A registry, and the store its entries go to. -/
structure Service where
  registry : Registry := {}
  store : MemoryStore := {}

namespace Service

/-- One step: what becomes of registry and store, and what is reported. -/
def step (w : Service) : Step → Service × Audit Unit
  | .register d bound =>
    let ((registry, store), done) := w.registry.register d (w.store.behind bound)
    (⟨registry, MemoryStore.reached store⟩, done)
  | .add d bound =>
    let (store, done) := d.register (w.store.behind bound)
    (⟨w.registry, MemoryStore.reached store⟩, done)
  | .describe s => (w, (fun _ => ()) <$> s.describe)
  | .describeArgument isInput spec => (w, Audit.reportAll (spec.reports isInput))
  | .instantiate d receiver args => (w, (fun _ => ()) <$> d.instantiate receiver args)
  | .call i args => (w, (fun _ => ()) <$> i.call args)

/-- Steps in order, with the log of all that is reported. -/
def run (w : Service) : List Step → Service × List Event
  | [] => (w, [])
  | s :: ss => ((run (w.step s).1 ss).1, (w.step s).2.events ++ (run (w.step s).1 ss).2)

/-! ### One step -/

variable {ρ : Type} (w : Service)

/-- A known function is refused before anything is reported. -/
theorem step_register_of_known {d : Definition ρ} (h : w.registry.contains d.name = true)
    (bound : Option Nat) :
    w.step (.register d bound) = (w, Audit.fail (.duplicateFunction d.name)) := by
  simp [step, Registry.register_of_known h]

/-- How a request to register a function ends, and what it reports. -/
theorem step_register_cases (d : Definition ρ) (bound : Option Nat) :
    (w.registry.contains d.name = true ∧
      w.step (.register d bound) = (w, Audit.fail (.duplicateFunction d.name))) ∨
    (w.registry.contains d.name = false ∧
      (w.step (.register d bound)).1 =
        ⟨w.registry.insert d.registration, (w.store.add d.entries).1⟩ ∧
      (w.step (.register d bound)).2 = ⟨.ok (), d.body.signature.reports ++
        [.addingEntries d.entries.length, .registered d.name d.entries.length]⟩) ∨
    (w.registry.contains d.name = false ∧
      w.step (.register d bound) =
        (w, ⟨.error (.execution "store full"), d.body.signature.reports⟩)) := by
  cases hk : w.registry.contains d.name with
  | true => exact Or.inl ⟨rfl, w.step_register_of_known hk bound⟩
  | false =>
    rcases w.store.add_behind bound d.entries with ha | ha
    · refine Or.inr (Or.inl ⟨rfl, ?_, ?_⟩)
      · simp [step, Registry.register, hk, ha, Registry.insert, Definition.registration]
      · ext1 <;> simp [step, Registry.register, hk, ha, Audit.events_bind, Except.bind]
    · refine Or.inr (Or.inr ⟨rfl, ?_⟩)
      refine Prod.ext ?_ ?_
      · simp [step, Registry.register, hk, ha]
      · ext1 <;> simp [step, Registry.register, hk, ha, Audit.events_bind, Except.bind]

/-- How a request to add the entries of a function ends, and what it reports. -/
theorem step_add_cases (d : Definition ρ) (bound : Option Nat) :
    ((w.step (.add d bound)).1 = ⟨w.registry, (w.store.add d.entries).1⟩ ∧
      (w.step (.add d bound)).2.events = .registeringEntries d.name ::
        (d.body.signature.reports ++ [.addingEntries d.entries.length])) ∨
    ((w.step (.add d bound)).1 = w ∧
      (w.step (.add d bound)).2.events =
        .registeringEntries d.name :: d.body.signature.reports) := by
  rcases w.store.add_behind bound d.entries with ha | ha
  · exact Or.inl ⟨by simp [step, Definition.register, ha],
      by simp [step, Definition.register, ha, Audit.events_bind]⟩
  · exact Or.inr ⟨by simp [step, Definition.register, ha],
      by simp [step, Definition.register, ha, Audit.events_bind]⟩

/-- **What a step can do.** -/
theorem step_cases {s : Step} (h : s.Discreet) :
    ((w.step s).1 = w ∧ Quiet (w.step s).2.events) ∨
    (∃ new, (w.step s).1 = ⟨w.registry, (w.store.add new).1⟩ ∧
      additions (w.step s).2.events = [new.length] ∧ registrations (w.step s).2.events = []) ∨
    ∃ x : Registration, w.registry.get? x.name = none ∧
      (w.step s).1 = ⟨w.registry.insert x, (w.store.add x.entries).1⟩ ∧
      additions (w.step s).2.events = [x.entries.length] ∧
      registrations (w.step s).2.events = [(x.name, x.entries.length)] := by
  cases s with
  | register d bound =>
    obtain ⟨ha, hr⟩ := d.body.signature.quiet_reports
    obtain ⟨-, hs⟩ | ⟨hk, hw, he⟩ | ⟨-, hs⟩ := w.step_register_cases d bound
    · rw [hs]
      exact Or.inl ⟨rfl, quiet_nil⟩
    · refine Or.inr (Or.inr ⟨d.registration, Registry.get?_eq_none_iff.mpr hk, hw, ?_, ?_⟩)
      · rw [he, additions_append, ha]
        rfl
      · rw [he, registrations_append, hr]
        rfl
    · rw [hs]
      exact Or.inl ⟨rfl, ha, hr⟩
  | add d bound =>
    have hq : Quiet (.registeringEntries d.name :: d.body.signature.reports) :=
      Quiet.cons ⟨rfl, rfl⟩ d.body.signature.quiet_reports
    obtain ⟨hw, he⟩ | ⟨hw, he⟩ := w.step_add_cases d bound
    · refine Or.inr (Or.inl ⟨d.entries, hw, ?_⟩)
      rw [he, ← List.cons_append, additions_append, registrations_append, hq.1, hq.2]
      exact ⟨rfl, rfl⟩
    · exact Or.inl ⟨hw, he ▸ hq⟩
  | describe s =>
    refine Or.inl ⟨rfl, ?_⟩
    rw [step, Audit.events_map]
    exact s.quiet_reports.append quiet_nil
  | describeArgument isInput spec => exact Or.inl ⟨rfl, spec.quiet_reports isInput⟩
  | instantiate d receiver args =>
    refine Or.inl ⟨rfl, ?_⟩
    rw [step, Audit.events_map]
    exact Audit.quiet_report_bind ⟨rfl, rfl⟩ (Audit.quiet_bind h fun _ => quiet_nil)
  | call i args =>
    refine Or.inl ⟨rfl, ?_⟩
    rw [step, Audit.events_map]
    exact i.definition.body.quiet_call h args

end Service

/-! ## The log -/

/-- The log tells how much the store holds, and what the registry holds. -/
structure Faithful (log : List Event) (w : Service) : Prop where
  store : (additions log).sum = w.store.held.length
  registry : ∃ xs, w.registry.Holds xs ∧
    registrations log = xs.map fun x => (x.name, x.entries.length)

namespace Faithful

variable {log : List Event} {w : Service}

theorem start : Faithful [] {} where
  store := rfl
  registry := ⟨[], Registry.holds_empty, rfl⟩

/-- An addition that is reported is counted. -/
theorem sum_additions_add {store : MemoryStore} {new : List CatalogEntry} {log' : List Event}
    (h : (additions log).sum = store.held.length) (ha : additions log' = [new.length]) :
    (additions (log ++ log')).sum = (store.add new).1.held.length := by
  rw [additions_append, ha, List.sum_append, List.sum_singleton, h]
  exact List.length_append.symm

/-- **One step keeps the log faithful.** -/
theorem step (h : Faithful log w) {s : Step} (hs : s.Discreet) :
    Faithful (log ++ (w.step s).2.events) (w.step s).1 := by
  obtain ⟨xs, hx, hlog⟩ := h.registry
  obtain ⟨hw, ha, hr⟩ | ⟨new, hw, ha, hr⟩ | ⟨x, hn, hw, ha, hr⟩ := w.step_cases hs
  · rw [hw]
    refine ⟨?_, xs, hx, ?_⟩
    · rw [additions_append, ha, List.append_nil, h.store]
    · rw [registrations_append, hr, List.append_nil, hlog]
  · rw [hw]
    refine ⟨sum_additions_add h.store ha, xs, hx, ?_⟩
    rw [registrations_append, hr, List.append_nil, hlog]
  · rw [hw]
    refine ⟨sum_additions_add h.store ha, xs ++ [x], hx.insert hn, ?_⟩
    rw [registrations_append, hr, hlog, List.map_append, List.map_singleton]

/-- **A whole run keeps the log faithful.** -/
theorem run (h : Faithful log w) {steps : List Step} (hs : ∀ s ∈ steps, s.Discreet) :
    Faithful (log ++ (w.run steps).2) (w.run steps).1 := by
  induction steps generalizing log w with
  | nil => rwa [Service.run, List.append_nil]
  | cons s steps ih =>
    rw [List.forall_mem_cons] at hs
    rw [Service.run, ← List.append_assoc]
    exact ih (h.step hs.1) hs.2

/-- The names in the log are those of the registry. -/
theorem names_perm (h : Faithful log w) :
    ((registrations log).map Prod.fst).Nodup ∧
      ((registrations log).map Prod.fst).Perm w.registry.names := by
  obtain ⟨xs, hx, hlog⟩ := h.registry
  have hnames : (registrations log).map Prod.fst = xs.map Registration.name := by
    rw [hlog, List.map_map]
    rfl
  rw [hnames]
  refine ⟨hx.once, (List.perm_ext_iff_of_nodup hx.once w.registry.nodup_names).mpr fun name => ?_⟩
  rw [Registry.mem_names_iff, Registry.contains_eq_isSome_get?, Option.isSome_iff_exists,
    List.mem_map]
  exact exists_congr fun x => (hx.get? name x).symm

/-- A function in the log is on record with as many entries as the log says. -/
theorem get?_of_mem (h : Faithful log w) {name : String} {count : Nat}
    (hm : (name, count) ∈ registrations log) :
    ∃ x, w.registry.get? name = some x ∧ x.entries.length = count := by
  obtain ⟨xs, hx, hlog⟩ := h.registry
  rw [hlog, List.mem_map] at hm
  obtain ⟨x, hxs, he⟩ := hm
  obtain ⟨rfl, rfl⟩ := Prod.mk.inj he
  exact ⟨x, (hx.get? x.name x).mpr ⟨hxs, rfl⟩, rfl⟩

end Faithful

namespace Service

/-- **The log is a faithful trail of all registrations.** Let an empty registry and an empty store
serve steps of any kind, with any outcome. Then the counts of the additions in the log sum up to
what the store holds; the functions whose registration is in the log are all different, they are
those of the registry, and each is on record with as many entries as the log says; and a function
that is refused because it is known leaves no trace in the log. -/
theorem log_faithful (steps : List Step) (h : ∀ s ∈ steps, s.Discreet) :
    let w := (run {} steps).1
    let log := (run {} steps).2
    (additions log).sum = w.store.held.length ∧
    ((registrations log).map Prod.fst).Nodup ∧
    ((registrations log).map Prod.fst).Perm w.registry.names ∧
    (∀ name count, (name, count) ∈ registrations log →
      ∃ x, w.registry.get? name = some x ∧ x.entries.length = count) ∧
    ∀ {ρ : Type} (d : Definition ρ) (bound : Option Nat) (name : String),
      (w.step (.register d bound)).2.result = .error (.duplicateFunction name) →
        (w.step (.register d bound)).2.events = [] ∧ (w.step (.register d bound)).1 = w := by
  intro w log
  have hf : Faithful log w := Faithful.start.run h
  obtain ⟨hnodup, hperm⟩ := hf.names_perm
  refine ⟨hf.store, hnodup, hperm, fun _ _ => hf.get?_of_mem, fun d bound name hd => ?_⟩
  obtain ⟨-, hs⟩ | ⟨-, -, hs⟩ | ⟨-, hs⟩ := w.step_register_cases d bound
  · rw [hs]
    exact ⟨rfl, rfl⟩
  · rw [hs] at hd
    cases hd
  · rw [hs] at hd
    cases hd

/-- A function is registered, refused as known, added past the registry and called; another one is
refused by the bound of the store. -/
theorem log_faithful_bounded :
    let f (name : String) : Definition Unit :=
      { name, setup := .noop, body :=
        { routine := fun _ _ => pure (.tuple [])
          signature := ⟨[.array { name := "x" }],
            [.table ⟨["y", "z"], [.any, .any], [.any, .any], rfl, rfl⟩]⟩ } }
    let steps : List Step := [.describe (f "f").body.signature, .register (f "f") none,
      .register (f "f") none, .add (f "f") (some 6), .register (f "g") (some 6),
      .instantiate (f "f") () [], .call ⟨f "f", ()⟩ []]
    let w := (run {} steps).1
    let log := (run {} steps).2
    (∀ s ∈ steps, s.Discreet) ∧ additions log = [3, 3] ∧ registrations log = [("f", 3)] ∧
      w.store.held.length = 6 ∧ w.registry.names = ["f"] ∧
      (∃ x, w.registry.get? "f" = some x ∧ x.entries.length = 3) ∧
      (w.step (.register (f "f") (some 0))).2.events = [] := by
  intro f steps
  have hs : ∀ s ∈ steps, s.Discreet := by
    simp only [steps, List.forall_mem_cons]
    exact ⟨trivial, trivial, trivial, trivial, trivial, quiet_nil, fun _ => quiet_nil, nofun⟩
  have hlog : additions (run {} steps).2 = [3, 3] ∧
      registrations (run {} steps).2 = [("f", 3)] := by
    -- numerals under local definitions do not compute
    subst steps f
    exact ⟨rfl, rfl⟩
  have h := log_faithful steps hs
  -- from here on the run is not computed again
  generalize run {} steps = out at hlog h ⊢
  obtain ⟨ha, hr⟩ := hlog
  obtain ⟨hsum, -, hperm, hget, hdup⟩ := h
  rw [ha] at hsum
  rw [hr] at hperm hget
  have hnames : out.1.registry.names = ["f"] := List.perm_singleton.mp hperm.symm
  have hk : out.1.registry.contains (f "f").name = true := by
    refine Registry.mem_names_iff.mp ?_
    rw [hnames]
    exact List.mem_singleton_self _
  refine ⟨hs, ha, hr, hsum.symm, hnames, hget "f" 3 (List.mem_singleton_self _), ?_⟩
  refine (hdup (f "f") (some 0) "f" ?_).1
  rw [step_register_of_known _ hk]
  rfl

end Service

end ArrayContract
