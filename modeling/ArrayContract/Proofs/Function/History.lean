import ArrayContract.Proofs.Function.Registry
import Mathlib.Data.List.Nodup
import Mathlib.Logic.Function.Basic

/-! # Registries and stores over time

A registry and any number of stores serve requests: to register a function, or to add its entries to
a store past the registry. Any function may be asked for any number of times and with any store, and
a request may fail. `Consistent` ties what is held to the requests that were granted, in their
order: the stores hold the entries of these, one block for each request, and the registry holds what
was registered, every name once. A single request keeps it (`Consistent.serve`), and so does a whole
history (`Consistent.after`). -/

namespace ArrayContract

open Outcome

/-- A request to register a function, or only to add its entries to a store; `ι` names the
stores. -/
inductive Request (ι : Type)
  | register {ρ : Type} (function : Definition ρ) (store : ι)
  | add {ρ : Type} (function : Definition ρ) (store : ι)

namespace Request

variable {ι : Type}

/-- The store a request is about. -/
def store : Request ι → ι
  | register _ i => i
  | add _ i => i

/-- The entries a request brings, those of the inputs and outputs that its function declares. -/
def entries : Request ι → List CatalogEntry
  | register d _ => d.body.signature.records
  | add d _ => d.body.signature.records

/-- What a request would put on record: the name of its function, the tags of its setup, and its
entries. -/
def registration? : Request ι → Option Registration
  | register d _ => some ⟨d.name, d.setup.tags, d.body.signature.records⟩
  | add _ _ => none

theorem registration?_register {ρ : Type} (d : Definition ρ) (i : ι) :
    registration? (register d i) = some d.registration :=
  congrArg some d.registration_eq.symm

/-- Puts a request on record, if it is one to register. -/
def record (r : Registry) : Request ι → Registry
  | register d _ => r.insert d.registration
  | add _ _ => r

end Request

/-- A registry with the stores that entries go to. -/
structure Registrar {ι : Type} (σ : ι → Type) where
  registry : Registry := {}
  stores : ∀ i, σ i

namespace Registrar

variable {ι : Type} [DecidableEq ι] {σ : ι → Type} [∀ i, CatalogStore (σ i)]

/-- The entries in a store. -/
def held (w : Registrar σ) (i : ι) : List CatalogEntry := CatalogStore.entries (w.stores i)

/-- Serves one request. -/
def serve (w : Registrar σ) : Request ι → Registrar σ × Audit Unit
  | .register d i =>
    let ((registry, store), audit) := w.registry.register d (w.stores i)
    (⟨registry, Function.update w.stores i store⟩, audit)
  | .add d i =>
    let (store, audit) := d.register (w.stores i)
    (⟨w.registry, Function.update w.stores i store⟩, audit)

/-- Serves requests in order. -/
def after (w : Registrar σ) (qs : List (Request ι)) : Registrar σ :=
  qs.foldl (fun w q => (w.serve q).1) w

/-- A request by itself if it is granted, and else none. -/
def grant (w : Registrar σ) (q : Request ι) : List (Request ι) :=
  match (w.serve q).2.result with
  | .ok () => [q]
  | .error _ => []

/-- The requests that are granted when some are served in order. -/
def granted (w : Registrar σ) : List (Request ι) → List (Request ι)
  | [] => []
  | q :: qs => w.grant q ++ granted (w.serve q).1 qs

end Registrar

/-! ## One request -/

namespace Registrar

variable {ι : Type} [DecidableEq ι] {σ : ι → Type} [∀ i, CatalogStore (σ i)]

/-- Why a request is not granted: its function is known, or else its store refuses the entries. -/
inductive Refuses (w : Registrar σ) : Request ι → Fault → Prop
  | known {ρ : Type} {d : Definition ρ} {i : ι} (known : w.registry.contains d.name = true) :
      Refuses w (.register d i) (.duplicateFunction d.name)
  | store {q : Request ι} {e : Fault}
      (new : ∀ r, q.registration? = some r → w.registry.contains r.name = false)
      (refused : (CatalogStore.add (w.stores q.store) q.entries).2.result = .error e) :
      Refuses w q e

variable (w : Registrar σ)

theorem held_update (registry : Registry) (i : ι) (store : σ i) (j : ι) :
    (Registrar.mk registry (Function.update w.stores i store)).held j =
      if i = j then CatalogStore.entries store else w.held j := by
  show CatalogStore.entries (Function.update w.stores i store j) = _
  by_cases h : i = j
  · subst h
    rw [if_pos rfl, Function.update_self]
  · rw [if_neg h, Function.update_of_ne (Ne.symm h)]
    rfl

/-- A known function is refused before anything is offered to a store. -/
theorem serve_of_known {ρ : Type} {d : Definition ρ} (h : w.registry.contains d.name = true)
    (i : ι) : (w.serve (.register d i)).1 = w ∧
      (w.serve (.register d i)).2.result = .error (.duplicateFunction d.name) := by
  obtain ⟨-, hw, hr⟩ | ⟨hn, -⟩ | ⟨_, hn, -⟩ := w.registry.register_cases d (w.stores i)
  · refine ⟨?_, hr⟩
    show Registrar.mk (w.registry.register d (w.stores i)).1.1
      (Function.update w.stores i (w.registry.register d (w.stores i)).1.2) = w
    rw [hw, Function.update_eq_self]
  all_goals exact absurd h (by simp [hn])

/-- Any other request is offered to its store, which decides on it. -/
theorem serve_of_new {q : Request ι}
    (h : ∀ r, q.registration? = some r → w.registry.contains r.name = false) :
    (w.serve q).2.result = (CatalogStore.add (w.stores q.store) q.entries).2.result ∧
    (w.serve q).1.stores =
      Function.update w.stores q.store (CatalogStore.add (w.stores q.store) q.entries).1 ∧
    ((w.serve q).2.result = .ok () → (w.serve q).1.registry = q.record w.registry) ∧
    ∀ e, (w.serve q).2.result = .error e → (w.serve q).1.registry = w.registry := by
  rcases q with ⟨d, i⟩ | ⟨d, i⟩
  · have hn : w.registry.contains d.name = false := h _ rfl
    have he : Request.entries (.register d i) = d.entries := d.entries_eq_records.symm
    have hs : (w.serve (.register d i)).1 = ⟨(w.registry.register d (w.stores i)).1.1,
      Function.update w.stores i (w.registry.register d (w.stores i)).1.2⟩ := rfl
    have ha : (w.serve (.register d i)).2 = (w.registry.register d (w.stores i)).2 := rfl
    rw [hs, ha, he]
    obtain ⟨hc, -⟩ | ⟨-, ht, hw, hr⟩ | ⟨e, -, ht, hw, hr⟩ :=
      w.registry.register_cases d (w.stores i)
    · exact absurd hc (by simp [hn])
    · rw [hw, hr]
      exact ⟨ht.symm, rfl, fun _ => rfl, nofun⟩
    · rw [hw, hr]
      exact ⟨ht.symm, rfl, nofun, fun _ _ => rfl⟩
  · have he : Request.entries (.add d i) = d.entries := d.entries_eq_records.symm
    rw [he]
    exact ⟨d.result_register (w.stores i), rfl, fun _ => rfl, fun _ _ => rfl⟩

theorem serve_eq_error_iff (q : Request ι) (fault : Fault) :
    (w.serve q).2.result = .error fault ↔ w.Refuses q fault := by
  by_cases hn : ∀ r, q.registration? = some r → w.registry.contains r.name = false
  · rw [(w.serve_of_new hn).1]
    constructor
    · exact .store hn
    · rintro (h | ⟨-, h⟩)
      · rename_i d i
        exact absurd h (by simp [show w.registry.contains d.name = false from hn _ rfl])
      · exact h
  · obtain ⟨r, hq, hr⟩ : ∃ r, q.registration? = some r ∧ w.registry.contains r.name = true := by
      simpa using hn
    rcases q with ⟨d, i⟩ | _
    · obtain rfl := Option.some.inj hq
      rw [(w.serve_of_known hr i).2]
      constructor
      · rintro ⟨⟩
        exact .known hr
      · rintro (_ | ⟨hn', -⟩)
        · rfl
        · exact absurd hn' hn
    · exact nomatch hq

variable [∀ i, LawfulCatalogStore (σ i)] {w}

/-- A request that is granted adds its entries to its store, and its record to the registry, which
had none of that name. -/
theorem serve_of_ok {q : Request ι} (h : (w.serve q).2.result = .ok ()) :
    (∀ i, (w.serve q).1.held i = w.held i ++ if q.store = i then q.entries else []) ∧
    (∀ r, q.registration? = some r → w.registry.get? r.name = none) ∧
    (w.serve q).1.registry = q.record w.registry := by
  have hn : ∀ r, q.registration? = some r → w.registry.contains r.name = false := by
    intro r hr
    by_contra hk
    rcases q with ⟨d, i⟩ | ⟨d, i⟩
    · obtain rfl := Option.some.inj hr
      rw [Bool.not_eq_false] at hk
      exact nomatch h.symm.trans (w.serve_of_known hk i).2
    · exact nomatch hr
  obtain ⟨hr, hs, hg, -⟩ := w.serve_of_new hn
  refine ⟨fun i => ?_, fun r hq => Registry.get?_eq_none_iff.mpr (hn r hq), hg h⟩
  show CatalogStore.entries ((w.serve q).1.stores i) = _
  rw [hs]
  refine (w.held_update w.registry q.store _ i).trans ?_
  by_cases hi : q.store = i
  · subst hi
    rw [if_pos rfl, if_pos rfl]
    exact LawfulCatalogStore.entries_of_ok _ _ (hr.symm.trans h)
  · rw [if_neg hi, if_neg hi, List.append_nil]

/-- A request that is refused leaves no trace in what is held. -/
theorem serve_of_error {q : Request ι} {fault : Fault} (h : (w.serve q).2.result = .error fault) :
    (w.serve q).1.registry = w.registry ∧ ∀ i, (w.serve q).1.held i = w.held i := by
  rcases (w.serve_eq_error_iff q fault).mp h with hk | ⟨hn, ht⟩
  · rw [(w.serve_of_known hk _).1]
    exact ⟨rfl, fun _ => rfl⟩
  · obtain ⟨-, hs, -, hg⟩ := w.serve_of_new hn
    refine ⟨hg fault h, fun i => ?_⟩
    show CatalogStore.entries ((w.serve q).1.stores i) = _
    rw [hs]
    refine (w.held_update w.registry q.store _ i).trans ?_
    split
    · next hi =>
      subst hi
      exact LawfulCatalogStore.entries_of_error _ _ fault ht
    · rfl

end Registrar

/-! ## Consistency -/

/-- What is put on record by requests that are granted. -/
def recorded {ι : Type} (granted : List (Request ι)) : List Registration :=
  granted.filterMap Request.registration?

/-- What is on record comes from a request to register a function, and has the name of the function,
the tags of its setup and its entries. -/
theorem mem_recorded_iff {ι : Type} {granted : List (Request ι)} {x : Registration} :
    x ∈ recorded granted ↔ ∃ (ρ : Type) (d : Definition ρ) (i : ι), .register d i ∈ granted ∧
      x.name = d.name ∧ x.tags = d.setup.tags ∧ x.entries = d.body.signature.records := by
  rw [recorded, List.mem_filterMap]
  constructor
  · rintro ⟨⟨d, i⟩ | ⟨d, i⟩, hq, hx⟩
    · obtain rfl := Option.some.inj hx
      exact ⟨_, d, i, hq, rfl, rfl, rfl⟩
    · cases hx
  · rintro ⟨ρ, d, i, hq, hn, ht, he⟩
    obtain ⟨name, tags, entries⟩ := x
    subst hn ht he
    exact ⟨_, hq, rfl⟩

/-- What requests that are granted bring to a store, a block for each. -/
def brought {ι : Type} [DecidableEq ι] (granted : List (Request ι)) (i : ι) : List CatalogEntry :=
  (granted.filter (·.store = i)).flatMap Request.entries

namespace Registrar

variable {ι : Type} [DecidableEq ι] {σ : ι → Type} [∀ i, CatalogStore (σ i)] {w : Registrar σ}
  {base : ι → List CatalogEntry} {g : List (Request ι)}

/-- What is held agrees with the requests that were granted; `base` is in the stores from the
start. -/
structure Consistent (base : ι → List CatalogEntry) (g : List (Request ι)) (w : Registrar σ) :
    Prop where
  held : ∀ i, w.held i = base i ++ brought g i
  registry : w.registry.Holds (recorded g)

theorem consistent_start (stores : ∀ i, σ i) :
    Consistent (fun i => CatalogStore.entries (stores i)) [] ({ stores } : Registrar σ) where
  held _ := (List.append_nil _).symm
  registry := Registry.holds_empty

variable [∀ i, LawfulCatalogStore (σ i)]

/-- **One request.** -/
theorem Consistent.serve (h : Consistent base g w) (q : Request ι) :
    Consistent base (g ++ w.grant q) (w.serve q).1 := by
  unfold grant
  cases hr : (w.serve q).2.result with
  | error fault =>
    obtain ⟨hg, hh⟩ := serve_of_error hr
    rw [List.append_nil]
    exact ⟨fun i => (hh i).trans (h.held i), by rw [hg]; exact h.registry⟩
  | ok _ =>
    obtain ⟨hh, hn, hg⟩ := serve_of_ok hr
    refine ⟨fun i => ?_, ?_⟩
    · rw [hh, h.held, List.append_assoc]
      by_cases hi : q.store = i <;> simp [brought, hi]
    · rw [hg]
      rcases q with ⟨d, i⟩ | ⟨d, i⟩
      · rw [show recorded (g ++ [.register d i]) = recorded g ++ [d.registration] by
          simp [recorded, Request.registration?_register]]
        exact h.registry.insert (hn _ (Request.registration?_register d i))
      · rw [show recorded (g ++ [.add d i]) = recorded g by simp [recorded, Request.registration?]]
        exact h.registry

/-- **A whole history.** -/
theorem Consistent.after (h : Consistent base g w) (qs : List (Request ι)) :
    Consistent base (g ++ w.granted qs) (w.after qs) := by
  induction qs generalizing g w with
  | nil => rwa [granted, List.append_nil]
  | cons q qs ih =>
    rw [granted, ← List.append_assoc]
    exact ih (h.serve q)

/-- What is on record stays. -/
theorem get?_after {name : String} {x : Registration} (h : Consistent base g w)
    (hx : w.registry.get? name = some x) (qs : List (Request ι)) :
    (w.after qs).registry.get? name = some x := by
  obtain ⟨hm, hn⟩ := (h.registry.get? name x).mp hx
  refine ((h.after qs).registry.get? name x).mpr ⟨?_, hn⟩
  rw [recorded, List.filterMap_append]
  exact List.mem_append_left _ hm

/-- **Registry and stores stay consistent.** Whatever the requests, each store holds what it held
from the start and then the entries of the requests to it that were granted, a block for each, which
are those of the inputs and outputs declared by the function; the registry holds what was registered,
each name once and for good, with the tags of the function's setup and the same entries, and its
names are sorted. A request is refused exactly because its function is known, which touches no
store, or because its store refuses the entries; and one that is refused leaves no trace. -/
theorem consistent_history (stores : ∀ i, σ i) (qs : List (Request ι)) :
    let start : Registrar σ := { stores }
    let w := start.after qs
    let g := start.granted qs
    (∀ i, w.held i = start.held i ++ brought g i) ∧
    (∀ name, w.registry.contains name = true ↔ ∃ x ∈ recorded g, x.name = name) ∧
    ((recorded g).map Registration.name).Nodup ∧
    (∀ name x, w.registry.get? name = some x ↔ x ∈ recorded g ∧ x.name = name) ∧
    (∀ x, x ∈ recorded g ↔ ∃ (ρ : Type) (d : Definition ρ) (i : ι), .register d i ∈ g ∧
      x.name = d.name ∧ x.tags = d.setup.tags ∧ x.entries = d.body.signature.records) ∧
    (∀ name x qs', w.registry.get? name = some x →
      (start.after (qs ++ qs')).registry.get? name = some x) ∧
    w.registry.names.Pairwise (· < ·) ∧
    (∀ name, name ∈ w.registry.names ↔ w.registry.contains name = true) ∧
    w.registry.size = (recorded g).length ∧
    (∀ q fault, (w.serve q).2.result = .error fault ↔ w.Refuses q fault) ∧
    (∀ q fault, w.Refuses q fault →
      (w.serve q).1.registry = w.registry ∧ ∀ i, (w.serve q).1.held i = w.held i) ∧
    ∀ {ρ : Type} (d : Definition ρ) (i : ι), w.registry.contains d.name = true →
      (w.serve (.register d i)).1 = w := by
  intro start w g
  have h : Consistent start.held g w := (consistent_start stores).after qs
  refine ⟨h.held, fun name => ?_, h.registry.once, h.registry.get?, fun x => mem_recorded_iff,
    fun name x qs' hx => ?_, w.registry.names_pairwise_lt, fun name => Registry.mem_names_iff,
    h.registry.size, w.serve_eq_error_iff,
    fun q fault hq => serve_of_error ((w.serve_eq_error_iff q fault).mpr hq),
    fun d _ hd => (w.serve_of_known hd _).1⟩
  · rw [Registry.contains_eq_isSome_get?, Option.isSome_iff_exists]
    exact exists_congr fun x => h.registry.get? name x
  · rw [show start.after (qs ++ qs') = w.after qs' from List.foldl_append]
    exact get?_after h hx qs'

/-- A store that is full refuses a function, which is then registered with another one, and known
from there on, with its own tags. -/
theorem consistent_history_full :
    let tags : ScheduleTags := { cachable := true, category := "Sum", batchable := false }
    let f : Definition Unit :=
      { name := "f", setup := { routine := fun _ _ => ((), pure ()), tags }, body :=
        { routine := fun _ _ => pure (.tuple [])
          signature := ⟨[.array { name := "x", nullable := true, type := .of .int8 }],
            [.table ⟨["y", "z"], [.any, .any], [.any, .axes [.any, .fixed 2]], rfl, rfl⟩]⟩ } }
    let start : Registrar fun _ : Bool => MemoryStore ⊕ BoundedStore :=
      { stores := fun full => if full then .inr { capacity := 1 } else .inl {} }
    let qs : List (Request Bool) := [.register f true, .register f false, .add f false]
    let w := start.after qs
    let es : List CatalogEntry := [⟨"x", .ndArray, true, .of .int8, .any, true⟩,
      ⟨"y", .ndArray, false, .any, .any, false⟩,
      ⟨"z", .ndArray, false, .any, .axes [.any, .fixed 2], false⟩]
    start.granted qs = [.register f false, .add f false] ∧
      w.held false = es ++ es ∧ w.held true = [] ∧
      w.registry.get? "f" = some ⟨"f", tags, es⟩ ∧
      (w.serve (.register f true)).2.result = .error (.duplicateFunction "f") := by
  intro tags f start qs w es
  have hg : start.granted qs = [.register f false, .add f false] := rfl
  obtain ⟨hh, hc, -, hr, hx, -, -, -, -, he, -⟩ := consistent_history start.stores qs
  have hf : (⟨"f", tags, es⟩ : Registration) ∈ recorded (start.granted qs) :=
    (hx _).mpr ⟨Unit, f, false, hg ▸ List.mem_cons_self, rfl, rfl, rfl⟩
  exact ⟨hg, hh false, hh true, (hr "f" _).mpr ⟨hf, rfl⟩,
    (he _ _).mpr (.known ((hc "f").mpr ⟨_, hf, rfl⟩))⟩

end Registrar

end ArrayContract
