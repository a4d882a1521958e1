import ArrayContract.Proofs.Function.History
import Mathlib.Data.List.Perm.Basic

/-! # The order of registrations

Functions of different names are registered one after the other, with a store that takes all
entries. `after_registering` says what that comes to: the functions that are not on record are taken
in, whatever their places in the list, and each brings its entries to the store in its turn. So a
permutation of the list makes the same functions succeed, leads to a registry in which the same is
found, and moves the blocks of entries in the store about, each of them whole
(`registration_order`). -/

namespace ArrayContract

/-! ## Records of different names -/

namespace Registry

variable {xs ys : List Registration} {r : Registry} {name : String}

/-- The registry with some more records. -/
def insertAll (r : Registry) (xs : List Registration) : Registry := xs.foldl insert r

theorem get?_insertAll_eq_some_iff (hn : (xs.map Registration.name).Nodup) {x : Registration} :
    (r.insertAll xs).get? name = some x ↔
      (x ∈ xs ∧ x.name = name) ∨ ((∀ y ∈ xs, y.name ≠ name) ∧ r.get? name = some x) := by
  induction xs generalizing r with
  | nil => simp [insertAll]
  | cons y xs ih =>
    rw [List.map_cons, List.nodup_cons] at hn
    have hy : ∀ z ∈ xs, z.name ≠ y.name :=
      fun z hz he => hn.1 (List.mem_map.mpr ⟨z, hz, he⟩)
    show ((r.insert y).insertAll xs).get? name = some x ↔ _
    rw [ih hn.2, get?_insert]
    by_cases h : y.name = name
    · -- the record is found here, and there is no other of its name
      subst h
      rw [if_pos rfl, Option.some.injEq]
      constructor
      · rintro (⟨hx, hxn⟩ | ⟨-, rfl⟩)
        · exact absurd hxn (hy x hx)
        · exact Or.inl ⟨List.mem_cons_self, rfl⟩
      · rintro (⟨hx, hxn⟩ | ⟨hne, -⟩)
        · rcases List.mem_cons.mp hx with rfl | hx
          · exact Or.inr ⟨hy, rfl⟩
          · exact absurd hxn (hy x hx)
        · exact absurd rfl (hne y List.mem_cons_self)
    · rw [if_neg h]
      refine or_congr ⟨fun ⟨hx, hxn⟩ => ⟨List.mem_cons_of_mem y hx, hxn⟩, fun ⟨hx, hxn⟩ => ?_⟩
        (and_congr_left fun _ => ?_)
      · rcases List.mem_cons.mp hx with rfl | hx
        · exact absurd hxn h
        · exact ⟨hx, hxn⟩
      · rw [List.forall_mem_cons]
        exact ⟨fun hall => ⟨h, hall⟩, And.right⟩

/-- **Records of different names can be taken in in any order.** -/
theorem get?_insertAll_of_perm (hp : xs.Perm ys) (hn : (xs.map Registration.name).Nodup)
    (r : Registry) (name : String) : (r.insertAll xs).get? name = (r.insertAll ys).get? name := by
  have hn' : (ys.map Registration.name).Nodup := (hp.map _).nodup_iff.mp hn
  refine Option.ext fun x => ?_
  rw [get?_insertAll_eq_some_iff hn, get?_insertAll_eq_some_iff hn']
  simp only [hp.mem_iff]

end Registry

/-! ## A list of functions -/

/-- A function over receivers of some type. -/
abbrev SomeDefinition : Type 1 := (ρ : Type) × Definition ρ

namespace SomeDefinition

def name (d : SomeDefinition) : String := d.2.name

/-- The entries of the inputs that are declared, and then those of the outputs. -/
def entries (d : SomeDefinition) : List CatalogEntry :=
  d.2.body.signature.inputs.flatMap (·.records true) ++
    d.2.body.signature.outputs.flatMap (·.records false)

def registration (d : SomeDefinition) : Registration := d.2.registration

/-- The request to register a function. -/
def request (d : SomeDefinition) : Request Unit := .register d.2 ()

end SomeDefinition

namespace Registrar

/-- The outcomes of requests that are served in order. -/
def answers {ι : Type} [DecidableEq ι] {σ : ι → Type} [∀ i, CatalogStore (σ i)] (w : Registrar σ) :
    List (Request ι) → List (Except Fault Unit)
  | [] => []
  | q :: qs => (w.serve q).2.result :: answers (w.serve q).1 qs

variable (w : Registrar fun _ : Unit => MemoryStore) {d : SomeDefinition}
  {ds ds' : List SomeDefinition}

/-- A function is not on record. -/
def isNew (d : SomeDefinition) : Bool := !w.registry.contains d.name

/-- What becomes of a request to register a function: it is refused if the function is on
record. -/
def decision (d : SomeDefinition) : Except Fault Unit :=
  if w.isNew d then .ok () else .error (.duplicateFunction d.name)

variable {w}

/-- **One function.** -/
theorem serve_request (w : Registrar fun _ : Unit => MemoryStore) (d : SomeDefinition) :
    (w.serve d.request).2.result = w.decision d ∧
    if w.isNew d then
      (w.serve d.request).1.registry = w.registry.insert d.registration ∧
        (w.serve d.request).1.held () = w.held () ++ d.entries
    else (w.serve d.request).1 = w := by
  unfold decision isNew
  cases hk : w.registry.contains d.name with
  | true =>
    obtain ⟨hw, hr⟩ := w.serve_of_known hk ()
    exact ⟨hr, hw⟩
  | false =>
    have hr : (w.serve d.request).2.result = .ok () := by
      refine (w.serve_of_new fun r hq => ?_).1
      obtain rfl := Option.some.inj hq
      exact hk
    obtain ⟨hh, -, hg⟩ := serve_of_ok hr
    exact ⟨hr, hg, (hh ()).trans (by rw [if_pos rfl]; rfl)⟩

/-- A function that is taken in keeps no function of another name from being new. -/
theorem isNew_serve_request {d' : SomeDefinition} (h : d.name ≠ d'.name) :
    (w.serve d.request).1.isNew d' = w.isNew d' := by
  have hs := (w.serve_request d).2
  split at hs
  · unfold isNew
    rw [hs.1, Registry.contains_insert]
    simp [show d.registration.name ≠ d'.name from h]
  · rw [hs]

/-- **All functions of a list.** Each is decided on as if it were the only one. -/
theorem after_registering (hn : (ds.map SomeDefinition.name).Nodup) :
    w.answers (ds.map SomeDefinition.request) = ds.map w.decision ∧
    (w.after (ds.map SomeDefinition.request)).registry =
      w.registry.insertAll ((ds.filter w.isNew).map SomeDefinition.registration) ∧
    (w.after (ds.map SomeDefinition.request)).held () =
      w.held () ++ (ds.filter w.isNew).flatMap SomeDefinition.entries := by
  induction ds generalizing w with
  | nil => exact ⟨rfl, rfl, (List.append_nil _).symm⟩
  | cons d ds ih =>
    rw [List.map_cons, List.nodup_cons] at hn
    have hsame : ∀ d' ∈ ds, (w.serve d.request).1.isNew d' = w.isNew d' := fun d' hd' =>
      isNew_serve_request fun he => hn.1 (List.mem_map.mpr ⟨d', hd', he.symm⟩)
    obtain ⟨ha, hg, hh⟩ := ih (w := (w.serve d.request).1) hn.2
    rw [List.filter_congr hsame] at hg hh
    have hdec : ds.map (w.serve d.request).1.decision = ds.map w.decision :=
      List.map_congr_left fun d' hd' => by rw [decision, decision, hsame d' hd']
    obtain ⟨hr, hs⟩ := w.serve_request d
    refine ⟨?_, ?_⟩
    · rw [List.map_cons, List.map_cons, answers, ha, hr, hdec]
    · rw [List.map_cons]
      show ((w.serve d.request).1.after _).registry = _ ∧ ((w.serve d.request).1.after _).held () = _
      rw [hg, hh]
      split at hs
      · next hnew =>
        rw [hs.1, hs.2, List.filter_cons_of_pos hnew]
        exact ⟨rfl, by rw [List.flatMap_cons, List.append_assoc]⟩
      · next hnew =>
        rw [hs, List.filter_cons_of_neg hnew]
        exact ⟨rfl, rfl⟩

/-- **The order of registrations does not matter to the registry.** Let functions of different names
be registered one after the other, and in another order, in any state. In both orders a function is
refused exactly if it was on record before, which each decision says on its own; both registries
have the same names and the same records; and both stores go on from what was held with the entries
of the functions taken in, one block for each, in the order of the list: so the blocks of one store
are those of the other, permuted. Within a block stand the entries of the function's inputs in the
order of their declarations, and then those of its outputs. -/
theorem registration_order (w : Registrar fun _ : Unit => MemoryStore) (hp : ds.Perm ds')
    (hn : (ds.map SomeDefinition.name).Nodup) :
    let one := w.after (ds.map SomeDefinition.request)
    let other := w.after (ds'.map SomeDefinition.request)
    (w.answers (ds.map SomeDefinition.request) = ds.map w.decision ∧
      w.answers (ds'.map SomeDefinition.request) = ds'.map w.decision) ∧
    (one.registry.names = other.registry.names ∧
      ∀ name, one.registry.get? name = other.registry.get? name) ∧
    ∃ blocks blocks' : List (List CatalogEntry),
      blocks = (ds.filter w.isNew).map SomeDefinition.entries ∧
      blocks' = (ds'.filter w.isNew).map SomeDefinition.entries ∧ blocks.Perm blocks' ∧
      one.held () = w.held () ++ blocks.flatten ∧ other.held () = w.held () ++ blocks'.flatten := by
  intro one other
  have hn' : (ds'.map SomeDefinition.name).Nodup := (hp.map _).nodup_iff.mp hn
  obtain ⟨ha, hg, hh⟩ := after_registering (w := w) hn
  obtain ⟨ha', hg', hh'⟩ := after_registering (w := w) hn'
  have hget : ∀ name, one.registry.get? name = other.registry.get? name := by
    intro name
    rw [hg, hg']
    refine Registry.get?_insertAll_of_perm ((hp.filter _).map _) ?_ _ _
    rw [List.map_map]
    exact (List.filter_sublist.map SomeDefinition.name).nodup hn
  exact ⟨⟨ha, ha'⟩, ⟨Registry.names_eq_of_get?_eq hget, hget⟩, _, _, rfl, rfl,
    (hp.filter _).map _, hh, hh'⟩

/-- Three functions of which the first is on record: it is refused at its place in either order, and
the entries of the others change places. -/
theorem registration_order_known :
    let f (name : String) : SomeDefinition := ⟨Unit,
      { name, setup := .noop, body :=
        { routine := fun _ _ => pure (.tuple [])
          signature := ⟨[.array { name }],
            [.table ⟨["y", "z"], [.any, .of .int8], [.any, .any], rfl, rfl⟩]⟩ } }⟩
    let start : Registrar fun _ : Unit => MemoryStore := { stores := fun _ => {} }
    let w := start.after [(f "b").request]
    let ds := [f "b", f "c", f "a"]
    let ds' := [f "a", f "b", f "c"]
    ds.Perm ds' ∧ (ds.map SomeDefinition.name).Nodup ∧
      w.answers (ds.map SomeDefinition.request) =
        [.error (.duplicateFunction "b"), .ok (), .ok ()] ∧
      w.answers (ds'.map SomeDefinition.request) =
        [.ok (), .error (.duplicateFunction "b"), .ok ()] ∧
      (w.after (ds.map SomeDefinition.request)).registry.names =
        (w.after (ds'.map SomeDefinition.request)).registry.names ∧
      ∃ blocks, (w.after (ds.map SomeDefinition.request)).held () = w.held () ++ blocks.flatten ∧
        blocks = [[⟨"c", .ndArray, false, .any, .any, true⟩,
            ⟨"y", .ndArray, false, .any, .any, false⟩,
            ⟨"z", .ndArray, false, .of .int8, .any, false⟩],
          [⟨"a", .ndArray, false, .any, .any, true⟩, ⟨"y", .ndArray, false, .any, .any, false⟩,
            ⟨"z", .ndArray, false, .of .int8, .any, false⟩]] := by
  intro f start w ds ds'
  have hp : ds.Perm ds' :=
    (List.Perm.cons (f "b") (.swap (f "a") (f "c") [])).trans (.swap (f "a") (f "b") [f "c"])
  have hn : (ds.map SomeDefinition.name).Nodup := by decide
  have hnew : ∀ name, w.isNew (f name) = !decide ("b" = name) := by
    intro name
    show (!(Registry.insert {} (f "b").registration).contains name) = !decide ("b" = name)
    rw [Registry.contains_insert, Registry.contains_eq_isSome_get?, Registry.get?_empty]
    exact congrArg not (Bool.or_false _)
  obtain ⟨⟨ha, ha'⟩, ⟨hnames, -⟩, blocks, _, hb, -, -, hh, -⟩ := registration_order w hp hn
  refine ⟨hp, hn, ?_, ?_, hnames, blocks, hh, ?_⟩
  · rw [ha]
    show [w.decision (f "b"), w.decision (f "c"), w.decision (f "a")] = _
    simp only [decision, hnew]
    rfl
  · rw [ha']
    show [w.decision (f "a"), w.decision (f "b"), w.decision (f "c")] = _
    simp only [decision, hnew]
    rfl
  · have hfilter : ds.filter w.isNew = [f "c", f "a"] := by simp [ds, hnew]
    rw [hb, hfilter]
    rfl

end Registrar

end ArrayContract
