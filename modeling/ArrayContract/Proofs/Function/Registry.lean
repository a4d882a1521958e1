import ArrayContract.Function.Registry
import Mathlib.Data.List.Nodup
import Mathlib.Data.List.Sort
import Std.Data.TreeMap.Lemmas

/-! # What a registry records

`Signature.records` says field by field what a catalog records of a function's arguments, and
`Definition.registration_eq` what a registry does of a function. The names of a registry are sorted,
and a name is found exactly if something is recorded of it. `Registry.Holds` says that a registry
holds exactly the records of a list, each under a name of its own. `Registry.register_cases` says all
that registering a function can do: the name is known, or the store takes the entries, or it refuses
them. -/

namespace ArrayContract

/-! ## The records of a function -/

/-- The records of an argument: one of an array, as it is declared, and one of each column of a
table, which is not marked as nullable. -/
def ArgumentSpec.records (isInput : Bool) : ArgumentSpec → List CatalogEntry
  | array s => [⟨s.name, .ndArray, s.nullable, s.type, s.shape, isInput⟩]
  | table t => t.columns.map fun c => ⟨c.name, .ndArray, false, c.type, c.shape, isInput⟩

/-- The records of the inputs in the order of the inputs, and then those of the outputs in theirs. -/
def Signature.records (s : Signature) : List CatalogEntry :=
  s.inputs.flatMap (·.records true) ++ s.outputs.flatMap (·.records false)

theorem ArgumentSpec.entries_eq_records (isInput : Bool) (spec : ArgumentSpec) :
    spec.entries isInput = spec.records isInput := by
  cases spec with
  | array s => rfl
  | table t => exact List.map_map

/-- **The entries of a function** are those of its declared inputs and outputs. -/
theorem Definition.entries_eq_records {ρ : Type} (d : Definition ρ) :
    d.entries = d.body.signature.records := by
  have he : ∀ isInput, ArgumentSpec.entries isInput = ArgumentSpec.records isInput :=
    fun isInput => funext fun spec => spec.entries_eq_records isInput
  rw [entries, Signature.entries, Signature.records, he, he]

/-- **The record of a function** has its name, the tags of its setup and its entries. -/
theorem Definition.registration_eq {ρ : Type} (d : Definition ρ) :
    d.registration = ⟨d.name, d.setup.tags, d.body.signature.records⟩ := by
  rw [registration, entries_eq_records]

/-! ## Registries -/

variable {ρ σ : Type} [CatalogStore σ]

namespace Registry

variable {r : Registry} {name : String}

/-- The registry with one more record. -/
def insert (r : Registry) (x : Registration) : Registry := ⟨r.functions.insert x.name x⟩

@[simp] theorem get?_empty (name : String) : get? {} name = none :=
  Std.TreeMap.getElem?_emptyc

@[simp] theorem size_empty : size {} = 0 :=
  Std.TreeMap.size_emptyc

theorem get?_insert (r : Registry) (x : Registration) (name : String) :
    (r.insert x).get? name = if x.name = name then some x else r.get? name := by
  unfold get? insert
  rw [Std.TreeMap.getElem?_insert]
  simp only [Std.LawfulEqCmp.compare_eq_iff_eq]

theorem contains_eq_isSome_get? (r : Registry) (name : String) :
    r.contains name = (r.get? name).isSome :=
  Std.TreeMap.contains_eq_isSome_getElem?

theorem get?_eq_none_iff : r.get? name = none ↔ r.contains name = false := by
  rw [contains_eq_isSome_get?, Option.isSome_eq_false_iff, Option.isNone_iff_eq_none]

theorem size_insert {x : Registration} (h : r.get? x.name = none) :
    (r.insert x).size = r.size + 1 := by
  have hc := get?_eq_none_iff.mp h
  unfold size insert
  rw [Std.TreeMap.size_insert, if_neg]
  rw [show r.functions.contains x.name = false from hc]
  exact Bool.false_ne_true

theorem mem_names_iff : name ∈ r.names ↔ r.contains name = true :=
  Std.TreeMap.mem_keys

theorem names_pairwise_lt (r : Registry) : r.names.Pairwise (· < ·) :=
  Std.TreeMap.ordered_keys.imp fun h => by
    rwa [show compare _ _ = compareOfLessAndEq _ _ from rfl, compareOfLessAndEq_eq_lt] at h

theorem nodup_names (r : Registry) : r.names.Nodup :=
  r.names_pairwise_lt.imp String.ne_of_lt

theorem contains_insert (r : Registry) (x : Registration) (name : String) :
    (r.insert x).contains name = (decide (x.name = name) || r.contains name) := by
  rw [contains_eq_isSome_get?, contains_eq_isSome_get?, get?_insert]
  by_cases h : x.name = name <;> simp [h]

/-- Registries in which the same is found have the same names. -/
theorem names_eq_of_get?_eq {r' : Registry} (h : ∀ name, r.get? name = r'.get? name) :
    r.names = r'.names := by
  refine r.names_pairwise_lt.eq_of_mem_iff r'.names_pairwise_lt fun name => ?_
  rw [mem_names_iff, mem_names_iff, contains_eq_isSome_get?, contains_eq_isSome_get?, h]

/-- The registry holds the records of a list, each name once. -/
structure Holds (r : Registry) (xs : List Registration) : Prop where
  get? : ∀ name x, r.get? name = some x ↔ x ∈ xs ∧ x.name = name
  once : (xs.map Registration.name).Nodup
  size : r.size = xs.length

theorem holds_empty : Holds {} [] where
  get? := by simp
  once := List.nodup_nil
  size := size_empty

theorem Holds.insert {xs : List Registration} (h : r.Holds xs) {x : Registration}
    (hx : r.get? x.name = none) : (r.insert x).Holds (xs ++ [x]) where
  get? name y := by
    rw [get?_insert, List.mem_append, List.mem_singleton]
    by_cases hn : x.name = name
    · rw [if_pos hn, Option.some.injEq]
      constructor
      · rintro rfl
        exact ⟨Or.inr rfl, hn⟩
      · rintro ⟨hy | rfl, hy'⟩
        · -- the name was free
          have := (h.get? name y).mpr ⟨hy, hy'⟩
          exact nomatch (hn ▸ hx).symm.trans this
        · rfl
    · rw [if_neg hn, h.get?]
      constructor
      · rintro ⟨hy, hy'⟩
        exact ⟨Or.inl hy, hy'⟩
      · rintro ⟨hy | rfl, hy'⟩
        · exact ⟨hy, hy'⟩
        · exact absurd hy' hn
  once := by
    rw [List.map_append, List.nodup_append]
    refine ⟨h.once, List.nodup_singleton _, ?_⟩
    rintro _ ha _ hb rfl
    obtain ⟨y, hy, hyn⟩ := List.mem_map.mp ha
    obtain rfl := List.mem_singleton.mp hb
    exact nomatch hx.symm.trans ((h.get? _ y).mpr ⟨hy, hyn⟩)
  size := by
    rw [size_insert hx, h.size, List.length_append, List.length_singleton]

/-- A known function is refused, before the store is asked or anything is reported. -/
theorem register_of_known {d : Definition ρ} (h : r.contains d.name = true) (store : σ) :
    r.register d store = ((r, store), Audit.fail (.duplicateFunction d.name)) := by
  simp [register, h]

/-- What registering a function does to the registry and the store. -/
theorem register_cases (r : Registry) (d : Definition ρ) (store : σ) :
    (r.contains d.name = true ∧ (r.register d store).1 = (r, store) ∧
      (r.register d store).2.result = .error (.duplicateFunction d.name)) ∨
    (r.contains d.name = false ∧ (CatalogStore.add store d.entries).2.result = .ok () ∧
      (r.register d store).1 = (r.insert d.registration, (CatalogStore.add store d.entries).1) ∧
      (r.register d store).2.result = .ok ()) ∨
    (∃ e, r.contains d.name = false ∧ (CatalogStore.add store d.entries).2.result = .error e ∧
      (r.register d store).1 = (r, (CatalogStore.add store d.entries).1) ∧
      (r.register d store).2.result = .error e) := by
  cases hc : r.contains d.name with
  | true =>
    rw [register_of_known hc]
    exact Or.inl ⟨rfl, rfl, rfl⟩
  | false =>
    cases ha : (CatalogStore.add store d.entries).2.result with
    | ok _ =>
      refine Or.inr (Or.inl ⟨rfl, rfl, ?_⟩)
      simp [register, hc, ha, insert, Definition.registration]
    | error e => exact Or.inr (Or.inr ⟨e, rfl, rfl, by simp [register, hc, ha]⟩)

end Registry

theorem Definition.result_register (d : Definition ρ) (store : σ) :
    (d.register store).2.result = (CatalogStore.add store d.entries).2.result := by
  simp [register]

end ArrayContract
