import ArrayContract.Audit
import ArrayContract.Catalog.Entry

/-! # Catalog stores

A catalog store takes in entries. `LawfulCatalogStore` says what is expected of one: an addition
that succeeds appends, and one that fails changes nothing. `MemoryStore` never refuses, and
`BoundedStore` refuses what would take it beyond its capacity. -/

namespace ArrayContract

/-- A store of catalog entries. -/
class CatalogStore (σ : Type) where
  /-- The entries held, oldest first. -/
  entries : σ → List CatalogEntry
  /-- Offers entries to a store: what becomes of it, and whether it took them. -/
  add : σ → List CatalogEntry → σ × Audit Unit

/-- A store that takes entries whole or not at all. -/
class LawfulCatalogStore (σ : Type) [CatalogStore σ] : Prop where
  entries_of_ok : ∀ (store : σ) (new : List CatalogEntry),
    (CatalogStore.add store new).2.result = .ok () →
      CatalogStore.entries (CatalogStore.add store new).1 = CatalogStore.entries store ++ new
  entries_of_error : ∀ (store : σ) (new : List CatalogEntry) (fault : Fault),
    (CatalogStore.add store new).2.result = .error fault →
      CatalogStore.entries (CatalogStore.add store new).1 = CatalogStore.entries store

/-! ## Stores in memory -/

/-- A store that takes all entries. -/
structure MemoryStore where
  held : List CatalogEntry := []
  deriving DecidableEq, Inhabited

namespace MemoryStore

def add (store : MemoryStore) (new : List CatalogEntry) : MemoryStore × Audit Unit :=
  (⟨store.held ++ new⟩, Audit.report (.addingEntries new.length))

instance : CatalogStore MemoryStore where
  entries := held
  add := add

instance : LawfulCatalogStore MemoryStore where
  entries_of_ok _ _ _ := rfl
  entries_of_error _ _ _ h := nomatch h

end MemoryStore

/-- A store in front of which entries are counted; those that would exceed the capacity are refused
before they reach it. -/
structure BoundedStore where
  capacity : Nat
  store : MemoryStore := {}
  deriving DecidableEq

namespace BoundedStore

def add (s : BoundedStore) (new : List CatalogEntry) : BoundedStore × Audit Unit :=
  if s.capacity < s.store.held.length + new.length then
    (s, Audit.fail (.execution "store full"))
  else
    let (store, taken) := s.store.add new
    (⟨s.capacity, store⟩, taken)

instance : CatalogStore BoundedStore where
  entries s := s.store.held
  add := add

instance : LawfulCatalogStore BoundedStore where
  entries_of_ok s new h := by
    by_cases full : s.capacity < s.store.held.length + new.length
    · simp [CatalogStore.add, add, full] at h
    · simp [CatalogStore.add, CatalogStore.entries, add, full, MemoryStore.add]
  entries_of_error s new _ h := by
    by_cases full : s.capacity < s.store.held.length + new.length
    · simp [CatalogStore.add, add, full]
    · simp [CatalogStore.add, add, full, MemoryStore.add] at h

end BoundedStore

/-- One of two kinds of store. -/
instance {σ τ : Type} [CatalogStore σ] [CatalogStore τ] : CatalogStore (σ ⊕ τ) where
  entries
    | .inl s => CatalogStore.entries s
    | .inr s => CatalogStore.entries s
  add
    | .inl s, new =>
      let (s, taken) := CatalogStore.add s new
      (.inl s, taken)
    | .inr s, new =>
      let (s, taken) := CatalogStore.add s new
      (.inr s, taken)

instance {σ τ : Type} [CatalogStore σ] [CatalogStore τ] [LawfulCatalogStore σ]
    [LawfulCatalogStore τ] : LawfulCatalogStore (σ ⊕ τ) where
  entries_of_ok store new h := by
    cases store with
    | inl s => exact LawfulCatalogStore.entries_of_ok s new h
    | inr s => exact LawfulCatalogStore.entries_of_ok s new h
  entries_of_error store new fault h := by
    cases store with
    | inl s => exact LawfulCatalogStore.entries_of_error s new fault h
    | inr s => exact LawfulCatalogStore.entries_of_error s new fault h

end ArrayContract
