import ArrayContract.Proofs.Element.Floats

/-! # Equality of values

Equality of values is symmetric and transitive, but not every value equals itself: numbers on the
host side, in dense arrays and nested sequences, are compared as numbers, and what is not a number
differs from itself. Tensors and tables are compared word by word, so nothing in them matters.

The three laws are stated of one value at a time (`LawfulAt`), which is what an induction on values
needs, and they pass through a constructor whose arguments are compared (`LawfulAt.through`) and
through lists that are compared item by item (`LawfulAt.items`). What is left are the elements
(`ElementType.lawfulAt_same`), where the two zeros are equal. -/

namespace ArrayContract

open Binary (Format Reading)

/-- The laws of a comparison at one value: it can be turned round and chained, and the value equals
itself just if it is whole. -/
structure LawfulAt {α : Type} (same : α → α → Bool) (Whole : α → Prop) (a : α) : Prop where
  symm : ∀ {b : α}, same a b = true → same b a = true
  trans : ∀ {b c : α}, same a b = true → same b c = true → same a c = true
  self : same a a = true ↔ Whole a

section Laws

variable {α β : Type} {same : α → α → Bool} {Whole : α → Prop}

/-- A value that equals nothing but itself. -/
theorem LawfulAt.alone {a : α} (h : ∀ b, same a b = true ↔ a = b) (hwhole : Whole a) :
    LawfulAt same Whole a where
  symm {b} hb := by
    obtain rfl := (h b).mp hb
    exact hb
  trans {b c} hb hc := by
    obtain rfl := (h b).mp hb
    exact hc
  self := iff_of_true ((h a).mpr rfl) hwhole

/-- A value made by a constructor equals what the same constructor makes of equal arguments. -/
theorem LawfulAt.through {same' : β → β → Bool} {Whole' : β → Prop} {mk : α → β} {a : α}
    (h : LawfulAt same Whole a)
    (hsame : ∀ x b, same' (mk x) b = true ↔ ∃ y, b = mk y ∧ same x y = true)
    (hwhole : Whole' (mk a) ↔ Whole a) (hmk : Function.Injective mk) :
    LawfulAt same' Whole' (mk a) where
  symm hb := by
    obtain ⟨y, rfl, hy⟩ := (hsame a _).mp hb
    exact (hsame y _).mpr ⟨a, rfl, h.symm hy⟩
  trans hb hc := by
    obtain ⟨y, rfl, hy⟩ := (hsame a _).mp hb
    obtain ⟨z, rfl, hz⟩ := (hsame y _).mp hc
    exact (hsame a _).mpr ⟨z, rfl, h.trans hy hz⟩
  self := by
    rw [hsame, hwhole, ← h.self]
    constructor
    · rintro ⟨y, hy, hs⟩
      rwa [← hmk hy] at hs
    · exact fun hs => ⟨a, rfl, hs⟩

/-- Lists that are compared item by item. -/
theorem LawfulAt.items {all : List α → List α → Bool}
    (hall : ∀ as bs, all as bs = true ↔ List.Forall₂ (fun a b => same a b = true) as bs)
    {as : List α} (h : ∀ a ∈ as, LawfulAt same Whole a) :
    LawfulAt all (fun as => ∀ a ∈ as, Whole a) as where
  symm {bs} hb := by
    rw [hall] at hb ⊢
    induction hb with
    | nil => exact .nil
    | cons hab _ ih =>
      obtain ⟨ha, has⟩ := List.forall_mem_cons.mp h
      exact .cons (ha.symm hab) (ih has)
  trans {bs cs} hb hc := by
    rw [hall] at hb hc ⊢
    induction hb generalizing cs with
    | nil => exact hc
    | cons hab _ ih =>
      obtain ⟨ha, has⟩ := List.forall_mem_cons.mp h
      obtain ⟨c, cs, hbc, hcs, rfl⟩ := List.forall₂_cons_left_iff.mp hc
      exact .cons (ha.trans hab hbc) (ih has hcs)
  self := by
    rw [hall, List.forall₂_same]
    exact forall₂_congr fun a ha => (h a ha).self

end Laws

/-! ## Elements and dense arrays -/

/-- Two words are equal as numbers if both are numbers, and the same or both zero. -/
theorem Binary.Format.same_iff {f : Format} {x y : Nat} :
    f.same x y = true ↔ f.isNaN x = false ∧ f.isNaN y = false ∧
      (x = y ∨ f.magnitude x = 0 ∧ f.magnitude y = 0) := by
  simp [same, and_assoc]

theorem ElementType.lawfulAt_same (t : ElementType) (x : t.Word) :
    LawfulAt t.same (t.read · ≠ .nan) x := by
  rcases ht : t.isFloat with _ | _
  · have hf := format?_eq_none ht
    refine .alone (fun y => ?_) ?_
    · rw [same, hf]
      exact beq_iff_eq
    · rw [read_of_integer ht]
      simp
  · obtain ⟨f, hf, -⟩ := exists_format ht
    have hsame : ∀ x y, t.same x y = true ↔ f.isNaN x.toNat = false ∧ f.isNaN y.toNat = false ∧
        (x.toNat = y.toNat ∨ f.magnitude x.toNat = 0 ∧ f.magnitude y.toNat = 0) := fun x y => by
      rw [same, hf]
      exact Format.same_iff
    refine ⟨fun h => ?_, fun h h' => ?_, ?_⟩
    · obtain ⟨hx, hy, heq⟩ := (hsame _ _).mp h
      exact (hsame _ _).mpr ⟨hy, hx, heq.imp Eq.symm And.symm⟩
    · obtain ⟨hx, -, hxy⟩ := (hsame _ _).mp h
      obtain ⟨-, hz, hyz⟩ := (hsame _ _).mp h'
      refine (hsame _ _).mpr ⟨hx, hz, ?_⟩
      rcases hxy with hxy | ⟨hx0, hy0⟩
      · rw [hxy]
        exact hyz
      · rcases hyz with hyz | ⟨-, hz0⟩
        · exact Or.inr ⟨hx0, hyz ▸ hy0⟩
        · exact Or.inr ⟨hx0, hz0⟩
    · have hnan : t.isNaN x = f.isNaN x.toNat := by rw [isNaN, hf]
      have hread : t.read x ≠ .nan ↔ f.isNaN x.toNat = false := by
        rw [← Bool.not_eq_true, ← hnan, isNaN_iff]
      rw [hsame, hread]
      simp

theorem Buffer.sameWords_iff (t : ElementType) (xs ys : List t.Word) :
    sameWords t xs ys = true ↔ List.Forall₂ (fun x y => t.same x y = true) xs ys := by
  induction xs generalizing ys with
  | nil => cases ys <;> simp [sameWords]
  | cons x xs ih => cases ys <;> simp [sameWords, ih]

theorem Buffer.lawfulAt_same (b : Buffer) :
    LawfulAt same (fun b => ∀ x ∈ b.words, b.type.read x ≠ .nan) b := by
  obtain ⟨t, words⟩ := b
  have hwords : LawfulAt (sameWords t) (fun xs => ∀ x ∈ xs, t.read x ≠ .nan) words :=
    .items (sameWords_iff t) fun x _ => t.lawfulAt_same x
  refine hwords.through (fun xs b => ?_) Iff.rfl fun _ _ h => ?_
  · obtain ⟨u, ys⟩ := b
    by_cases h : u = t
    · subst h
      simp [same]
    · simp [same, h]
  · exact eq_of_heq (Buffer.mk.inj h).2

theorem DenseArray.lawfulAt_same (a : DenseArray) :
    LawfulAt same (fun a => ∀ x ∈ a.buffer.words, a.buffer.type.read x ≠ .nan) a := by
  obtain ⟨shape, buffer⟩ := a
  refine buffer.lawfulAt_same.through (fun x b => ?_) Iff.rfl
    fun _ _ h => (DenseArray.mk.inj h).2
  obtain ⟨shape', y⟩ := b
  rw [same, Bool.and_eq_true, beq_iff_eq]
  constructor
  · rintro ⟨rfl, h⟩
    exact ⟨y, rfl, h⟩
  · rintro ⟨_, ⟨⟩, h⟩
    exact ⟨rfl, h⟩

/-! ## Nested sequences -/

namespace Nested

/-- All floating-point numbers of a nested sequence are numbers. -/
def Whole (v : Nested) : Prop := ∀ x, .float x ∈ v.numbers → ElementType.float64.read x ≠ .nan

theorem sameItems_iff (as bs : List Nested) :
    sameItems as bs = true ↔ List.Forall₂ (fun a b => same a b = true) as bs := by
  induction as generalizing bs with
  | nil => cases bs <;> simp [sameItems]
  | cons a as ih => cases bs <;> simp [sameItems, ih]

theorem whole_list {items : List Nested} : (list items).Whole ↔ ∀ v ∈ items, v.Whole := by
  simp only [Whole, numbers, numbersOf_eq_flatMap, List.mem_flatMap]
  constructor
  · exact fun h v hv x hx => h x ⟨v, hv, hx⟩
  · rintro h x ⟨v, hv, hx⟩
    exact h v hv x hx

theorem lawfulAt_same : ∀ v : Nested, LawfulAt same Whole v
  | int x => by
    refine .alone (fun b => ?_) ?_
    · cases b <;> simp [same]
    · simp [Whole, numbers]
  | float x => by
    refine (ElementType.float64.lawfulAt_same x).through (fun x b => ?_) ?_ fun _ _ => float.inj
    · cases b <;> simp [same]
    · simp [Whole, numbers]
  | list items => by
    have hitems : LawfulAt sameItems (fun vs => ∀ v ∈ vs, v.Whole) items :=
      .items sameItems_iff fun v _ => lawfulAt_same v
    refine hitems.through (fun as b => ?_) whole_list fun _ _ => list.inj
    cases b <;> simp [same]

end Nested

/-! ## Values -/

namespace Value

/-- A value is another one, or lies in it at any depth of tuples. -/
inductive Within (u : Value) : Value → Prop
  | self : Within u u
  | item {items : List Value} {v : Value} (hv : v ∈ items) (h : Within u v) :
      Within u (tuple items)

/-- A dense array or a nested sequence with an element that is not a number. -/
def HoldsNaN : Value → Prop
  | dense a => ∃ x ∈ a.buffer.words, a.buffer.type.read x = .nan
  | nested v => ∃ x, .float x ∈ v.numbers ∧ ElementType.float64.read x = .nan
  | _ => False

/-- No dense array and no nested sequence in a value has an element that is not a number. -/
def Whole (a : Value) : Prop := ∀ u, Within u a → ¬ u.HoldsNaN

theorem sameItems_iff (as bs : List Value) :
    sameItems as bs = true ↔ List.Forall₂ (fun a b => same a b = true) as bs := by
  induction as generalizing bs with
  | nil => cases bs <;> simp [sameItems]
  | cons a as ih => cases bs <;> simp [sameItems, ih]

/-- A value that is no tuple has no parts. -/
theorem whole_iff {a : Value} (h : ∀ items, a ≠ tuple items) : a.Whole ↔ ¬ a.HoldsNaN := by
  refine ⟨fun ha => ha a .self, fun ha u hu => ?_⟩
  rcases hu with _ | ⟨hv, -⟩
  · exact ha
  · exact absurd rfl (h _)

theorem whole_tuple {items : List Value} : (tuple items).Whole ↔ ∀ v ∈ items, v.Whole := by
  constructor
  · exact fun h v hv u hu => h u (.item hv hu)
  · intro h u hu
    rcases hu with _ | ⟨hv, hu⟩
    · exact not_false
    · exact h _ hv u hu

theorem lawfulAt_same : ∀ a : Value, LawfulAt same Whole a
  | dense a => by
    refine a.lawfulAt_same.through (fun x b => ?_) ?_ fun _ _ => dense.inj
    · cases b <;> simp [same]
    · rw [whole_iff (by simp)]
      simp [HoldsNaN]
  | nested v => by
    refine v.lawfulAt_same.through (fun x b => ?_) ?_ fun _ _ => nested.inj
    · cases b <;> simp [same]
    · rw [whole_iff (by simp)]
      simp [HoldsNaN, Nested.Whole]
  | tensor x => by
    refine .alone (fun b => ?_) ((whole_iff (by simp)).mpr (by simp [HoldsNaN]))
    cases b <;> simp [same, Tensor.same_iff]
  | table x => by
    refine .alone (fun b => ?_) ((whole_iff (by simp)).mpr (by simp [HoldsNaN]))
    cases b <;> simp [same]
  | text x => by
    refine .alone (fun b => ?_) ((whole_iff (by simp)).mpr (by simp [HoldsNaN]))
    cases b <;> simp [same]
  | handle x => by
    refine .alone (fun b => ?_) ((whole_iff (by simp)).mpr (by simp [HoldsNaN]))
    cases b <;> simp [same]
  | tuple items => by
    have hitems : LawfulAt sameItems (fun vs => ∀ v ∈ vs, v.Whole) items :=
      .items sameItems_iff fun v _ => lawfulAt_same v
    refine hitems.through (fun as b => ?_) whole_tuple fun _ _ => tuple.inj
    cases b <;> simp [same]

end Value

/-- **Equality of values** is symmetric and transitive. A value equals itself just if no dense array
and no nested sequence that it is or holds, at any depth of tuples, has an element that is not a
number. Tensors and tables always equal themselves. -/
theorem equality_partial :
    (∀ a b : Value, a.same b = true ↔ b.same a = true) ∧
    (∀ a b c : Value, a.same b = true → b.same c = true → a.same c = true) ∧
    (∀ a : Value, a.same a = true ↔ ∀ u, Value.Within u a → ¬ u.HoldsNaN) ∧
    (∀ x : Tensor, (Value.tensor x).same (.tensor x) = true) ∧
    ∀ x : Batch, (Value.table x).same (.table x) = true := by
  refine ⟨fun a b => ⟨a.lawfulAt_same.symm, b.lawfulAt_same.symm⟩,
    fun a b c => a.lawfulAt_same.trans, fun a => a.lawfulAt_same.self, fun x => ?_, fun x => ?_⟩
  · rw [Value.same, Tensor.same_iff]
  · rw [Value.same, beq_self_eq_true]

/-- Zeros of both signs beside what is not a number in a tensor; and the latter in a dense array two
tuples deep. -/
theorem equality_partial_zeros :
    let zeros (x y : ElementType.float64.Word) : Value :=
      .tuple [.nested (.list [.float x, .list [.float y]]),
        .tensor (.ofCells [1] .float32 [some 0x7fc00000])]
    let minus : ElementType.float64.Word := 0x8000000000000000
    let deep : Value := .tuple [.tuple [.text "x", .dense ⟨[1], .float32, [0x7fc00000]⟩]]
    (zeros 0 0).same (zeros minus 0) = true ∧ (zeros minus 0).same (zeros minus minus) = true ∧
      (zeros 0 0).same (zeros minus minus) = true ∧ deep.same deep = false := by
  intro zeros minus deep
  obtain ⟨-, trans, self, -⟩ := equality_partial
  obtain ⟨hfirst, hsecond⟩ : (zeros 0 0).same (zeros minus 0) = true ∧
      (zeros minus 0).same (zeros minus minus) = true := by
    subst zeros minus
    decide
  have hnan : (Value.dense ⟨[1], .float32, [0x7fc00000]⟩).HoldsNaN :=
    ⟨0x7fc00000, List.mem_singleton.mpr rfl, ElementType.isNaN_iff.mp rfl⟩
  have hwithin : Value.Within (.dense ⟨[1], .float32, [0x7fc00000]⟩) deep :=
    .item (List.mem_singleton.mpr rfl) (.item (.tail _ (.head _)) .self)
  refine ⟨hfirst, hsecond, trans _ _ _ hfirst hsecond, Bool.eq_false_iff.mpr fun hdeep => ?_⟩
  exact (self deep).mp hdeep _ hwithin hnan

end ArrayContract
