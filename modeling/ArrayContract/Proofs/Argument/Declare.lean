import ArrayContract.Argument.TableSpec
import Mathlib.Data.List.Nodup

/-! # Tables that can be declared

`repeated?` finds a name exactly if there is one that occurs twice (`repeated?_eq_none_iff`), and of
several the one whose second occurrence comes first (`repeated?_eq_some_iff_firstRepeated`). So a
table is declared exactly if there are as many types and shapes as names, where an omitted list has
as many as are needed, and no name is repeated (`declare_eq_ok_iff`). Its columns then have the
names, types and shapes given, in their order (`names_of_declare`, `types_of_declare`,
`shapes_of_declare`), and declaring them anew gives the table back (`declare_own`). -/

namespace ArrayContract.TableSpec

variable {name : String} {names seen : List String} {types : List DeclaredType}
  {shapes : List ShapePattern} {t : TableSpec}

/-! ## New names -/

/-- The names are different from each other and from those seen before. -/
def New (seen names : List String) : Prop := names.Nodup ∧ ∀ name ∈ names, name ∉ seen

theorem new_nil : New seen [] := ⟨List.nodup_nil, by simp⟩

theorem new_cons : New seen (name :: names) ↔ name ∉ seen ∧ New (name :: seen) names := by
  simp only [New, List.nodup_cons, List.mem_cons, forall_eq_or_imp, not_or]
  constructor
  · rintro ⟨⟨hn, hd⟩, hs, h⟩
    exact ⟨hs, hd, fun x hx => ⟨fun he => hn (he ▸ hx), h x hx⟩⟩
  · rintro ⟨hs, hd, h⟩
    exact ⟨⟨fun hn => (h name hn).1 rfl, hd⟩, hs, fun x hx => (h x hx).2⟩

theorem repeated?_eq_none_iff : repeated? seen names = none ↔ New seen names := by
  induction names generalizing seen with
  | nil => simp [repeated?, new_nil]
  | cons x names ih =>
    rw [repeated?, new_cons]
    by_cases hx : x ∈ seen
    · simp [hx]
    · simp [hx, ih]

/-- The first name that is not new: those before it are. -/
theorem repeated?_eq_some_iff : repeated? seen names = some name ↔
    ∃ before after, names = before ++ name :: after ∧ New seen before ∧
      (name ∈ seen ∨ name ∈ before) := by
  induction names generalizing seen with
  | nil => simp [repeated?]
  | cons x names ih =>
    rw [repeated?]
    by_cases hx : x ∈ seen
    · rw [if_pos hx]
      constructor
      · rintro ⟨⟩
        exact ⟨[], names, rfl, new_nil, Or.inl hx⟩
      · rintro ⟨_ | ⟨y, before⟩, after, heq, hnew, -⟩
        · rw [(List.cons.inj heq).1]
        · obtain ⟨rfl, -⟩ := List.cons.inj heq
          exact absurd hx (new_cons.mp hnew).1
    · have hmem : ∀ before : List String, name ∈ x :: seen ∨ name ∈ before ↔
          name ∈ seen ∨ name ∈ x :: before := by
        intro before
        simp only [List.mem_cons, or_assoc, or_left_comm]
      rw [if_neg hx, ih]
      constructor
      · rintro ⟨before, after, rfl, hnew, hm⟩
        exact ⟨x :: before, after, rfl, new_cons.mpr ⟨hx, hnew⟩, (hmem before).mp hm⟩
      · rintro ⟨_ | ⟨y, before⟩, after, heq, hnew, hm⟩
        · obtain ⟨rfl, -⟩ := List.cons.inj heq
          exact absurd (hm.resolve_right List.not_mem_nil) hx
        · obtain ⟨rfl, rfl⟩ := List.cons.inj heq
          exact ⟨before, after, rfl, (new_cons.mp hnew).2, (hmem before).mpr hm⟩

/-! ## Second occurrences -/

/-- A name occurs for the second time at a place. -/
def SecondAt (names : List String) (name : String) (j : Nat) : Prop :=
  names[j]? = some name ∧ (names.take j).count name = 1

/-- The second occurrence of a name comes before every other name's. -/
def FirstRepeated (names : List String) (name : String) : Prop :=
  ∃ j, SecondAt names name j ∧ ∀ other k, SecondAt names other k → j ≤ k

theorem SecondAt.not_nodup {j : Nat} (h : SecondAt names name j) :
    ¬ (names.take (j + 1)).Nodup := by
  intro hd
  have hc := List.nodup_iff_count_le_one.mp hd name
  rw [List.take_add_one, h.1, List.count_append, h.2] at hc
  simp at hc

theorem firstRepeated_of_repeated? (h : repeated? [] names = some name) :
    FirstRepeated names name := by
  obtain ⟨before, after, rfl, ⟨hd, -⟩, hm⟩ := repeated?_eq_some_iff.mp h
  have hmem : name ∈ before := hm.resolve_left List.not_mem_nil
  refine ⟨before.length, ⟨by simp, ?_⟩, fun other k hk => ?_⟩
  · rw [List.take_left, List.count_eq_one_of_mem hd hmem]
  · -- before that place no name occurs twice
    by_contra hlt
    refine hk.not_nodup ?_
    rw [List.take_append_of_le_length (by omega)]
    exact hd.sublist (List.take_sublist _ _)

theorem repeated?_eq_some_iff_firstRepeated :
    repeated? [] names = some name ↔ FirstRepeated names name := by
  refine ⟨firstRepeated_of_repeated?, fun ⟨j, hj, hmin⟩ => ?_⟩
  cases hr : repeated? [] names with
  | none =>
    have hd : names.Nodup := (repeated?_eq_none_iff.mp hr).1
    exact absurd (hd.sublist (List.take_sublist _ _)) hj.not_nodup
  | some other =>
    obtain ⟨k, hk, hmin'⟩ := firstRepeated_of_repeated? hr
    obtain rfl : j = k := Nat.le_antisymm (hmin other k hk) (hmin' name j hj)
    rw [Option.some.inj (hk.1.symm.trans hj.1)]

/-! ## Declarations -/

/-- **What a declaration takes.** -/
theorem declare_eq_ok_iff : declare names types shapes = .ok t ↔
    names.length = (orAny .any names.length types).length ∧
    names.length = (orAny .any names.length shapes).length ∧ names.Nodup ∧
    t.names = names ∧ t.types = orAny .any names.length types ∧
    t.shapes = orAny .any names.length shapes := by
  have hnone : repeated? [] names = none ↔ names.Nodup := by
    simp [repeated?_eq_none_iff, New]
  unfold declare
  dsimp only
  split
  · next hl =>
    constructor
    · rintro ⟨⟩
    · rintro ⟨ht, hs, -⟩
      exact (hl.elim (· ht) (· hs)).elim
  · next hl =>
    obtain ⟨ht, hs⟩ := not_or.mp hl
    split
    · next name hr =>
      constructor
      · rintro ⟨⟩
      · rintro ⟨-, -, hd, -⟩
        exact nomatch hr.symm.trans (hnone.mpr hd)
    · next hr =>
      constructor
      · rintro ⟨⟩
        exact ⟨not_not.mp ht, not_not.mp hs, hnone.mp hr, rfl, rfl, rfl⟩
      · rintro ⟨-, -, -, hn, ht, hs⟩
        exact congrArg Except.ok (TableSpec.ext hn.symm ht.symm hs.symm)

/-- The columns of a declared table have the names given, each of them once. -/
theorem names_of_declare (h : declare names types shapes = .ok t) :
    t.names = names ∧ t.names.Nodup := by
  obtain ⟨-, -, hd, hn, -⟩ := declare_eq_ok_iff.mp h
  exact ⟨hn, hn.symm ▸ hd⟩

/-! ## Lists that may be omitted -/

section OrAny

variable {α : Type} {any : α} {items : List α} {n : Nat}

/-- There is one item for each name, or the items are omitted. -/
def GivenFor (names : List String) (items : List α) : Prop :=
  items = [] ∨ items.length = names.length

theorem length_orAny (any : α) (n : Nat) (items : List α) :
    (orAny any n items).length = if items = [] then n else items.length := by
  unfold orAny
  cases items <;> simp

theorem length_eq_orAny_iff :
    names.length = (orAny any names.length items).length ↔ GivenFor names items := by
  rw [length_orAny]
  unfold GivenFor
  split <;> simp_all [eq_comm]

theorem orAny_of_length (h : items.length = n) : orAny any n items = items := by
  subst h
  cases items <;> rfl

/-- What stands at a place is the item given for it, or the wildcard where the items are omitted. -/
theorem getElem?_orAny {i : Nat} {a : α} (h : (orAny any n items)[i]? = some a) :
    items = [] ∧ a = any ∨ items[i]? = some a := by
  unfold orAny at h
  rcases items with _ | ⟨x, items⟩
  · obtain ⟨hi, rfl⟩ := List.getElem?_eq_some_iff.mp h
    exact Or.inl ⟨rfl, List.getElem_replicate hi⟩
  · exact Or.inr h

end OrAny

theorem types_of_declare (h : declare names types shapes = .ok t) :
    t.types = orAny .any names.length types :=
  (declare_eq_ok_iff.mp h).2.2.2.2.1

theorem shapes_of_declare (h : declare names types shapes = .ok t) :
    t.shapes = orAny .any names.length shapes :=
  (declare_eq_ok_iff.mp h).2.2.2.2.2

/-- A table whose columns have different names is what they declare. -/
theorem declare_own (h : t.names.Nodup) : declare t.names t.types t.shapes = .ok t := by
  rw [declare_eq_ok_iff, orAny_of_length t.length_types, orAny_of_length t.length_shapes]
  exact ⟨t.length_types.symm, t.length_shapes.symm, h, rfl, rfl, rfl⟩

/-- **What a declaration refuses.** -/
theorem declare_eq_error_iff {fault : Fault} : declare names types shapes = .error fault ↔
    (¬ (GivenFor names types ∧ GivenFor names shapes) ∧
      fault = .lengthMismatch names.length (if types = [] then names.length else types.length)
        (if shapes = [] then names.length else shapes.length)) ∨
    (GivenFor names types ∧ GivenFor names shapes ∧
      ∃ name, FirstRepeated names name ∧ fault = .duplicateColumn name) := by
  have hfit : ¬ (names.length ≠ (orAny .any names.length types).length ∨
      names.length ≠ (orAny .any names.length shapes).length) ↔
      GivenFor names types ∧ GivenFor names shapes := by
    rw [not_or, not_not, not_not, length_eq_orAny_iff, length_eq_orAny_iff]
  unfold declare
  dsimp only
  split
  · next hl =>
    have hg : ¬ (GivenFor names types ∧ GivenFor names shapes) := fun hg => hfit.mpr hg hl
    rw [length_orAny, length_orAny, Except.error.injEq, eq_comm]
    constructor
    · exact fun h => Or.inl ⟨hg, h⟩
    · rintro (⟨-, h⟩ | ⟨ht, hs, -⟩)
      · exact h
      · exact absurd ⟨ht, hs⟩ hg
  · next hl =>
    obtain ⟨ht, hs⟩ := hfit.mp hl
    simp only [← repeated?_eq_some_iff_firstRepeated]
    cases hr : repeated? [] names <;> simp [ht, hs, eq_comm]

/-- The column at a place has what is declared there, and is declared as an array with nulls. -/
theorem getElem?_arraySpecs_of_declare (h : declare names types shapes = .ok t) {i : Nat}
    (hi : names[i]? = some name) :
    ∃ (type : DeclaredType) (shape : ShapePattern),
      (types = [] ∧ type = .any ∨ types[i]? = some type) ∧
      (shapes = [] ∧ shape = .any ∨ shapes[i]? = some shape) ∧
      t.types[i]? = some type ∧ t.shapes[i]? = some shape ∧ t.arraySpecs[i]? = some
        ({ name, nullable := false, type, shape, backend := .arrow } : ArraySpec) := by
  rw [← (names_of_declare h).1, ← t.map_name_columns, List.getElem?_map,
    Option.map_eq_some_iff] at hi
  obtain ⟨c, hc, rfl⟩ := hi
  have htype : t.types[i]? = some c.type := by
    rw [← t.map_type_columns, List.getElem?_map, hc, Option.map_some]
  have hshape : t.shapes[i]? = some c.shape := by
    rw [← t.map_shape_columns, List.getElem?_map, hc, Option.map_some]
  refine ⟨c.type, c.shape, getElem?_orAny (types_of_declare h ▸ htype),
    getElem?_orAny (shapes_of_declare h ▸ hshape), htype, hshape, ?_⟩
  rw [arraySpecs, List.getElem?_map, hc, Option.map_some]
  rfl

/-- **Declarations of tables.** A table is declared exactly by names that differ from each other,
with a type and a shape for each of them or with those lists omitted. A list of another length is
refused before a repeated name is, and of the repeated names it is the one whose second occurrence
comes first. A table that is declared has, place by place, the names, types and shapes given, each
column an array of the backend with nulls that is not marked as nullable; and its own lists declare
it again. -/
theorem declare_takes_exactly (names : List String) (types : List DeclaredType)
    (shapes : List ShapePattern) :
    ((∃ t, declare names types shapes = .ok t) ↔
      GivenFor names types ∧ GivenFor names shapes ∧ names.Nodup) ∧
    (∀ fault, declare names types shapes = .error fault ↔
      (¬ (GivenFor names types ∧ GivenFor names shapes) ∧
        fault = .lengthMismatch names.length (if types = [] then names.length else types.length)
          (if shapes = [] then names.length else shapes.length)) ∨
      (GivenFor names types ∧ GivenFor names shapes ∧
        ∃ name, FirstRepeated names name ∧ fault = .duplicateColumn name)) ∧
    ∀ t, declare names types shapes = .ok t →
      t.names = names ∧ t.types.length = names.length ∧ t.shapes.length = names.length ∧
      t.arraySpecs.length = names.length ∧
      (∀ (i : Nat) (name : String), names[i]? = some name →
        ∃ (type : DeclaredType) (shape : ShapePattern),
          (types = [] ∧ type = .any ∨ types[i]? = some type) ∧
          (shapes = [] ∧ shape = .any ∨ shapes[i]? = some shape) ∧
          t.types[i]? = some type ∧ t.shapes[i]? = some shape ∧ t.arraySpecs[i]? = some
            ({ name, nullable := false, type, shape, backend := .arrow } : ArraySpec)) ∧
      declare t.names t.types t.shapes = .ok t := by
  refine ⟨⟨?_, ?_⟩, fun fault => declare_eq_error_iff, fun t h => ?_⟩
  · rintro ⟨t, h⟩
    obtain ⟨ht, hs, hd, -⟩ := declare_eq_ok_iff.mp h
    exact ⟨length_eq_orAny_iff.mp ht, length_eq_orAny_iff.mp hs, hd⟩
  · rintro ⟨ht, hs, hd⟩
    have ht' : names.length = (orAny DeclaredType.any names.length types).length :=
      length_eq_orAny_iff.mpr ht
    have hs' : names.length = (orAny ShapePattern.any names.length shapes).length :=
      length_eq_orAny_iff.mpr hs
    exact ⟨⟨names, _, _, ht'.symm, hs'.symm⟩,
      declare_eq_ok_iff.mpr ⟨ht', hs', hd, rfl, rfl, rfl⟩⟩
  · obtain ⟨hnames, hd⟩ := names_of_declare h
    refine ⟨hnames, ?_, ?_, ?_, fun i name hi => getElem?_arraySpecs_of_declare h hi,
      declare_own hd⟩
    · rw [t.length_types, hnames]
    · rw [t.length_shapes, hnames]
    · rw [arraySpecs, List.length_map, t.length_columns, hnames]

/-- Of two names that occur twice it is the one that is repeated first, and a list of types that is
too short comes before both. -/
theorem declare_takes_exactly_refusals :
    let names := ["a", "b", "c", "b", "a"]
    declare names [] [] = .error (.duplicateColumn "b") ∧ FirstRepeated names "b" ∧
      declare names [.any] [] = .error (.lengthMismatch 5 1 5) ∧
      ¬ GivenFor names [DeclaredType.any] := by
  intro names
  have hb : declare names [] [] = .error (.duplicateColumn "b") := rfl
  have hl : declare names [.any] [] = .error (.lengthMismatch 5 1 5) := rfl
  obtain ⟨-, repeated, -⟩ := declare_takes_exactly names [] []
  obtain ⟨-, short, -⟩ := declare_takes_exactly names [.any] []
  refine ⟨hb, ?_, hl, ?_⟩
  · rcases (repeated _).mp hb with ⟨-, h⟩ | ⟨-, -, name, hname, h⟩
    · cases h
    · rwa [Fault.duplicateColumn.inj h]
  · rcases (short _).mp hl with ⟨h, -⟩ | ⟨-, -, name, -, h⟩
    · exact fun ht => h ⟨ht, Or.inl rfl⟩
    · cases h

end ArrayContract.TableSpec
