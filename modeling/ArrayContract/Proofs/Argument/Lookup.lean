import ArrayContract.Proofs.Argument.Description

/-! # Tables are read by name

`Batch.First` says which column a name stands for, without a search: the one that has the name and
none before it. With it, `ColumnSpec.TakenAs` and `ColumnSpec.Refused` list what can become of one
declared column, and `materialize_by_name` says that a table is taken apart column by column in the
order of the declarations, up to the first that is refused. Nothing else in a table has a say in it:
two tables in which the declared names stand for the same columns give the same values, or the same
fault, and report the same on the way (`materialize_congr`). -/

namespace ArrayContract

open Outcome

/-! ## Names -/

namespace Batch

variable {b b' : Batch} {name : String} {column : Column}

/-- A name stands for a column: the column has the name, and no column before it. -/
def First (b : Batch) (name : String) (column : Column) : Prop :=
  ∃ before field after, b.fields = before ++ field :: after ∧ field.name = name ∧
    field.column = column ∧ ∀ f ∈ before, f.name ≠ name

/-- No column has a name. -/
def Lacks (b : Batch) (name : String) : Prop := ∀ f ∈ b.fields, f.name ≠ name

/-- The columns have one length, and it can be counted. -/
structure Aligned (b : Batch) : Prop where
  rows : ∀ f ∈ b.fields, f.column.length = b.rows
  bounded : b.rows < countBound

theorem column?_eq_some_iff : b.column? name = some column ↔ b.First name column := by
  unfold column?
  simp only [Option.map_eq_some_iff, List.find?_eq_some_iff_append, beq_iff_eq, Bool.not_eq_true',
    beq_eq_false_iff_ne]
  constructor
  · rintro ⟨field, ⟨hn, before, after, hf, hb⟩, hc⟩
    exact ⟨before, field, after, hf, hn, hc, hb⟩
  · rintro ⟨before, field, after, hf, hn, hc, hb⟩
    exact ⟨field, ⟨hn, before, after, hf, hb⟩, hc⟩

theorem column?_eq_none_iff : b.column? name = none ↔ b.Lacks name := by
  simp [column?, Lacks]

theorem First.length_eq (h : b.First name column) (hb : b.Aligned) : column.length = b.rows := by
  obtain ⟨before, field, after, hf, -, rfl, -⟩ := h
  exact hb.rows field (hf ▸ List.mem_append_right before List.mem_cons_self)

/-- A table that is put together from columns has all of them of one length. -/
theorem aligned_of_ofColumns {columns : List (String × Column)} (h : ofColumns columns = .ok b)
    (hl : ∀ c ∈ columns, c.2.length < countBound) : b.Aligned := by
  rcases columns with _ | ⟨⟨name, first⟩, columns⟩
  · cases h
  · simp only [ofColumns] at h
    split at h
    · next hall =>
      obtain rfl := Except.ok.inj h
      refine ⟨fun f hf => ?_, hl _ List.mem_cons_self⟩
      obtain ⟨c, hc, rfl⟩ := List.mem_map.mp hf
      exact beq_iff_eq.mp (List.all_eq_true.mp hall c hc)
    · cases h

end Batch

/-! ## One column -/

/-- Only a column of another type than the six of arrays cannot be read along one axis. -/
theorem Tensor.vector_eq_error_iff {column : Column} {fault : Fault}
    (hl : column.length < countBound) : Tensor.vector column = .error fault ↔
      (∀ type, column.type ≠ .numeric type) ∧
        fault = .unsupportedRepresentation (.native .arrow) (.column column.type) := by
  by_cases h : ∃ type, column.type = .numeric type
  · obtain ⟨type, ht⟩ := h
    obtain ⟨x, hx⟩ := TableSpec.exists_vector ht hl
    rw [hx]
    constructor
    · rintro ⟨⟩
    · rintro ⟨hn, -⟩
      exact absurd ht (hn type)
  · have hn : ∀ type, column.type ≠ .numeric type := not_exists.mp h
    have he : Tensor.vector column =
        .error (.unsupportedRepresentation (.native .arrow) (.column column.type)) := by
      obtain ⟨d, cells⟩ := column
      cases d with
      | numeric type => exact absurd rfl (hn type)
      | _ => rfl
    rw [he, Except.error.injEq, eq_comm]
    exact ⟨fun h => ⟨hn, h⟩, And.right⟩

namespace ColumnSpec

variable {b : Batch} {c : ColumnSpec} {v : Value} {fault : Fault}

/-- A declared column is taken out: the first of its name can be read along one axis, with all its
cells, and is brought to the declaration, which leaves it a tensor of as many cells. -/
def TakenAs (b : Batch) (c : ColumnSpec) (v : Value) : Prop :=
  ∃ column x y, b.First c.name column ∧ Tensor.vector column = .ok x ∧
    x.shape = [column.length] ∧ x.column = column ∧
    (c.arraySpec.check (.tensor x)).result = .ok v ∧ v = .tensor y ∧ y.length = column.length

/-- A declared column is not taken out: there is none, or the first of its name cannot be read along
one axis, or it is refused by the declaration. -/
inductive Refused (b : Batch) (c : ColumnSpec) : Fault → Prop
  | missing (lacks : b.Lacks c.name) : Refused b c (.missingColumn c.name)
  | unread {column : Column} {e : Fault} (first : b.First c.name column)
      (failed : Tensor.vector column = .error e) : Refused b c (.invalidColumn c.name e)
  | unfit {column : Column} {x : Tensor} {e : Fault} (first : b.First c.name column)
      (read : Tensor.vector column = .ok x)
      (failed : (c.arraySpec.check (.tensor x)).result = .error e) :
      Refused b c (.invalidColumn c.name e)

theorem takenAs_iff : c.TakenAs b v ↔ (TableSpec.materializeColumn b c).result = .ok v := by
  simp only [TableSpec.materializeColumn_eq_ok_iff, Batch.column?_eq_some_iff]
  constructor
  · rintro ⟨column, x, -, hf, hx, -, -, hv, -⟩
    exact ⟨column, x, hf, hx, hv⟩
  · rintro ⟨column, x, hf, hx, hv⟩
    obtain ⟨y, rfl, hy⟩ := exists_tensor_of_check hv
    obtain ⟨hs, rfl, -⟩ := Tensor.ofColumn_eq_ok.mp hx
    refine ⟨x.column, x, y, hf, hx, hs, rfl, hv, rfl, ?_⟩
    rw [Tensor.length, hy, Column.length_castAs]

theorem refused_iff : c.Refused b fault ↔
    (TableSpec.materializeColumn b c).result = .error fault := by
  rw [TableSpec.result_materializeColumn]
  constructor
  · rintro (lacks | ⟨first, failed⟩ | ⟨first, read, failed⟩)
    · rw [Batch.column?_eq_none_iff.mpr lacks]
    · rw [Batch.column?_eq_some_iff.mpr first]
      simp [failed]
    · rw [Batch.column?_eq_some_iff.mpr first]
      simp [read, failed]
  · intro h
    cases hc : b.column? c.name with
    | none =>
      rw [hc] at h
      obtain rfl := Except.error.inj h
      exact .missing (Batch.column?_eq_none_iff.mp hc)
    | some column =>
      rw [hc] at h
      have hf := Batch.column?_eq_some_iff.mp hc
      obtain ⟨e, he, rfl⟩ := mapError_eq_error.mp h
      rcases bind_eq_error.mp he with he | ⟨x, hx, he⟩
      · exact .unread hf he
      · exact .unfit hf hx he

end ColumnSpec

/-! ## All columns -/

namespace TableSpec

variable {t : TableSpec} {b b' : Batch} {cs : List ColumnSpec}

theorem materializeColumns_congr (h : ∀ c ∈ cs, b.column? c.name = b'.column? c.name) :
    materializeColumns b cs = materializeColumns b' cs := by
  induction cs with
  | nil => rfl
  | cons c cs ih =>
    have hc : materializeColumn b c = materializeColumn b' c := by
      unfold materializeColumn
      rw [h c List.mem_cons_self]
    rw [materializeColumns, materializeColumns, hc,
      ih fun d hd => h d (List.mem_cons_of_mem c hd)]

/-- Tables in which each declared name stands for the same column are taken apart alike. -/
theorem materialize_congr (h : ∀ c ∈ t.columns,
      (∃ column, b.First c.name column ∧ b'.First c.name column) ∨
        b.Lacks c.name ∧ b'.Lacks c.name) : t.materialize b = t.materialize b' := by
  refine materializeColumns_congr fun c hc => ?_
  rcases h c hc with ⟨column, hb, hb'⟩ | ⟨hb, hb'⟩
  · rw [Batch.column?_eq_some_iff.mpr hb, Batch.column?_eq_some_iff.mpr hb']
  · rw [Batch.column?_eq_none_iff.mpr hb, Batch.column?_eq_none_iff.mpr hb']

/-- **A table is taken apart by name.** The values are those of the declared columns in the order of
the declarations, if each of them is taken out; and otherwise the first that is not names the fault.
In a table with columns of one length every value has as many elements as there are rows, and the
columns that cannot be read are those of another type than the six of arrays. Whatever else two
tables hold, wherever their columns stand and whether they may have nulls, they are taken apart
alike if each declared name stands for the same column in both, or for none. -/
theorem materialize_by_name (t : TableSpec) (b : Batch) :
    (∀ vs, (t.materialize b).result = .ok vs ↔
      List.Forall₂ (ColumnSpec.TakenAs b) t.columns vs) ∧
    (∀ fault, (t.materialize b).result = .error fault ↔
      ∃ before c after, t.columns = before ++ c :: after ∧
        (∀ d ∈ before, ∃ v, d.TakenAs b v) ∧ c.Refused b fault) ∧
    (b.Aligned →
      (∀ vs, (t.materialize b).result = .ok vs → vs.length = t.columns.length ∧
        ∀ v ∈ vs, ∃ x, v = .tensor x ∧ x.length = b.rows) ∧
      ∀ name column, b.First name column → ∀ e, Tensor.vector column = .error e ↔
        (∀ type, column.type ≠ .numeric type) ∧
          e = .unsupportedRepresentation (.native .arrow) (.column column.type)) ∧
    ∀ b' : Batch, (∀ c ∈ t.columns,
      (∃ column, b.First c.name column ∧ b'.First c.name column) ∨
        b.Lacks c.name ∧ b'.Lacks c.name) → t.materialize b = t.materialize b' := by
  have hok : ∀ vs, (t.materialize b).result = .ok vs ↔
      List.Forall₂ (ColumnSpec.TakenAs b) t.columns vs := by
    intro vs
    rw [materialize, materializeColumns_eq_ok_iff]
    simp only [← ColumnSpec.takenAs_iff]
  refine ⟨hok, fun fault => ?_, fun hb => ⟨fun vs h => ?_, fun name column hf e => ?_⟩,
    fun b' => materialize_congr⟩
  · rw [materialize, materializeColumns_eq_error_iff]
    simp only [ColumnSpec.takenAs_iff, ColumnSpec.refused_iff]
  · have hvs := (hok vs).mp h
    refine ⟨hvs.length_eq.symm, fun v hv => ?_⟩
    obtain ⟨c, column, x, y, hf, -, -, -, -, rfl, hy⟩ := Nested.exists_of_forall₂ hvs.flip hv
    exact ⟨y, rfl, hy.trans (hf.length_eq hb)⟩
  · exact Tensor.vector_eq_error_iff ((hf.length_eq hb).trans_lt hb.bounded)

/-- A table with the declared columns alone, and one with them in another order, another column
between them and a second one of a declared name behind them. -/
theorem materialize_by_name_shuffled :
    let t : TableSpec := ⟨["id", "box"], [.any, .of .int8], [.any, .any], rfl, rfl⟩
    let ids : Column := .ofElements .int64 [some 1, none]
    let box : Column := .ofElements .int16 [some 300, some 7]
    let b : Batch := ⟨[⟨"id", true, ids⟩, ⟨"box", false, box⟩]⟩
    let b' : Batch := ⟨[⟨"box", true, box⟩, ⟨"note", false, ⟨.utf8, [some "a", some "b"]⟩⟩,
      ⟨"id", true, ids⟩, ⟨"box", false, .ofElements .int8 [some 0, some 0]⟩]⟩
    b.Aligned ∧ t.materialize b = t.materialize b' ∧
      ∃ x y : Tensor, (t.materialize b').result = .ok [.tensor x, .tensor y] ∧
        x.length = b.rows ∧ y.column = .ofElements .int8 [some 44, some 7] := by
  intro t ids box b b'
  have hcolumns : Batch.ofColumns [("id", ids), ("box", box)] = .ok b := rfl
  have hb : b.Aligned := Batch.aligned_of_ofColumns hcolumns (by decide)
  obtain ⟨-, -, aligned, congr⟩ := materialize_by_name t b
  have hsame : t.materialize b = t.materialize b' := by
    refine congr b' fun c hc => ?_
    rcases List.mem_cons.mp hc with rfl | hc
    · exact Or.inl ⟨ids, ⟨[], _, _, rfl, rfl, rfl, by simp⟩, [_, _], _, _, rfl, rfl, rfl, by simp⟩
    · obtain rfl := List.mem_singleton.mp hc
      exact Or.inl ⟨box, ⟨[_], _, _, rfl, rfl, rfl, by simp⟩, [], _, _, rfl, rfl, rfl, by simp⟩
  have hm : (t.materialize b).result = .ok [.tensor (.ofCells [2] .int64 [some 1, none]),
      .tensor (.ofCells [2] .int8 [some 44, some 7])] := rfl
  obtain ⟨x, hx, hrows⟩ := ((aligned hb).1 _ hm).2 _ List.mem_cons_self
  obtain rfl := Value.tensor.inj hx
  exact ⟨hb, hsame, _, _, hsame ▸ hm, hrows, rfl⟩

end TableSpec

end ArrayContract
