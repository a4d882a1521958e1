import ArrayContract.Argument.TableSpec
import ArrayContract.Proofs.Shape.Count
import Mathlib.Data.List.Forall2

/-! # Columns taken out of a table

A declared column is looked up by its name, read along one axis and checked like an array
(`materializeColumn_eq_ok_iff`). All columns are taken out if each of them is
(`materialize_eq_ok_iff`), and otherwise the first that is not names the fault
(`materializeColumns_eq_error_iff`). -/

namespace ArrayContract.TableSpec

open Outcome

variable {batch : Batch} {c : ColumnSpec} {cs : List ColumnSpec} {v : Value} {vs : List Value}
  {fault : Fault}

/-- A column of elements can be read along one axis. -/
theorem exists_vector {column : Column} {type : ElementType} (ht : column.type = .numeric type)
    (hl : column.length < countBound) : ∃ x, Tensor.vector column = .ok x := by
  obtain ⟨d, cells⟩ := column
  obtain rfl : d = .numeric type := ht
  exact ⟨.ofCells [cells.length] type cells,
    Tensor.ofColumn_eq_ok.mpr ⟨rfl, rfl, Shape.count?_singleton hl⟩⟩

theorem result_materializeColumn (batch : Batch) (c : ColumnSpec) :
    (materializeColumn batch c).result =
      match batch.column? c.name with
      | none => .error (.missingColumn c.name)
      | some column =>
        ((Tensor.vector column).bind fun t => (c.arraySpec.check (.tensor t)).result).mapError
          (.invalidColumn c.name) := by
  unfold materializeColumn
  cases batch.column? c.name <;> simp

theorem result_materializeColumns_cons (batch : Batch) (c : ColumnSpec) (cs : List ColumnSpec) :
    (materializeColumns batch (c :: cs)).result =
      (materializeColumn batch c).result.bind fun v =>
        (materializeColumns batch cs).result.map (v :: ·) := by
  simp [materializeColumns]

theorem materializeColumn_eq_ok_iff : (materializeColumn batch c).result = .ok v ↔
    ∃ column t, batch.column? c.name = some column ∧ Tensor.vector column = .ok t ∧
      (c.arraySpec.check (.tensor t)).result = .ok v := by
  rw [result_materializeColumn]
  cases batch.column? c.name with
  | none => simp
  | some column => simp [mapError_eq_ok, bind_eq_ok]

theorem materializeColumns_eq_ok_iff : (materializeColumns batch cs).result = .ok vs ↔
    List.Forall₂ (fun c v => (materializeColumn batch c).result = .ok v) cs vs := by
  induction cs generalizing vs with
  | nil =>
    rw [List.forall₂_nil_left_iff, materializeColumns, Audit.result_pure, Except.ok.injEq, eq_comm]
  | cons c cs ih =>
    simp only [result_materializeColumns_cons, bind_eq_ok, map_eq_ok, ih,
      List.forall₂_cons_left_iff]
    constructor
    · rintro ⟨v, hv, vs, hvs, rfl⟩
      exact ⟨v, vs, hv, hvs, rfl⟩
    · rintro ⟨v, vs, hv, hvs, rfl⟩
      exact ⟨v, hv, vs, hvs, rfl⟩

theorem materialize_eq_ok_iff {s : TableSpec} : (s.materialize batch).result = .ok vs ↔
    List.Forall₂ (fun c v => ∃ column t, batch.column? c.name = some column ∧
      Tensor.vector column = .ok t ∧ (c.arraySpec.check (.tensor t)).result = .ok v)
      s.columns vs := by
  simp only [materialize, materializeColumns_eq_ok_iff, materializeColumn_eq_ok_iff]

/-- The first column that is not taken out names the fault. -/
theorem materializeColumns_eq_error_iff : (materializeColumns batch cs).result = .error fault ↔
    ∃ before c after, cs = before ++ c :: after ∧
      (∀ d ∈ before, ∃ v, (materializeColumn batch d).result = .ok v) ∧
      (materializeColumn batch c).result = .error fault := by
  induction cs with
  | nil =>
    constructor
    · rintro ⟨⟩
    · rintro ⟨before, c, after, h, -⟩
      exact absurd h.symm (List.append_ne_nil_of_right_ne_nil before (List.cons_ne_nil c after))
  | cons c cs ih =>
    simp only [result_materializeColumns_cons, bind_eq_error, map_eq_error, ih]
    constructor
    · rintro (h | ⟨v, hv, before, c', after, rfl, hbefore, h⟩)
      · exact ⟨[], c, cs, rfl, by simp, h⟩
      · exact ⟨c :: before, c', after, rfl, List.forall_mem_cons.mpr ⟨⟨v, hv⟩, hbefore⟩, h⟩
    · rintro ⟨before, c', after, heq, hbefore, h⟩
      rcases before with _ | ⟨d, before⟩
      · obtain ⟨rfl, -⟩ := List.cons.inj heq
        exact Or.inl h
      · obtain ⟨rfl, rfl⟩ := List.cons.inj heq
        obtain ⟨⟨v, hv⟩, hbefore⟩ := List.forall_mem_cons.mp hbefore
        exact Or.inr ⟨v, hv, before, c', after, rfl, hbefore, h⟩

theorem exists_of_materializeColumns_error
    (h : (materializeColumns batch cs).result = .error fault) :
    ∃ c ∈ cs, (materializeColumn batch c).result = .error fault := by
  obtain ⟨before, c, after, rfl, -, hc⟩ := materializeColumns_eq_error_iff.mp h
  exact ⟨c, List.mem_append_right before List.mem_cons_self, hc⟩

end ArrayContract.TableSpec
