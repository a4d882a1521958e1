import ArrayContract.Proofs.Argument.Declare
import ArrayContract.Proofs.Argument.Idempotence
import ArrayContract.Proofs.Argument.Materialize
import ArrayContract.Proofs.Call.Failure

/-! # The columns of a table as the arguments of a call

The columns of a table can be taken out of it, or be read as they are and passed to a routine that
declares them for its inputs (`TableSpec.returning`). Both go through the columns in order and
enforce the same: `materializeColumns_checkPlaces` takes the two steps side by side, and
`materialize_iff_call` says that the two agree on the values, on the column that is refused and on
the cause. Columns that are taken out pass such a call unchanged, for a checked value is checked to
itself. -/

namespace ArrayContract

open Outcome

variable {b : Batch} {c : ColumnSpec} {cs : List ColumnSpec} {t : TableSpec} {v : Value}
  {raw vs : List Value} {ρ : Type}

/-- A value is the first column of a declared name in a table, read along one axis: a tensor with this
axis and the cells of the column. -/
def ColumnSpec.ReadFrom (b : Batch) (c : ColumnSpec) (v : Value) : Prop :=
  ∃ column x, b.column? c.name = some column ∧ Tensor.vector column = .ok x ∧
    x.shape = [column.length] ∧ x.column = column ∧ v = .tensor x

namespace TableSpec

/-- The columns of a table as declarations of arguments. -/
def arguments (t : TableSpec) : List ArgumentSpec := t.arraySpecs.map .array

/-- The routine that returns its arguments, declared to be the columns of a table. -/
def returning (ρ : Type) (t : TableSpec) : CheckedRoutine ρ where
  routine _ args := pure (.tuple args)
  signature := { inputs := t.arguments }

/-! ## Reading columns -/

theorem exists_readFrom (hb : ∀ c ∈ cs, ∃ column type, b.column? c.name = some column ∧
      column.type = .numeric type ∧ column.length < countBound) :
    ∃ raw, List.Forall₂ (ColumnSpec.ReadFrom b) cs raw := by
  induction cs with
  | nil => exact ⟨[], .nil⟩
  | cons c cs ih =>
    obtain ⟨raw, hraw⟩ := ih fun c' hc' => hb c' (List.mem_cons_of_mem c hc')
    obtain ⟨column, type, hc, ht, hl⟩ := hb c List.mem_cons_self
    obtain ⟨x, hx⟩ := exists_vector ht hl
    obtain ⟨hs, hcells, -⟩ := Tensor.ofColumn_eq_ok.mp hx
    exact ⟨.tensor x :: raw, .cons ⟨column, x, hc, hx, hs, hcells, rfl⟩ hraw⟩

/-! ## Side by side -/

theorem result_materializeColumn_of_readFrom (h : c.ReadFrom b v) :
    (materializeColumn b c).result =
      (c.arraySpec.check v).result.mapError (.invalidColumn c.name) := by
  obtain ⟨column, x, hc, hx, -, -, rfl⟩ := h
  simp [result_materializeColumn, hc, hx]

/-- **Place by place.** Columns taken out of a table, and columns read from it and checked as
arguments, become the same values, or the first of them that is refused is so for the same cause.
The places are counted from `k`. -/
theorem materializeColumns_checkPlaces (h : List.Forall₂ (ColumnSpec.ReadFrom b) cs raw) (k : Nat) :
    (∃ vs, (materializeColumns b cs).result = .ok vs ∧
      (checkPlaces .input k (cs.map fun c => .array c.arraySpec) raw).result = .ok vs) ∨
    (∃ i c e, cs[i]? = some c ∧ (materializeColumns b cs).result = .error (.invalidColumn c.name e) ∧
      (checkPlaces .input k (cs.map fun c => .array c.arraySpec) raw).result =
        .error (.invalidArgument .input (k + i) e)) := by
  induction h generalizing k with
  | nil => exact Or.inl ⟨[], rfl, rfl⟩
  | @cons c v cs raw hv _ ih =>
    rw [result_materializeColumns_cons, result_materializeColumn_of_readFrom hv, List.map_cons,
      result_checkPlaces_cons]
    cases hc : (c.arraySpec.check v).result with
    | error e =>
      refine Or.inr ⟨0, c, e, rfl, rfl, ?_⟩
      rw [show (ArgumentSpec.check (.array c.arraySpec) v).result = .error e from hc]
      rfl
    | ok w =>
      rw [show (ArgumentSpec.check (.array c.arraySpec) v).result = .ok w from hc]
      simp only [mapError_ok, bind_ok]
      rcases ih (k + 1) with ⟨vs, hm, hp⟩ | ⟨i, c', e, hi, hm, hp⟩
      · exact Or.inl ⟨w :: vs, by rw [hm, map_ok], by rw [hp, map_ok]⟩
      · refine Or.inr ⟨i + 1, c', e, hi, by rw [hm, map_error], ?_⟩
        rw [hp, map_error, Nat.add_right_comm, Nat.add_assoc]

/-- A call with as many arguments as columns checks them place by place, and returns them. -/
theorem result_call_returning (hc : t.columns ≠ []) (hl : raw.length = t.columns.length)
    (receiver : ρ) : ((t.returning ρ).call receiver raw).result =
      (checkPlaces .input 0 t.arguments raw).result.map .tuple := by
  have hlen : t.arguments.length = t.columns.length := by
    rw [arguments, arraySpecs, List.length_map, List.length_map]
  have hchecks : (t.returning ρ).ChecksInputs :=
    ⟨rfl, fun h => hc (List.length_eq_zero_iff.mp (hlen ▸ List.length_eq_zero_iff.mpr h))⟩
  have hfits : (t.returning ρ).ArityFits raw := fun _ => hl.trans hlen.symm
  rw [CheckedRoutine.result_call, CheckedRoutine.prepare_of_checksInputs hchecks,
    CheckedRoutine.result_checkInputs_of_arityFits hfits]
  show (checkPlaces .input 0 t.arguments raw).result.bind (fun ws => .ok (Value.tuple ws)) = _
  cases (checkPlaces .input 0 t.arguments raw).result <;> rfl

/-- Columns that are taken out are checked to themselves. -/
theorem checkPlaces_of_materialize (h : (t.materialize b).result = .ok vs) :
    (checkPlaces .input 0 t.arguments vs).result = .ok vs := by
  rw [checkPlaces_eq_ok_iff]
  refine ⟨rfl, fun i v w hv hw => ?_⟩
  obtain rfl := Option.some.inj (hv.symm.trans hw)
  have hf := materialize_eq_ok_iff.mp h
  obtain ⟨hi, rfl⟩ := List.getElem?_eq_some_iff.mp hv
  have hcol : i < t.columns.length := hf.length_eq ▸ hi
  obtain ⟨_, x, -, -, hc⟩ := hf.get hcol hi
  rw [show t.arguments[i]? = some (.array t.columns[i].arraySpec) by
    rw [arguments, arraySpecs, List.getElem?_map, List.getElem?_map, List.getElem?_eq_getElem hcol]
    rfl]
  exact ArraySpec.check_of_check hc

/-- **Taking columns out and passing them to a call enforce the same.** Let a table be declared with
at least one column, and have a column of elements under each declared name, no longer than what can
be counted. Then these columns can be read as they are; taking them out gives values exactly if the
call that returns its arguments gives these values, and refuses the column at a place exactly if the
call refuses the argument at that place, for the same cause; there is no other outcome; and columns
that are taken out pass the call unchanged. -/
theorem materialize_iff_call {names : List String} {types : List DeclaredType}
    {shapes : List ShapePattern} (ht : declare names types shapes = .ok t) (hc : t.columns ≠ [])
    (hb : ∀ c ∈ t.columns, ∃ column type, b.column? c.name = some column ∧
      column.type = .numeric type ∧ column.length < countBound) (receiver : ρ) :
    ∃ raw, List.Forall₂ (ColumnSpec.ReadFrom b) t.columns raw ∧
      (∀ vs, (t.materialize b).result = .ok vs ↔
        ((t.returning ρ).call receiver raw).result = .ok (.tuple vs)) ∧
      (∀ (i : Nat) (c : ColumnSpec) (e : Fault), t.columns[i]? = some c →
        ((t.materialize b).result = .error (.invalidColumn c.name e) ↔
          ((t.returning ρ).call receiver raw).result = .error (.invalidArgument .input i e))) ∧
      ((∃ vs, (t.materialize b).result = .ok vs) ∨
        ∃ (i : Nat) (c : ColumnSpec) (e : Fault), t.columns[i]? = some c ∧
          (t.materialize b).result = .error (.invalidColumn c.name e)) ∧
      ∀ vs, (t.materialize b).result = .ok vs →
        ((t.returning ρ).call receiver vs).result = .ok (.tuple vs) := by
  obtain ⟨raw, hraw⟩ := exists_readFrom hb
  have hcall := result_call_returning hc hraw.length_eq.symm receiver
  have hargs : t.arguments = t.columns.map fun c => .array c.arraySpec := List.map_map
  have hnames : (t.columns.map ColumnSpec.name).Nodup := by
    rw [t.map_name_columns]
    exact (names_of_declare ht).2
  have hpass : ∀ vs, (t.materialize b).result = .ok vs →
      ((t.returning ρ).call receiver vs).result = .ok (.tuple vs) := by
    intro vs h
    have hl := (materialize_eq_ok_iff.mp h).length_eq.symm
    rw [result_call_returning hc hl, checkPlaces_of_materialize h, map_ok]
  refine ⟨raw, hraw, ?_⟩
  rcases materializeColumns_checkPlaces hraw 0 with ⟨ws, hm, hp⟩ | ⟨j, d, f, hj, hm, hp⟩
  · rw [← hargs] at hp
    rw [show (t.materialize b).result = .ok ws from hm, hcall, hp, map_ok]
    refine ⟨fun vs => by simp, fun i c e _ => by simp, Or.inl ⟨ws, rfl⟩, fun vs h => ?_⟩
    exact hpass vs (hm.trans h)
  · rw [← hargs, Nat.zero_add] at hp
    rw [show (t.materialize b).result = .error (.invalidColumn d.name f) from hm, hcall, hp,
      map_error]
    refine ⟨fun vs => by simp, fun i c e hi => ?_, Or.inr ⟨j, d, f, hj, rfl⟩, nofun⟩
    constructor
    · intro h
      obtain ⟨hn, rfl⟩ := Fault.invalidColumn.inj (Except.error.inj h)
      -- the names tell the columns apart
      have hj' : j < (t.columns.map ColumnSpec.name).length := by
        rw [List.length_map]
        exact (List.getElem?_eq_some_iff.mp hj).1
      have hij : j = i := by
        rw [← List.getElem?_inj hj' hnames, List.getElem?_map, List.getElem?_map, hj, hi,
          Option.map_some, Option.map_some, hn]
      rw [hij]
    · intro h
      obtain ⟨-, rfl, rfl⟩ := Fault.invalidArgument.inj (Except.error.inj h)
      obtain rfl := Option.some.inj (hj.symm.trans hi)
      rfl

/-- A table of which the second column does not split into pairs, and is refused; and one of which
it does. -/
theorem materialize_iff_call_pairs :
    let t : TableSpec := ⟨["id", "box"], [.any, .of .int8],
      [.any, .axes [.any, .fixed 2]], rfl, rfl⟩
    let b (n : Nat) : Batch := ⟨[⟨"box", false, .ofElements .int16 (List.replicate n (some 300))⟩,
      ⟨"id", false, .ofElements .int64 (List.replicate n (some 1))⟩]⟩
    ((t.materialize (b 3)).result = .error (.invalidColumn "box"
        (.shapeMismatch (.axes [.any, .fixed 2]) [3] (.size 3 [.any, .fixed 2]))) ∧
      ∃ raw, ((t.returning Unit).call () raw).result = .error (.invalidArgument .input 1
        (.shapeMismatch (.axes [.any, .fixed 2]) [3] (.size 3 [.any, .fixed 2])))) ∧
    ∃ vs, (t.materialize (b 2)).result = .ok vs ∧
      ((t.returning Unit).call () vs).result = .ok (.tuple vs) := by
  intro t b
  have ht : declare ["id", "box"] [.any, .of .int8] [.any, .axes [.any, .fixed 2]] = .ok t := rfl
  have hb : ∀ n < countBound, ∀ c ∈ t.columns, ∃ column type, (b n).column? c.name = some column ∧
      column.type = .numeric type ∧ column.length < countBound := by
    intro n hn c hc
    rcases List.mem_cons.mp hc with rfl | hc
    · exact ⟨_, .int64, rfl, rfl, List.length_replicate.trans_lt hn⟩
    · obtain rfl := List.mem_singleton.mp hc
      exact ⟨_, .int16, rfl, rfl, List.length_replicate.trans_lt hn⟩
  have hc : t.columns ≠ [] := List.cons_ne_nil _ _
  obtain ⟨raw, -, -, he, -, -⟩ := materialize_iff_call ht hc (hb 3 (by decide)) ()
  obtain ⟨-, -, -, -, -, hv⟩ := materialize_iff_call ht hc (hb 2 (by decide)) ()
  have hm : (t.materialize (b 3)).result = .error (.invalidColumn "box"
      (.shapeMismatch (.axes [.any, .fixed 2]) [3] (.size 3 [.any, .fixed 2]))) := rfl
  exact ⟨⟨hm, raw, (he 1 _ _ rfl).mp hm⟩, _, rfl, hv _ rfl⟩

end TableSpec

end ArrayContract
