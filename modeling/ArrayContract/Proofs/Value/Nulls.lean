import ArrayContract.Proofs.Argument.Coercion
import ArrayContract.Proofs.Argument.Materialize
import ArrayContract.Proofs.Value.Simulation

/-! # Nulls

A treatment brings a value to a backend, to an element type, to axes, or to a declaration. However
many of them a value goes through, it has nulls where it had them at the start (`nulls?_treat`): a
cast leaves nulls apart, and no other step touches a cell. Only dense arrays have no room for nulls,
and `apply_eq_ofNulls_iff` says that a treatment fails for their sake exactly if it asks for a dense
array of a value with nulls, whatever else it asks for. -/

namespace ArrayContract

open Outcome

/-! ## Where the nulls are -/

/-- Place by place, whether a column has a null. -/
def Column.nulls (c : Column) : List Bool := c.cells.map Option.isNone

/-- Place by place, whether an array-like value has a null. -/
def Value.nulls? (v : Value) : Option (List Bool) := v.content?.map Column.nulls

/-- The refusal of a number of nulls. -/
def Fault.ofNulls (count : Nat) : Fault :=
  .unsupportedRepresentation (.native .host) (.nulls count)

namespace Column

theorem nullCount_eq_count (c : Column) : c.nullCount = c.nulls.count true := by
  unfold nullCount nulls List.count
  rw [List.countP_map]
  refine List.countP_congr fun x _ => ?_
  simp

theorem nulls_castTo_ofElements (source target : ElementType) (cells : List (Option source.Word)) :
    ((ofElements source cells).castTo target).nulls = (ofElements source cells).nulls := by
  show (cells.map (Option.map (source.cast target))).map Option.isNone = cells.map Option.isNone
  rw [List.map_map]
  exact List.map_congr_left fun x _ => by cases x <;> rfl

theorem nulls_castTo (c : Column) (t : ElementType) : (c.castTo t).nulls = c.nulls := by
  unfold castTo
  split
  · next source cells => exact nulls_castTo_ofElements source t cells
  · rfl

theorem nulls_castAs (c : Column) (t : DeclaredType) : (c.castAs t).nulls = c.nulls := by
  cases t with
  | any => rfl
  | of t => exact c.nulls_castTo t

theorem nullCount_castAs (c : Column) (t : DeclaredType) :
    (c.castAs t).nullCount = c.nullCount := by
  rw [nullCount_eq_count, nulls_castAs, ← nullCount_eq_count]

theorem nullCount_map_some (t : ElementType) (words : List t.Word) :
    (ofElements t (words.map some)).nullCount = 0 := by
  show (words.map some).countP Option.isNone = 0
  simp [List.countP_map, Function.comp_def]

end Column

theorem DenseArray.nullCount_content (a : DenseArray) : a.content.nullCount = 0 :=
  Column.nullCount_map_some _ _

theorem Nested.nullCount_content (v : Nested) : v.content.nullCount = 0 := by
  rw [← Nested.content_bufferOf v []]
  exact DenseArray.nullCount_content _

/-! ## Treatments -/

/-- Something done to an array-like value. -/
inductive Treatment
  | convert (conversion : Conversion) (backend : Backend)
  | check (spec : ArraySpec)

namespace Treatment

def apply : Treatment → Value → Except Fault Value
  | convert c b, v => c.apply b v
  | check s, v => (s.check v).result

/-- A dense array is asked for. -/
def AsksDense : Treatment → Prop
  | convert _ b => b = .host
  | check s => s.backend = .host ∧ (s.type ≠ .any ∨ s.shape ≠ .any)

end Treatment

/-- One treatment after the other, as long as they succeed. -/
def treat (v : Value) (ts : List Treatment) : Except Fault Value :=
  ts.foldlM (fun v t => t.apply v) v

variable {v w : Value} {c : Column} {n : Nat} {b : Backend}

/-! ## Nulls stay where they are -/

theorem Backend.content_of_toNative (h : b.toNative v = .ok w) (hc : v.content? = some c) :
    w.content? = some c := by
  rcases b with _ | _
  · obtain ⟨a, ha, rfl⟩ := map_eq_ok.mp h
    exact (Value.content_of_toDense ha).1.symm.trans hc
  · obtain ⟨t, ht, rfl⟩ := map_eq_ok.mp h
    exact (Value.content_of_toTensor ht).1.symm.trans hc

theorem Backend.convertType_any_ne_ok : (b.convertType v .any).result ≠ .ok w := by
  rcases b with _ | _ <;> simp [bind_eq_ok]

/-- The elements of a value after a conversion are those before, each of them cast on its own if a
type is asked for. -/
theorem Conversion.content_of_apply {k : Conversion} (h : k.apply b v = .ok w)
    (hc : v.content? = some c) : ∃ t : DeclaredType, w.content? = some (c.castAs t) := by
  rcases k with _ | target | axes
  · exact ⟨.any, Backend.content_of_toNative h hc⟩
  · rcases target with _ | t
    · exact absurd h Backend.convertType_any_ne_ok
    · exact ⟨.of t, (Backend.content_of_convertType h hc).1⟩
  · exact ⟨.any, Backend.content_of_convertShape h hc⟩

theorem Treatment.content_of_apply {t : Treatment} (h : t.apply v = .ok w)
    (hc : v.content? = some c) : ∃ t : DeclaredType, w.content? = some (c.castAs t) := by
  rcases t with ⟨k, b⟩ | s
  · exact Conversion.content_of_apply h hc
  · exact ⟨s.type, ArraySpec.content_of_check h hc⟩

/-- **One treatment.** -/
theorem Treatment.nulls?_apply {t : Treatment} {m : List Bool} (h : t.apply v = .ok w)
    (hv : v.nulls? = some m) : w.nulls? = some m := by
  obtain ⟨c, hc, rfl⟩ := Option.map_eq_some_iff.mp hv
  obtain ⟨u, hw⟩ := Treatment.content_of_apply h hc
  rw [Value.nulls?, hw, Option.map_some, Column.nulls_castAs]

/-- **Any number of treatments.** -/
theorem nulls?_treat {ts : List Treatment} {m : List Bool} (h : treat v ts = .ok w)
    (hv : v.nulls? = some m) : w.nulls? = some m := by
  induction ts generalizing v with
  | nil =>
    obtain rfl := Except.ok.inj h
    exact hv
  | cons t ts ih =>
    obtain ⟨u, hu, h⟩ := bind_eq_ok.mp (show (t.apply v).bind (treat · ts) = .ok w from h)
    exact ih h (Treatment.nulls?_apply hu hv)

/-! ## Refused nulls -/

theorem DenseArray.cast_ne_ofNulls (a : DenseArray) (target : DeclaredType) (n : Nat) :
    (a.cast target).result ≠ .error (.ofNulls n) := by
  cases target <;> simp [Fault.ofNulls]

theorem Tensor.cast_ne_ofNulls (t : Tensor) (target : DeclaredType) (n : Nat) :
    (t.cast target).result ≠ .error (.ofNulls n) := by
  cases target <;> simp [Fault.ofNulls]

theorem Shape.resolve_ne_ofNulls (axes : List Axis) (s : Shape) (n : Nat) :
    s.resolve axes ≠ .error (.ofNulls n) := by
  intro h
  obtain ⟨_, he, -⟩ := resolve_eq_error h
  exact nomatch he

theorem Tensor.vector_ne_ofNulls (column : Column) (n : Nat) :
    vector column ≠ .error (.ofNulls n) := by
  unfold vector ofColumn
  split
  · split
    · exact nofun
    · split <;> exact nofun
  · exact nofun

theorem Nested.toDense_ne_ofNulls (v : Nested) (n : Nat) : v.toDense ≠ .error (.ofNulls n) := by
  unfold toDense
  split <;> exact nofun

theorem Value.toTensor_ne_ofNulls (v : Value) (n : Nat) : v.toTensor ≠ .error (.ofNulls n) := by
  rcases v with d | t | x | batch | s | i | items
  case nested => exact fun h => x.toDense_ne_ofNulls n (map_eq_error.mp h)
  all_goals exact nofun

/-- Nulls keep a tensor from being a dense array before anything else is looked at. -/
theorem Tensor.toDense_eq_ofNulls_iff {t : Tensor} :
    t.toDense = .error (.ofNulls n) ↔ 0 < t.nullCount ∧ n = t.nullCount := by
  unfold toDense
  split
  · next h =>
    rw [Except.error.injEq]
    constructor
    · rintro ⟨⟩
      exact ⟨h, rfl⟩
    · rintro ⟨-, rfl⟩
      rfl
  · next h =>
    simp only [h, false_and, iff_false]
    intro he
    split at he
    · unfold DenseArray.ofBuffer at he
      split at he
      · exact nomatch he
      · split at he <;> exact nomatch he
    · exact nomatch he

theorem Value.toDense_eq_ofNulls_iff (hc : v.content? = some c) :
    v.toDense = .error (.ofNulls n) ↔ 0 < c.nullCount ∧ n = c.nullCount := by
  rcases v with a | t | x | batch | s | i | items
  · obtain rfl := Option.some.inj hc
    rw [a.nullCount_content]
    simp [toDense]
  · obtain rfl := Option.some.inj hc
    exact Tensor.toDense_eq_ofNulls_iff
  · obtain rfl := Option.some.inj hc
    rw [x.nullCount_content]
    simp [toDense, x.toDense_ne_ofNulls n]
  all_goals cases hc

namespace Backend

theorem toNative_eq_ofNulls_iff (hc : v.content? = some c) :
    b.toNative v = .error (.ofNulls n) ↔ b = .host ∧ 0 < c.nullCount ∧ n = c.nullCount := by
  rcases b with _ | _
  · rw [toNative, map_eq_error, Value.toDense_eq_ofNulls_iff hc]
    simp
  · rw [toNative, map_eq_error]
    simp [v.toTensor_ne_ofNulls n]

theorem convertType_eq_ofNulls_iff {target : DeclaredType} (hc : v.content? = some c) :
    (b.convertType v target).result = .error (.ofNulls n) ↔
      b = .host ∧ 0 < c.nullCount ∧ n = c.nullCount := by
  rcases b with _ | _
  · rw [result_convertType_host, bind_eq_error, Value.toDense_eq_ofNulls_iff hc]
    simp [map_eq_error, DenseArray.cast_ne_ofNulls]
  · rw [result_convertType_arrow, bind_eq_error]
    simp [map_eq_error, Tensor.cast_ne_ofNulls, Value.toTensor_ne_ofNulls]

theorem convertShape_eq_ofNulls_iff {axes : List Axis} (hc : v.content? = some c) :
    (b.convertShape v axes).result = .error (.ofNulls n) ↔
      b = .host ∧ 0 < c.nullCount ∧ n = c.nullCount := by
  rcases b with _ | _
  · rw [result_convertShape_host, bind_eq_error, Value.toDense_eq_ofNulls_iff hc]
    simp [map_eq_error, Shape.resolve_ne_ofNulls]
  · rw [result_convertShape_arrow, bind_eq_error]
    simp [map_eq_error, Shape.resolve_ne_ofNulls, Value.toTensor_ne_ofNulls]

end Backend

namespace ArraySpec

variable {s : ArraySpec}

theorem checkType_eq_ofNulls_iff (hc : v.content? = some c) :
    (s.checkType v).result = .error (.ofNulls n) ↔
      (s.backend = .host ∧ s.type ≠ .any) ∧ 0 < c.nullCount ∧ n = c.nullCount := by
  cases ht : s.type with
  | any => simp [result_checkType_any ht]
  | of t =>
    rw [result_checkType_of ht, Backend.convertType_eq_ofNulls_iff hc]
    simp

theorem checkShape_eq_ofNulls_iff (hc : v.content? = some c) :
    (s.checkShape v).result = .error (.ofNulls n) ↔
      (s.backend = .host ∧ s.shape ≠ .any) ∧ 0 < c.nullCount ∧ n = c.nullCount := by
  cases hs : s.shape with
  | any => simp [result_checkShape_any hs]
  | axes axes =>
    rw [result_checkShape_axes hs, Backend.convertShape_eq_ofNulls_iff hc]
    simp

/-- A declaration that asks for a dense array does so in the type step, or in the shape step if no
type is declared. -/
theorem check_eq_ofNulls_iff (hc : v.content? = some c) :
    (s.check v).result = .error (.ofNulls n) ↔
      (s.backend = .host ∧ (s.type ≠ .any ∨ s.shape ≠ .any)) ∧ 0 < c.nullCount ∧
        n = c.nullCount := by
  rw [result_check, bind_eq_error]
  constructor
  · rintro (h | ⟨u, hu, h⟩)
    · obtain ⟨⟨hb, ht⟩, hn⟩ := (checkType_eq_ofNulls_iff hc).mp h
      exact ⟨⟨hb, Or.inl ht⟩, hn⟩
    · obtain ⟨⟨hb, hs⟩, hn⟩ := (checkShape_eq_ofNulls_iff (content_of_checkType hu hc).1).mp h
      rw [Column.nullCount_castAs] at hn
      exact ⟨⟨hb, Or.inr hs⟩, hn⟩
  · rintro ⟨⟨hb, hd⟩, hn⟩
    by_cases ht : s.type = .any
    · have hs := hd.resolve_left (not_not.mpr ht)
      exact Or.inr ⟨v, result_checkType_any ht v, (checkShape_eq_ofNulls_iff hc).mpr ⟨⟨hb, hs⟩, hn⟩⟩
    · exact Or.inl ((checkType_eq_ofNulls_iff hc).mpr ⟨⟨hb, ht⟩, hn⟩)

end ArraySpec

theorem Treatment.apply_eq_ofNulls_iff {t : Treatment} (hc : v.content? = some c) :
    t.apply v = .error (.ofNulls n) ↔ t.AsksDense ∧ 0 < c.nullCount ∧ n = c.nullCount := by
  rcases t with ⟨_ | target | axes, b⟩ | s
  · exact Backend.toNative_eq_ofNulls_iff hc
  · exact Backend.convertType_eq_ofNulls_iff hc
  · exact Backend.convertShape_eq_ofNulls_iff hc
  · exact ArraySpec.check_eq_ofNulls_iff hc

/-! ## From a tensor or a table on -/

/-- However a value is treated, it has its nulls where the column has them; and they are refused
exactly where a dense array is asked for, by their number. -/
def Value.KeepsNulls (v : Value) (c : Column) : Prop :=
  ∀ ts w, treat v ts = .ok w → w.nulls? = some c.nulls ∧
    ∀ t n, Treatment.apply t w = .error (.ofNulls n) ↔
      t.AsksDense ∧ 0 < c.nullCount ∧ n = c.nullCount

theorem Value.keepsNulls_of_nulls? (h : v.nulls? = some c.nulls) : v.KeepsNulls c := by
  intro ts w hw
  have hn := nulls?_treat hw h
  refine ⟨hn, fun t n => ?_⟩
  obtain ⟨d, hd, hdc⟩ := Option.map_eq_some_iff.mp hn
  rw [Treatment.apply_eq_ofNulls_iff hd, d.nullCount_eq_count, hdc, ← c.nullCount_eq_count]

/-- **Nulls stay nulls, and values stay values.** A tensor keeps its nulls in their places through
any treatments that succeed, and so does a column from the moment it is taken out of a table. A
treatment that asks for a dense array is refused for the sake of the nulls alone, whatever type or
axes it asks for; without nulls none is refused for that reason, and neither is taking columns out
of a table. -/
theorem nulls_preserved :
    (∀ t : Tensor, (Value.tensor t).KeepsNulls t.column) ∧
    ∀ (s : TableSpec) (batch : Batch),
      (∀ vs, (s.materialize batch).result = .ok vs →
        List.Forall₂ (fun c v => ∃ column, batch.column? c.name = some column ∧ v.KeepsNulls column)
          s.columns vs) ∧
      ∀ name n, (s.materialize batch).result ≠ .error (.invalidColumn name (.ofNulls n)) := by
  refine ⟨fun t => Value.keepsNulls_of_nulls? rfl,
    fun s batch => ⟨fun vs h => ?_, fun name n h => ?_⟩⟩
  · refine (TableSpec.materialize_eq_ok_iff.mp h).imp fun c v => ?_
    rintro ⟨column, t, hcol, ht, hv⟩
    obtain ⟨-, rfl, -⟩ := Tensor.ofColumn_eq_ok.mp ht
    refine ⟨t.column, hcol, Value.keepsNulls_of_nulls? ?_⟩
    exact Treatment.nulls?_apply (t := .check c.arraySpec) hv rfl
  · obtain ⟨c, -, hc⟩ := TableSpec.exists_of_materializeColumns_error h
    rw [TableSpec.result_materializeColumn] at hc
    split at hc
    · exact nomatch hc
    · next column _ =>
      obtain ⟨e, he, ⟨⟩⟩ := mapError_eq_error.mp hc
      rcases bind_eq_error.mp he with ht | ⟨t, -, ht⟩
      · exact Tensor.vector_ne_ofNulls column n ht
      · -- a declared column is no dense array
        have hd := (ArraySpec.check_eq_ofNulls_iff (s := c.arraySpec) rfl).mp ht
        exact nomatch hd.1.1

/-- Part of a column, narrowed and put into two axes: both nulls are where they were, and stand in
the way of a dense array before the missing type does. -/
theorem nulls_preserved_slice :
    let column := (Column.ofElements .int32 [some 1, none, some 300, none, some 5]).slice 1 3
    let t : Tensor := .ofCells [3] .int32 [none, some 300, none]
    let w : Value := .tensor (.ofCells [3, 1] .int8 [none, some 44, none])
    Tensor.vector column = .ok t ∧
      treat (.tensor t) [.convert (.convertType (.of .int8)) .arrow,
        .check { name := "x", shape := .axes [.fixed 3, .any], backend := .arrow }] = .ok w ∧
      w.nulls? = some [true, false, true] ∧
      Treatment.apply (.convert (.convertType .any) .host) w = .error (.ofNulls 2) := by
  intro column t w
  have hw : treat (.tensor t) [.convert (.convertType (.of .int8)) .arrow,
      .check { name := "x", shape := .axes [.fixed 3, .any], backend := .arrow }] = .ok w := rfl
  obtain ⟨hn, hf⟩ := nulls_preserved.1 t _ w hw
  exact ⟨rfl, hw, hn, (hf _ 2).mpr ⟨rfl, by decide, rfl⟩⟩

end ArrayContract
