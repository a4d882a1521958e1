import ArrayContract.Proofs.Argument.Coercion
import ArrayContract.Proofs.Argument.Conformance
import ArrayContract.Proofs.Argument.Materialize

/-! # What a catalog says of the arguments

A catalog has one entry for an array and one for each column of a table, those of the inputs before
those of the outputs. `CatalogEntry.Describes` is what an entry says about a value, and
`ArgumentSpec.DescribedBy` what the entries of one argument have to do with its check: they repeat
the declarations, and they describe every value that the check gives. The two sides of that are
written apart, the entries for a reader and the check for a call, and meet in
`ArgumentSpec.describedBy_entries`; `catalog_describes` puts the arguments of a function
together. -/

namespace ArrayContract

open Outcome

/-! ## Entries and values -/

/-- A value is as an entry says: it has the element type and the axes, unless they are left open. -/
structure CatalogEntry.Describes (e : CatalogEntry) (v : Value) : Prop where
  type : ∀ t, e.type = .of t → v.type? = some t
  shape : ∀ axes, e.shape = .axes axes → ∃ shape, v.shape? = some shape ∧ shape.Fits axes

/-- A value is the first column of an entry's name, taken out of a table: a tensor with the cells of
that column, each of them cast to the entry's type, and as the entry says. -/
def CatalogEntry.TakenFrom (e : CatalogEntry) (b : Batch) (v : Value) : Prop :=
  ∃ column t, b.column? e.name = some column ∧ v = .tensor t ∧
    t.column = column.castAs e.type ∧ e.Describes v

/-- The number of arrays that an argument stands for. -/
def ArgumentSpec.arrays : ArgumentSpec → Nat
  | array _ => 1
  | table t => t.columns.length

/-- The entries of an argument on one side of a call: of an array the one that repeats its
declaration, and of a table one for each column, in their order. The values that the check of an
array gives are as its entry says, and so are, place by place, the columns taken out of a table. -/
def ArgumentSpec.DescribedBy (isInput : Bool) : ArgumentSpec → List CatalogEntry → Prop
  | array s, es => es = [⟨s.name, .ndArray, s.nullable, s.type, s.shape, isInput⟩] ∧
      ∀ e ∈ es, ∀ v w, (s.check v).result = .ok w → e.Describes w
  | table t, es =>
      es = t.columns.map (fun c => ⟨c.name, .ndArray, false, c.type, c.shape, isInput⟩) ∧
      ∀ b ws, (t.materialize b).result = .ok ws → List.Forall₂ (·.TakenFrom b ·) es ws

/-! ## One argument -/

theorem ArraySpec.Conforms.describes {s : ArraySpec} {v : Value} (h : s.Conforms v)
    (isInput : Bool) : (s.entry isInput).Describes v :=
  ⟨h.type, h.shape⟩

/-- The check of a column gives a tensor with the cells passed, each of them cast. -/
theorem ColumnSpec.exists_tensor_of_check {c : ColumnSpec} {t : Tensor} {v : Value}
    (h : (c.arraySpec.check (.tensor t)).result = .ok v) :
    ∃ t', v = .tensor t' ∧ t'.column = t.column.castAs c.type := by
  have hr : v.representation = .native .arrow := by
    by_cases hd : c.type ≠ .any ∨ c.shape ≠ .any
    · exact (ArraySpec.conforms_of_check h).representation hd
    · -- nothing is declared, and the tensor is passed on
      obtain ⟨ht, hs⟩ := not_or.mp hd
      rw [ArraySpec.result_check, ArraySpec.result_checkType_any (not_not.mp ht), bind_ok,
        ArraySpec.result_checkShape_any (not_not.mp hs)] at h
      obtain rfl := Except.ok.inj h
      rfl
  obtain ⟨t', rfl⟩ := Value.representation_eq_arrow.mp hr
  have hc := ArraySpec.content_of_check h (c := t.column) rfl
  exact ⟨t', rfl, Option.some.inj hc⟩

theorem TableSpec.takenFrom_of_materialize {t : TableSpec} {b : Batch} {ws : List Value}
    (h : (t.materialize b).result = .ok ws) (isInput : Bool) :
    List.Forall₂ (fun c w => (c.arraySpec.entry isInput).TakenFrom b w) t.columns ws := by
  refine (materialize_eq_ok_iff.mp h).imp fun c w hw => ?_
  obtain ⟨column, x, hcol, hx, hw⟩ := hw
  obtain ⟨t', rfl, ht'⟩ := ColumnSpec.exists_tensor_of_check hw
  obtain ⟨-, rfl, -⟩ := Tensor.ofColumn_eq_ok.mp hx
  exact ⟨x.column, t', hcol, rfl, ht', (ArraySpec.conforms_of_check hw).describes isInput⟩

/-- **One argument.** -/
theorem ArgumentSpec.describedBy_entries (isInput : Bool) (spec : ArgumentSpec) :
    spec.DescribedBy isInput (spec.entries isInput) := by
  rcases spec with s | t
  · refine ⟨rfl, fun e he v w h => ?_⟩
    obtain rfl := List.mem_singleton.mp he
    exact (ArraySpec.conforms_of_check h).describes isInput
  · have he : (table t).entries isInput = t.columns.map fun c => c.arraySpec.entry isInput :=
      List.map_map
    rw [he]
    refine ⟨rfl, fun b ws h => ?_⟩
    rw [List.forall₂_map_left_iff]
    exact TableSpec.takenFrom_of_materialize h isInput

section Block

variable {isInput : Bool} {spec : ArgumentSpec} {es : List CatalogEntry}

theorem ArgumentSpec.DescribedBy.length (h : spec.DescribedBy isInput es) :
    es.length = spec.arrays := by
  rcases spec with s | t
  · rw [h.1]
    rfl
  · rw [h.1]
    exact List.length_map _

theorem ArgumentSpec.DescribedBy.isInput_eq (h : spec.DescribedBy isInput es) {e : CatalogEntry}
    (he : e ∈ es) : e.isInput = isInput := by
  rcases spec with s | t
  · rw [h.1] at he
    obtain rfl := List.mem_singleton.mp he
    rfl
  · rw [h.1] at he
    obtain ⟨c, -, rfl⟩ := List.mem_map.mp he
    rfl

end Block

/-! ## All arguments -/

section Side

variable {isInput : Bool} {specs : List ArgumentSpec} {blocks : List (List CatalogEntry)}

theorem forall₂_describedBy (isInput : Bool) (specs : List ArgumentSpec) :
    List.Forall₂ (ArgumentSpec.DescribedBy isInput) specs (specs.map (·.entries isInput)) := by
  rw [List.forall₂_map_right_iff, List.forall₂_same]
  exact fun spec _ => spec.describedBy_entries isInput

theorem length_flatten_of_describedBy
    (h : List.Forall₂ (ArgumentSpec.DescribedBy isInput) specs blocks) :
    blocks.flatten.length = (specs.map ArgumentSpec.arrays).sum := by
  induction h with
  | nil => rfl
  | cons hd _ ih =>
    rw [List.flatten_cons, List.length_append, hd.length, ih, List.map_cons, List.sum_cons]

theorem isInput_of_describedBy
    (h : List.Forall₂ (ArgumentSpec.DescribedBy isInput) specs blocks) {e : CatalogEntry}
    (he : e ∈ blocks.flatten) : e.isInput = isInput := by
  induction h with
  | nil => exact nomatch he
  | cons hd _ ih =>
    rcases List.mem_append.mp (List.flatten_cons ▸ he) with he | he
    · exact hd.isInput_eq he
    · exact ih he

end Side

/-- **The catalog describes what is enforced.** The entries of a function are those of its inputs
and then those of its outputs, a block for each argument in the order of the arguments, and the
entries of the inputs are exactly those marked as inputs. Each block is that of its argument: it
repeats what is declared, and every value that the check of the argument gives is as the block
says. -/
theorem catalog_describes (s : Signature) :
    s.describe.result = .ok s.entries ∧
    ∃ ins outs : List (List CatalogEntry), s.entries = ins.flatten ++ outs.flatten ∧
      List.Forall₂ (ArgumentSpec.DescribedBy true) s.inputs ins ∧
      List.Forall₂ (ArgumentSpec.DescribedBy false) s.outputs outs ∧
      (∀ e ∈ ins.flatten, e.isInput = true) ∧ (∀ e ∈ outs.flatten, e.isInput = false) ∧
      s.entries.length =
        (s.inputs.map ArgumentSpec.arrays).sum + (s.outputs.map ArgumentSpec.arrays).sum := by
  have hi := forall₂_describedBy true s.inputs
  have ho := forall₂_describedBy false s.outputs
  refine ⟨rfl, _, _, rfl, hi, ho, fun e he => isInput_of_describedBy hi he,
    fun e he => isInput_of_describedBy ho he, ?_⟩
  rw [← length_flatten_of_describedBy hi, ← length_flatten_of_describedBy ho]
  exact List.length_append

/-- The entries of a table whose second column is narrowed and split into pairs, and the columns
taken out of a batch that has a column of that name twice. -/
theorem catalog_describes_columns :
    let t : TableSpec := ⟨["id", "box"], [.any, .of .int8],
      [.any, .axes [.any, .fixed 2]], rfl, rfl⟩
    let b : Batch := ⟨[⟨"box", false, .ofElements .int16 [some 300, some 7]⟩,
      ⟨"id", true, .ofElements .int64 [some 1, none]⟩, ⟨"box", false, .ofElements .int8 []⟩]⟩
    let ws : List Value := [.tensor (.ofCells [2] .int64 [some 1, none]),
      .tensor (.ofCells [1, 2] .int8 [some 44, some 7])]
    (t.materialize b).result = .ok ws ∧
      ∃ es, Signature.entries ⟨[.table t], [.array { name := "y" }]⟩ =
          es ++ [⟨"y", .ndArray, false, .any, .any, false⟩] ∧
        List.Forall₂ (·.TakenFrom b ·) es ws := by
  intro t b ws
  have hm : (t.materialize b).result = .ok ws := rfl
  obtain ⟨-, _, _, -, hi, -⟩ := catalog_describes ⟨[.table t], [.array { name := "y" }]⟩
  obtain ⟨es, _, hes, hnil, rfl⟩ := List.forall₂_cons_left_iff.mp hi
  obtain rfl := List.forall₂_nil_left_iff.mp hnil
  exact ⟨hm, es, by rw [hes.1]; rfl, hes.2 b ws hm⟩

end ArrayContract
