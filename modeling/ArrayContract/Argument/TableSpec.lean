import ArrayContract.Argument.ArraySpec

/-! # Declared tables

A `TableSpec` declares an argument that is a group of named columns, by lists of names, element types
and shapes with one item per column each; `columns` puts together what stands at the same place of
the three. `declare` builds one from such lists, where an empty list of types or shapes leaves them
open; `materialize` takes the declared columns out of a table and brings each to its declaration. -/

namespace ArrayContract

/-- The declaration of one column. -/
structure ColumnSpec where
  name : String
  type : DeclaredType := .any
  shape : ShapePattern := .any
  deriving DecidableEq

/-- A column is an array of the backend that has nulls. -/
def ColumnSpec.arraySpec (c : ColumnSpec) : ArraySpec where
  name := c.name
  type := c.type
  shape := c.shape
  backend := .arrow

/-- The declaration of a table argument. -/
@[ext]
structure TableSpec where
  names : List String
  types : List DeclaredType
  shapes : List ShapePattern
  length_types : types.length = names.length
  length_shapes : shapes.length = names.length
  deriving DecidableEq

namespace TableSpec

/-- The declarations of the columns. -/
def columns (s : TableSpec) : List ColumnSpec :=
  (s.names.zip (s.types.zip s.shapes)).map fun (name, type, shape) => ⟨name, type, shape⟩

/-- There is a column for each name, and none is left out. -/
@[simp] theorem map_name_columns (s : TableSpec) : s.columns.map ColumnSpec.name = s.names := by
  rw [columns, List.map_map]
  exact List.map_fst_zip (by rw [List.length_zip, s.length_types, s.length_shapes]; omega)

@[simp] theorem map_type_columns (s : TableSpec) : s.columns.map ColumnSpec.type = s.types := by
  rw [columns, List.map_map]
  show (s.names.zip (s.types.zip s.shapes)).map (Prod.fst ∘ Prod.snd) = s.types
  rw [← List.map_map, List.map_snd_zip, List.map_fst_zip]
  · exact Nat.le_of_eq (s.length_types.trans s.length_shapes.symm)
  · rw [List.length_zip, s.length_types]
    omega

@[simp] theorem map_shape_columns (s : TableSpec) : s.columns.map ColumnSpec.shape = s.shapes := by
  rw [columns, List.map_map]
  show (s.names.zip (s.types.zip s.shapes)).map (Prod.snd ∘ Prod.snd) = s.shapes
  rw [← List.map_map, List.map_snd_zip, List.map_snd_zip]
  · exact Nat.le_of_eq (s.length_shapes.trans s.length_types.symm)
  · rw [List.length_zip, s.length_types]
    omega

@[simp] theorem length_columns (s : TableSpec) : s.columns.length = s.names.length := by
  rw [← s.map_name_columns, List.length_map]

/-- The declarations of the columns as arrays. -/
def arraySpecs (s : TableSpec) : List ArraySpec := s.columns.map ColumnSpec.arraySpec

/-- A list with one item per column, where an empty list stands for a wildcard in every place. -/
def orAny {α : Type} (any : α) (count : Nat) (items : List α) : List α :=
  if items.isEmpty then List.replicate count any else items

/-- The first name that occurs earlier in the list, or among those seen before it. -/
def repeated? (seen : List String) : List String → Option String
  | [] => none
  | name :: names => if name ∈ seen then some name else repeated? (name :: seen) names

/-- Declares a table by its columns' names, element types and shapes. -/
def declare (names : List String) (types : List DeclaredType) (shapes : List ShapePattern) :
    Except Fault TableSpec :=
  let types := orAny .any names.length types
  let shapes := orAny .any names.length shapes
  if h : names.length ≠ types.length ∨ names.length ≠ shapes.length then
    .error (.lengthMismatch names.length types.length shapes.length)
  else
    match repeated? [] names with
    | some name => .error (.duplicateColumn name)
    | none => .ok ⟨names, types, shapes, by omega, by omega⟩

/-- Takes one declared column out of a table and brings it to its declaration. -/
def materializeColumn (batch : Batch) (c : ColumnSpec) : Audit Value :=
  match batch.column? c.name with
  | none => Audit.fail (.missingColumn c.name)
  | some column =>
    Audit.wrapFault (.invalidColumn c.name) do
      let tensor ← Tensor.vector column
      c.arraySpec.check (.tensor tensor)

/-- Takes the columns out of a table, in the order of their declarations. -/
def materializeColumns (batch : Batch) : List ColumnSpec → Audit (List Value)
  | [] => pure []
  | c :: cs => do
    let v ← materializeColumn batch c
    let vs ← materializeColumns batch cs
    pure (v :: vs)

/-- Takes the declared columns out of a table; others are left alone. -/
def materialize (s : TableSpec) (batch : Batch) : Audit (List Value) :=
  materializeColumns batch s.columns

end TableSpec

end ArrayContract
