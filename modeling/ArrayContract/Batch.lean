import ArrayContract.Column
import ArrayContract.Fault

/-! # Batches of columns

A `Batch` is a table: named columns of one length. Names may repeat, and a name stands for the first
column that has it (`column?`). A table keeps no number of rows beside its columns, which have as many
cells as it has rows, so without columns it has none; and neither tables nor columns carry metadata,
for nothing reads it. -/

namespace ArrayContract

/-- A named column of a table; `nullable` tells whether it may have nulls. -/
structure Field where
  name : String
  nullable : Bool
  column : Column
  deriving DecidableEq

/-- A table. -/
structure Batch where
  fields : List Field
  deriving DecidableEq

namespace Batch

/-- The table of some columns, all of one length; a column may have nulls if it has any. -/
def ofColumns (columns : List (String × Column)) : Except Fault Batch :=
  match columns with
  | [] => .error (.malformedTable .noColumns)
  | (_, first) :: _ =>
    if columns.all fun c => c.2.length == first.length then
      .ok ⟨columns.map fun (name, column) => ⟨name, column.nullCount != 0, column⟩⟩
    else .error (.malformedTable .unequalLengths)

/-- The first column of a name. -/
def column? (b : Batch) (name : String) : Option Column :=
  (b.fields.find? (·.name == name)).map Field.column

/-- The number of rows. -/
def rows (b : Batch) : Nat := (b.fields.head?.map (·.column.length)).getD 0

end Batch

end ArrayContract
