import ArrayContract.Element.Cast

/-! # Columns

A `Column` is a sequence of cells of one `DataType`, each of them a value or null. Besides the six
element types, which can be cast to each other (`castTo`), a column can hold types that arrays
refuse. Of these there is a fixed list (`DataType.others`), without parameters such as a time zone or
the type of a list's items: nothing is done with them but to refuse them by their title. -/

namespace ArrayContract

/-- The type of a column's cells. -/
inductive DataType
  | numeric (type : ElementType)
  | uint8
  | uint16
  | uint32
  | uint64
  | date32
  | date64
  | timestamp
  | boolean
  | utf8
  | largeUtf8
  | null
  deriving DecidableEq, Inhabited

namespace DataType

/-- The values of a cell that is not null. -/
def Cell : DataType → Type
  | numeric t => t.Word
  | uint8 => BitVec 8
  | uint16 => BitVec 16
  | uint32 | date32 => BitVec 32
  | uint64 | date64 | timestamp => BitVec 64
  | boolean => Bool
  | utf8 | largeUtf8 => String
  | null => Empty

instance (d : DataType) : DecidableEq d.Cell := by
  cases d <;> unfold Cell <;> infer_instance

/-- The types that arrays refuse. -/
def others : List DataType :=
  [uint8, uint16, uint32, uint64, date32, date64, timestamp, boolean, utf8, largeUtf8, null]

def title : DataType → String
  | numeric .int8 => "Int8"
  | numeric .int16 => "Int16"
  | numeric .int32 => "Int32"
  | numeric .int64 => "Int64"
  | numeric .float32 => "Float32"
  | numeric .float64 => "Float64"
  | uint8 => "UInt8"
  | uint16 => "UInt16"
  | uint32 => "UInt32"
  | uint64 => "UInt64"
  | date32 => "Date32"
  | date64 => "Date64"
  | timestamp => "Timestamp(Nanosecond, None)"
  | boolean => "Boolean"
  | utf8 => "Utf8"
  | largeUtf8 => "LargeUtf8"
  | null => "Null"

end DataType

/-- A sequence of cells of one type. -/
structure Column where
  type : DataType
  cells : List (Option type.Cell)
  deriving DecidableEq

namespace Column

/-- The column of cells of an element type. -/
def ofElements (type : ElementType) (cells : List (Option type.Word)) : Column :=
  ⟨.numeric type, cells⟩

def length (c : Column) : Nat := c.cells.length

/-- The cells from an offset on, as many as asked for. -/
def slice (c : Column) (offset length : Nat) : Column :=
  ⟨c.type, (c.cells.drop offset).take length⟩

def nullCount (c : Column) : Nat := c.cells.countP Option.isNone

/-- The cells of a column of an element type. -/
def elements (c : Column) {type : ElementType} (h : c.type = .numeric type) :
    List (Option type.Word) :=
  (h ▸ c.cells : List (Option (DataType.numeric type).Cell))

/-- Each cell of an element type cast on its own, nulls apart; other cells have no cast. -/
def castTo (c : Column) (target : ElementType) : Column :=
  match c with
  | ⟨.numeric source, cells⟩ => ofElements target (cells.map (Option.map (source.cast target)))
  | ⟨type, cells⟩ => ⟨type, cells⟩

@[simp] theorem castTo_ofElements (source target : ElementType)
    (cells : List (Option source.Word)) :
    (ofElements source cells).castTo target =
      ofElements target (cells.map (Option.map (source.cast target))) := rfl

theorem type_castTo {c : Column} {source : ElementType} (h : c.type = .numeric source)
    (target : ElementType) : (c.castTo target).type = .numeric target := by
  obtain ⟨type, cells⟩ := c
  subst h
  rfl

@[simp] theorem length_castTo (c : Column) (target : ElementType) :
    (c.castTo target).length = c.length := by
  unfold castTo
  split
  · exact List.length_map _
  · rfl

end Column

end ArrayContract
