import ArrayContract.DenseArray

/-! # Tensors

A `Tensor` is a column of elements read in a shape; unlike a dense array it may have nulls. It names
its element type beside the column, and carries the proof that this is the column's. So every tensor
is some `ofCells` (`exists_eq_ofCells`). The casts are those of a dense array on the cells that are
not null, and `toDense` refuses nulls before it looks at anything else. -/

namespace ArrayContract

/-- An array in row-major order whose elements may be null. -/
structure Tensor where
  shape : Shape
  type : DeclaredType
  column : Column
  typed : ∃ t, column.type = .numeric t ∧ type = .of t
  deriving DecidableEq

namespace Tensor

def length (t : Tensor) : Nat := t.column.length

def nullCount (t : Tensor) : Nat := t.column.nullCount

/-- The shape counts the cells. -/
def Counted (t : Tensor) : Prop := t.shape.count? = some t.length

/-- Equality of tensors: one shape, one element type, and equal columns, cell by cell. Cells are words,
so not-a-number equals itself, and a null equals a null. -/
def same (a b : Tensor) : Bool :=
  a.shape == b.shape && a.type == b.type && a.column == b.column

theorem same_iff {a b : Tensor} : a.same b = true ↔ a = b := by
  obtain ⟨s, t, c, _⟩ := a
  obtain ⟨s', t', c', _⟩ := b
  simp [same, and_assoc]

/-- The tensor with these cells. -/
def ofCells (shape : Shape) (type : ElementType) (cells : List (Option type.Word)) : Tensor :=
  ⟨shape, .of type, .ofElements type cells, type, rfl, rfl⟩

theorem exists_eq_ofCells (t : Tensor) : ∃ shape type cells, t = ofCells shape type cells := by
  obtain ⟨shape, _, ⟨d, cells⟩, type, hd, rfl⟩ := t
  change d = .numeric type at hd
  subst hd
  exact ⟨shape, type, cells, rfl⟩

theorem column_type {t : Tensor} {type : ElementType} (h : t.type = .of type) :
    t.column.type = .numeric type := by
  obtain ⟨u, hc, ht⟩ := t.typed
  rw [hc, DeclaredType.of.inj (ht.symm.trans h)]

/-- Reads a column of elements in a shape that counts them. -/
def ofColumn (shape : Shape) (column : Column) : Except Fault Tensor :=
  match column with
  | ⟨.numeric type, cells⟩ =>
    let refuse (reason : Misfit) : Except Fault Tensor :=
      .error (.shapeMismatch (.ofShape shape) [cells.length] reason)
    match shape.count? with
    | none => refuse .uncountable
    | some n =>
      if n = cells.length then .ok (ofCells shape type cells)
      else refuse (.content .arrow n cells.length)
  | ⟨type, _⟩ => .error (.unsupportedRepresentation (.native .arrow) (.column type))

theorem ofColumn_eq_ok {shape : Shape} {column : Column} {t : Tensor} :
    ofColumn shape column = .ok t ↔ t.shape = shape ∧ t.column = column ∧ t.Counted := by
  obtain ⟨s, u, cs, rfl⟩ := t.exists_eq_ofCells
  unfold ofColumn
  split
  · next type cells =>
    dsimp only
    split
    · next h =>
      constructor
      · rintro ⟨⟩
      · rintro ⟨rfl, ⟨⟩, hc⟩
        exact nomatch h.symm.trans hc
    · next n h =>
      split
      · next hn =>
        constructor
        · intro he
          rw [← Except.ok.inj he]
          exact ⟨rfl, rfl, h.trans (congrArg some hn)⟩
        · rintro ⟨rfl, ⟨⟩, -⟩
          rfl
      · next hn =>
        constructor
        · rintro ⟨⟩
        · rintro ⟨rfl, ⟨⟩, hc⟩
          exact absurd (Option.some.inj (h.symm.trans hc)) hn
  · next hne =>
    constructor
    · rintro ⟨⟩
    · rintro ⟨-, ⟨⟩, -⟩
      exact (hne _ _ rfl HEq.rfl).elim

/-- Reads a column along one axis. -/
def vector (column : Column) : Except Fault Tensor := ofColumn [column.length] column

/-- The same cells in the declared axes. -/
def reshape (t : Tensor) (axes : List Axis) : Audit Tensor := do
  let shape ← t.shape.resolve axes
  Audit.report (.reshaping .arrow t.shape shape)
  pure { t with shape }

/-- The same shape with each cell cast, nulls apart. -/
def castTo (t : Tensor) (type : ElementType) : Tensor where
  shape := t.shape
  type := .of type
  column := t.column.castTo type
  typed := by
    obtain ⟨source, h, -⟩ := t.typed
    exact ⟨type, Column.type_castTo h type, rfl⟩

/-- The tensor of the declared type; one that has it already is left alone. -/
def cast (t : Tensor) (target : DeclaredType) : Audit Tensor :=
  if t.type = target then pure t
  else do
    Audit.report (.casting .arrow t.type target)
    match t.column.type with
    | .numeric _ =>
      match target with
      | .of type => pure (t.castTo type)
      | .any => Audit.fail (.unknownElementType .any)
    | type => Audit.fail (.unsupportedRepresentation (.native .arrow) (.column type))

@[simp] theorem result_reshape (t : Tensor) (axes : List Axis) :
    (t.reshape axes).result = (t.shape.resolve axes).map fun shape => { t with shape } := by
  unfold reshape
  cases t.shape.resolve axes <;> simp

theorem castTo_ofCells (shape : Shape) (source type : ElementType)
    (cells : List (Option source.Word)) :
    (ofCells shape source cells).castTo type =
      ofCells shape type (cells.map (Option.map (source.cast type))) := rfl

/-- A tensor has the cells that a cast to its own type would give it. -/
theorem castTo_self {t : Tensor} {type : ElementType} (h : t.type = .of type) :
    t.castTo type = t := by
  obtain ⟨shape, source, cells, rfl⟩ := t.exists_eq_ofCells
  obtain rfl := DeclaredType.of.inj h
  simp [castTo_ofCells]

@[simp] theorem result_cast_of (t : Tensor) (type : ElementType) :
    (t.cast (.of type)).result = .ok (t.castTo type) := by
  obtain ⟨source, hs, -⟩ := t.typed
  unfold cast
  split
  · next h => rw [castTo_self h, Audit.result_pure]
  · simp [hs]

@[simp] theorem result_cast_any (t : Tensor) :
    (t.cast .any).result = .error (.unknownElementType .any) := by
  obtain ⟨source, hs, ht⟩ := t.typed
  simp [cast, hs, ht]

/-- A dense array as a tensor without nulls. -/
def ofDense (a : DenseArray) : Tensor := ofCells a.shape a.buffer.type (a.buffer.words.map some)

/-- The two ways to cast the elements of a dense array. -/
theorem castTo_ofDense (a : DenseArray) (type : ElementType) :
    (ofDense a).castTo type = ofDense ⟨a.shape, a.buffer.castTo type⟩ := by
  show ofCells a.shape type ((a.buffer.words.map some).map (Option.map (a.buffer.type.cast type))) =
    ofCells a.shape type ((a.buffer.words.map (a.buffer.type.cast type)).map some)
  rw [List.map_map, List.map_map]
  rfl

/-- The dense array with the same elements; a tensor with nulls has none. -/
def toDense (t : Tensor) : Except Fault DenseArray :=
  if 0 < t.nullCount then
    .error (.unsupportedRepresentation (.native .host) (.nulls t.nullCount))
  else
    match h : t.type with
    | .of type =>
      DenseArray.ofBuffer t.shape ⟨type, (t.column.elements (column_type h)).filterMap id⟩
    | .any => .error (.unknownElementType .any)

theorem toDense_ofCells {shape : Shape} {type : ElementType} {cells : List (Option type.Word)}
    (h : (ofCells shape type cells).nullCount = 0) :
    (ofCells shape type cells).toDense =
      DenseArray.ofBuffer shape ⟨type, cells.filterMap id⟩ := by
  unfold toDense
  rw [if_neg (by simp [h])]
  rfl

@[simp] theorem nullCount_ofDense (a : DenseArray) : (ofDense a).nullCount = 0 := by
  show (a.buffer.words.map some).countP Option.isNone = 0
  simp [List.countP_map, Function.comp_def]

/-- The cells of a tensor without nulls. -/
theorem map_some_filterMap {shape : Shape} {type : ElementType} {cells : List (Option type.Word)}
    (h : (ofCells shape type cells).nullCount = 0) : (cells.filterMap id).map some = cells := by
  rw [List.map_filterMap_some_eq_filter_map_isSome, List.map_id, List.filter_eq_self]
  intro c hc
  have hn : ¬ c.isNone = true := List.countP_eq_zero.mp h c hc
  rcases c with _ | w
  · exact absurd rfl hn
  · rfl

/-- A tensor has a dense array exactly if it is the tensor of one that is counted. -/
theorem toDense_eq_ok {t : Tensor} {a : DenseArray} :
    t.toDense = .ok a ↔ t = ofDense a ∧ a.Counted := by
  obtain ⟨shape, type, cells, rfl⟩ := t.exists_eq_ofCells
  by_cases h : (ofCells shape type cells).nullCount = 0
  · rw [toDense_ofCells h, DenseArray.ofBuffer_eq_ok]
    constructor
    · rintro ⟨rfl, hc⟩
      refine ⟨?_, hc⟩
      rw [ofDense, map_some_filterMap h]
    · rintro ⟨heq, hc⟩
      obtain ⟨s, t, ws⟩ := a
      cases heq
      exact ⟨by simp, hc⟩
  · constructor
    · intro ha
      rw [toDense, if_pos (Nat.pos_of_ne_zero h)] at ha
      exact nomatch ha
    · rintro ⟨heq, -⟩
      exact absurd (heq ▸ nullCount_ofDense a) h

end Tensor

end ArrayContract
