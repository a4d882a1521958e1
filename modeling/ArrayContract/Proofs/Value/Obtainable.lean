import ArrayContract.Proofs.Value.Counted

/-! # What can be obtained

`Obtainable` holds of the values that some sequence of operations gives: arrays are built from
buffers, columns and nested sequences, converted into each other, cast, reshaped, brought to a
backend and to a declaration, in any order and any number of times. By induction on such a sequence
every array counts its elements (`Obtainable.counted`), so that the operations which do not check
it are right not to. -/

namespace ArrayContract

/-- A value is obtained by building and converting. Buffers and nested sequences are taken to be no
larger than what can be counted. -/
inductive Obtainable : Value → Prop
  | ofBuffer {shape : Shape} {buffer : Buffer} {a : DenseArray}
      (h : DenseArray.ofBuffer shape buffer = .ok a) : Obtainable (.dense a)
  | vector {buffer : Buffer} (h : buffer.length < countBound) :
      Obtainable (.dense (.vector buffer))
  | ofColumn {shape : Shape} {column : Column} {t : Tensor}
      (h : Tensor.ofColumn shape column = .ok t) : Obtainable (.tensor t)
  | ofVector {column : Column} {t : Tensor} (h : Tensor.vector column = .ok t) :
      Obtainable (.tensor t)
  | nested {v : Nested} (h : v.nodes < countBound) : Obtainable (.nested v)
  | ofNested {v : Nested} {a : DenseArray} (hv : v.nodes < countBound) (h : v.toDense = .ok a) :
      Obtainable (.dense a)
  | table (b : Batch) : Obtainable (.table b)
  | text (s : String) : Obtainable (.text s)
  | handle (i : Nat) : Obtainable (.handle i)
  | tuple (items : List Value) : Obtainable (.tuple items)
  | reshapeDense {a a' : DenseArray} {axes : List Axis} (ha : Obtainable (.dense a))
      (h : (a.reshape axes).result = .ok a') : Obtainable (.dense a')
  | castDense {a a' : DenseArray} {target : DeclaredType} (ha : Obtainable (.dense a))
      (h : (a.cast target).result = .ok a') : Obtainable (.dense a')
  | reshapeTensor {t t' : Tensor} {axes : List Axis} (ht : Obtainable (.tensor t))
      (h : (t.reshape axes).result = .ok t') : Obtainable (.tensor t')
  | castTensor {t t' : Tensor} {target : DeclaredType} (ht : Obtainable (.tensor t))
      (h : (t.cast target).result = .ok t') : Obtainable (.tensor t')
  | ofDense {a : DenseArray} (ha : Obtainable (.dense a)) : Obtainable (.tensor (.ofDense a))
  | toDense {v : Value} {a : DenseArray} (hv : Obtainable v) (h : v.toDense = .ok a) :
      Obtainable (.dense a)
  | toTensor {v : Value} {t : Tensor} (hv : Obtainable v) (h : v.toTensor = .ok t) :
      Obtainable (.tensor t)
  | toNative {v w : Value} {b : Backend} (hv : Obtainable v) (h : b.toNative v = .ok w) :
      Obtainable w
  | convertType {v w : Value} {b : Backend} {target : DeclaredType} (hv : Obtainable v)
      (h : (b.convertType v target).result = .ok w) : Obtainable w
  | convertShape {v w : Value} {b : Backend} {axes : List Axis} (hv : Obtainable v)
      (h : (b.convertShape v axes).result = .ok w) : Obtainable w
  | checkType {v w : Value} {spec : ArgumentSpec} (hv : Obtainable v)
      (h : (spec.checkType v).result = .ok w) : Obtainable w
  | checkShape {v w : Value} {spec : ArgumentSpec} (hv : Obtainable v)
      (h : (spec.checkShape v).result = .ok w) : Obtainable w
  | check {v w : Value} {spec : ArgumentSpec} (hv : Obtainable v)
      (h : (spec.check v).result = .ok w) : Obtainable w

/-- One case for each operation; the invariant is `Value.Counted`. -/
theorem Obtainable.counted {v : Value} (h : Obtainable v) : v.Counted := by
  induction h with
  | ofBuffer h => exact (DenseArray.ofBuffer_eq_ok.mp h).2
  | vector h => exact DenseArray.counted_vector h
  | ofColumn h => exact (Tensor.ofColumn_eq_ok.mp h).2.2
  | ofVector h => exact (Tensor.ofColumn_eq_ok.mp h).2.2
  | nested h => exact h
  | ofNested hv h => exact Nested.counted_of_toDense hv h
  | table b => trivial
  | text s => trivial
  | handle i => trivial
  | tuple items => trivial
  | reshapeDense _ h ih => exact DenseArray.Counted.reshape ih h
  | castDense _ h ih => exact DenseArray.Counted.cast ih h
  | reshapeTensor _ h ih => exact Tensor.Counted.reshape ih h
  | castTensor _ h ih => exact Tensor.Counted.cast ih h
  | ofDense _ ih => exact Tensor.counted_ofDense.mpr ih
  | toDense _ h ih => exact ih.toDense h
  | toTensor _ h ih => exact ih.toTensor h
  | toNative _ h ih => exact ih.toNative h
  | convertType _ h ih => exact ih.convertType h
  | convertShape _ h ih => exact ih.convertShape h
  | checkType _ h ih => exact ih.checkType h
  | checkShape _ h ih => exact ih.checkShape h
  | check _ h ih => exact ih.check h

/-! ## The invariant -/

/-- **Every array obtained counts its elements**, and is one that the checks on its parts accept: a
tensor's element type is that of its column. So no shape at hand is refused as uncountable, a tensor
without nulls always becomes a dense array, and a cast fails only for want of a type to cast to. -/
theorem obtainable_arrays_counted {v : Value} (h : Obtainable v) :
    (∀ a, v = .dense a →
      a.shape.count? = some a.buffer.words.length ∧
      DenseArray.ofBuffer a.shape a.buffer = .ok a ∧
      ∀ axes fault, a.shape.resolve axes = .error fault →
        ∃ reason, fault = .shapeMismatch (.axes axes) a.shape reason ∧
          reason ≠ .uncountableArray) ∧
    (∀ t, v = .tensor t →
      t.shape.count? = some t.column.length ∧
      (∃ e, t.column.type = .numeric e ∧ t.type = .of e) ∧
      Tensor.ofColumn t.shape t.column = .ok t ∧
      (∀ axes fault, t.shape.resolve axes = .error fault →
        ∃ reason, fault = .shapeMismatch (.axes axes) t.shape reason ∧
          reason ≠ .uncountableArray) ∧
      (∀ fault, t.toDense = .error fault → 0 < t.nullCount ∧
        fault = .unsupportedRepresentation (.native .host) (.nulls t.nullCount)) ∧
      ∀ target fault, (t.cast target).result = .error fault →
        target = .any ∧ fault = .unknownElementType .any) := by
  have hc := h.counted
  constructor
  · rintro a rfl
    exact ⟨hc, DenseArray.ofBuffer_eq_ok.mpr ⟨rfl, hc⟩,
      fun _ _ he => Shape.resolve_eq_error_of_count? hc he⟩
  · rintro t rfl
    exact ⟨hc, t.typed, Tensor.ofColumn_eq_ok.mpr ⟨rfl, rfl, hc⟩,
      fun _ _ he => Shape.resolve_eq_error_of_count? hc he,
      fun _ he => Tensor.Counted.toDense_eq_error hc he, fun _ _ he => Tensor.cast_eq_error he⟩

/-- Without elements, the leading axes may be of any length that can be counted; and a column with a
null that is read as a matrix and cast is refused as a dense array for its null alone. -/
theorem obtainable_arrays_counted_empty :
    (Obtainable (.tensor (.ofCells [2 ^ 63, 0] .float32 [])) ∧
      Tensor.ofColumn [2 ^ 63, 0] (.ofElements .float32 []) =
        .ok (.ofCells [2 ^ 63, 0] .float32 [])) ∧
    let column : Column := .ofElements .int16 [some 300, none, some 7, some (-1)]
    let t : Tensor := .ofCells [2, 2] .int8 [some 44, none, some 7, some (-1)]
    ((Tensor.vector column).bind fun x => (x.reshape [.any, .fixed 2]).result.bind fun y =>
      (y.cast (.of .int8)).result) = .ok t ∧
    t.shape.count? = some 4 ∧ Tensor.ofColumn t.shape t.column = .ok t ∧
      ∀ fault, t.toDense = .error fault →
        fault = .unsupportedRepresentation (.native .host) (.nulls 1) := by
  constructor
  · have hb : DenseArray.ofBuffer [2 ^ 40, 0, 3] ⟨.int8, []⟩ = .ok ⟨[2 ^ 40, 0, 3], .int8, []⟩ := by
      cbv
    have hr : (DenseArray.reshape ⟨[2 ^ 40, 0, 3], .int8, []⟩ [.fixed (2 ^ 63), .any]).result =
        .ok ⟨[2 ^ 63, 0], .int8, []⟩ := by cbv
    have hc : (Backend.arrow.convertType (.dense ⟨[2 ^ 63, 0], .int8, []⟩) (.of .float32)).result =
        .ok (.tensor (.ofCells [2 ^ 63, 0] .float32 [])) := by cbv
    have h : Obtainable (.tensor (.ofCells [2 ^ 63, 0] .float32 [])) :=
      .convertType (.reshapeDense (.ofBuffer hb) hr) hc
    exact ⟨h, ((obtainable_arrays_counted h).2 _ rfl).2.2.1⟩
  · intro column t
    have hx : Tensor.vector column = .ok (.ofCells [4] .int16 [some 300, none, some 7, some (-1)]) :=
      by rfl
    have hy : (Tensor.reshape (.ofCells [4] .int16 [some 300, none, some 7, some (-1)])
        [.any, .fixed 2]).result =
          .ok (.ofCells [2, 2] .int16 [some 300, none, some 7, some (-1)]) := by rfl
    have ht : (Tensor.cast (.ofCells [2, 2] .int16 [some 300, none, some 7, some (-1)])
        (.of .int8)).result = .ok t := by rfl
    have h : Obtainable (.tensor t) := .castTensor (.reshapeTensor (.ofVector hx) hy) ht
    obtain ⟨hcount, -, hcolumn, -, hdense, -⟩ := (obtainable_arrays_counted h).2 t rfl
    refine ⟨?_, hcount, hcolumn, fun fault hf => (hdense fault hf).2⟩
    rw [hx, Outcome.bind_ok, hy, Outcome.bind_ok, ht]

end ArrayContract
