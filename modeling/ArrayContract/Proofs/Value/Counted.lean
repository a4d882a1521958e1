import ArrayContract.Argument.Basic
import ArrayContract.Proofs.Nested.Rectangle
import ArrayContract.Proofs.Shape.Resolve

/-! # Arrays that count their elements

Only `DenseArray.ofBuffer` and `Tensor.ofColumn` check that a shape counts the elements; every other
operation relies on it. `Value.Counted` says it of an array, and of a nested sequence that it is
small enough to be counted once it is an array. Each operation keeps it: a cast keeps the shape and
the number of elements, and a reshape the count (`Shape.count?_of_resolve`). -/

namespace ArrayContract

open Outcome

/-- The shape of an array counts its elements, and a nested sequence has fewer nodes than can be
counted. -/
def Value.Counted : Value → Prop
  | dense a => a.Counted
  | tensor t => t.Counted
  | nested v => v.nodes < countBound
  | _ => True

namespace DenseArray

variable {a a' : DenseArray}

theorem counted_vector {buffer : Buffer} (h : buffer.length < countBound) :
    (vector buffer).Counted :=
  Shape.count?_singleton h

theorem Counted.reshape (ha : a.Counted) {axes : List Axis}
    (h : (a.reshape axes).result = .ok a') : a'.Counted := by
  rw [result_reshape, map_eq_ok] at h
  obtain ⟨s, hs, rfl⟩ := h
  exact (Shape.count?_of_resolve hs).trans ha

theorem Counted.castTo (ha : a.Counted) (t : ElementType) :
    (DenseArray.mk a.shape (a.buffer.castTo t)).Counted :=
  ha.trans (congrArg some (Buffer.length_castTo a.buffer t).symm)

theorem Counted.cast (ha : a.Counted) {target : DeclaredType}
    (h : (a.cast target).result = .ok a') : a'.Counted := by
  rcases target with _ | t
  · rw [result_cast_any] at h
    exact nomatch h
  · rw [result_cast_of] at h
    obtain rfl := Except.ok.inj h
    exact ha.castTo t

end DenseArray

namespace Tensor

variable {t t' : Tensor}

theorem counted_ofDense {a : DenseArray} : (ofDense a).Counted ↔ a.Counted := by
  unfold Counted DenseArray.Counted
  rw [show (ofDense a).length = a.length from List.length_map _]
  rfl

theorem Counted.reshape (ht : t.Counted) {axes : List Axis}
    (h : (t.reshape axes).result = .ok t') : t'.Counted := by
  rw [result_reshape, map_eq_ok] at h
  obtain ⟨s, hs, rfl⟩ := h
  exact (Shape.count?_of_resolve hs).trans ht

theorem Counted.castTo (ht : t.Counted) (type : ElementType) : (t.castTo type).Counted :=
  ht.trans (congrArg some (Column.length_castTo t.column type).symm)

theorem Counted.cast (ht : t.Counted) {target : DeclaredType}
    (h : (t.cast target).result = .ok t') : t'.Counted := by
  rcases target with _ | type
  · rw [result_cast_any] at h
    exact nomatch h
  · rw [result_cast_of] at h
    obtain rfl := Except.ok.inj h
    exact ht.castTo type

end Tensor

theorem Nested.counted_of_toDense {v : Nested} {a : DenseArray} (hv : v.nodes < countBound)
    (h : v.toDense = .ok a) : a.Counted := by
  obtain ⟨hs, hb⟩ := toDense_eq_ok h
  show a.shape.count? = some a.buffer.length
  rw [hb, length_bufferOf, count?_of_rectangular hs hv]

namespace Value

variable {v w : Value}

theorem Counted.toDense (hv : v.Counted) {a : DenseArray} (h : v.toDense = .ok a) :
    a.Counted := by
  rcases v with d | t | n | b | s | i | items
  · obtain rfl := Except.ok.inj h
    exact hv
  · exact (Tensor.toDense_eq_ok.mp h).2
  · exact Nested.counted_of_toDense hv h
  all_goals exact nomatch h

theorem Counted.toTensor (hv : v.Counted) {t : Tensor} (h : v.toTensor = .ok t) :
    t.Counted := by
  rcases v with d | u | n | b | s | i | items
  · obtain rfl := Except.ok.inj h
    exact Tensor.counted_ofDense.mpr hv
  · obtain rfl := Except.ok.inj h
    exact hv
  · obtain ⟨a, ha, rfl⟩ := map_eq_ok.mp h
    exact Tensor.counted_ofDense.mpr (Nested.counted_of_toDense hv ha)
  all_goals exact nomatch h

theorem Counted.toNative (hv : v.Counted) {b : Backend} (h : b.toNative v = .ok w) :
    w.Counted := by
  rcases b with _ | _
  · obtain ⟨a, ha, rfl⟩ := map_eq_ok.mp h
    exact hv.toDense ha
  · obtain ⟨t, ht, rfl⟩ := map_eq_ok.mp h
    exact hv.toTensor ht

theorem Counted.convertType (hv : v.Counted) {b : Backend} {target : DeclaredType}
    (h : (b.convertType v target).result = .ok w) : w.Counted := by
  rcases b with _ | _
  · simp only [Backend.result_convertType_host, bind_eq_ok, map_eq_ok] at h
    obtain ⟨a, ha, a', ha', rfl⟩ := h
    exact (hv.toDense ha).cast ha'
  · simp only [Backend.result_convertType_arrow, bind_eq_ok, map_eq_ok] at h
    obtain ⟨t, ht, t', ht', rfl⟩ := h
    exact (hv.toTensor ht).cast ht'

theorem Counted.convertShape (hv : v.Counted) {b : Backend} {axes : List Axis}
    (h : (b.convertShape v axes).result = .ok w) : w.Counted := by
  rcases b with _ | _
  · rw [Backend.result_convertShape_host] at h
    obtain ⟨a, ha, h⟩ := bind_eq_ok.mp h
    obtain ⟨a', ha', rfl⟩ := map_eq_ok.mp h
    exact (hv.toDense ha).reshape ha'
  · rw [Backend.result_convertShape_arrow] at h
    obtain ⟨t, ht, h⟩ := bind_eq_ok.mp h
    obtain ⟨t', ht', rfl⟩ := map_eq_ok.mp h
    exact (hv.toTensor ht).reshape ht'

end Value

namespace ArraySpec

variable {s : ArraySpec} {v w : Value}

theorem counted_checkType (hv : v.Counted) (h : (s.checkType v).result = .ok w) :
    w.Counted := by
  cases ht : s.type with
  | any =>
    rw [result_checkType_any ht] at h
    exact Except.ok.inj h ▸ hv
  | of t =>
    rw [result_checkType_of ht] at h
    exact hv.convertType h

theorem counted_checkShape (hv : v.Counted) (h : (s.checkShape v).result = .ok w) :
    w.Counted := by
  cases hs : s.shape with
  | any =>
    rw [result_checkShape_any hs] at h
    exact Except.ok.inj h ▸ hv
  | axes axes =>
    rw [result_checkShape_axes hs] at h
    exact hv.convertShape h

theorem counted_check (hv : v.Counted) (h : (s.check v).result = .ok w) : w.Counted := by
  rw [result_check] at h
  obtain ⟨u, hu, hw⟩ := bind_eq_ok.mp h
  exact counted_checkShape (counted_checkType hv hu) hw

end ArraySpec

namespace Value

variable {v w : Value} {spec : ArgumentSpec}

theorem Counted.checkType (hv : v.Counted) (h : (spec.checkType v).result = .ok w) :
    w.Counted := by
  rcases spec with s | s
  · exact ArraySpec.counted_checkType hv h
  · exact Except.ok.inj h ▸ hv

theorem Counted.checkShape (hv : v.Counted) (h : (spec.checkShape v).result = .ok w) :
    w.Counted := by
  rcases spec with s | s
  · exact ArraySpec.counted_checkShape hv h
  · exact Except.ok.inj h ▸ hv

theorem Counted.check (hv : v.Counted) (h : (spec.check v).result = .ok w) : w.Counted := by
  rcases spec with s | s
  · exact ArraySpec.counted_check hv h
  · exact Except.ok.inj h ▸ hv

end Value

/-! ## What counting rules out -/

/-- A shape that counts is never refused as one that cannot be counted. -/
theorem Shape.resolve_eq_error_of_count? {s : Shape} {n : Nat} (hs : s.count? = some n)
    {axes : List Axis} {fault : Fault} (h : s.resolve axes = .error fault) :
    ∃ reason, fault = .shapeMismatch (.axes axes) s reason ∧ reason ≠ .uncountableArray := by
  obtain ⟨reason, hf, hr⟩ := resolve_eq_error h
  refine ⟨reason, hf, fun he => ?_⟩
  exact nomatch hs.symm.trans (hr he)

namespace Tensor

variable {t : Tensor} {fault : Fault}

/-- Only nulls keep a counted tensor from being a dense array. -/
theorem Counted.toDense_eq_error (ht : t.Counted) (h : t.toDense = .error fault) :
    0 < t.nullCount ∧ fault = .unsupportedRepresentation (.native .host) (.nulls t.nullCount) := by
  obtain ⟨shape, type, cells, rfl⟩ := t.exists_eq_ofCells
  rcases Nat.eq_zero_or_pos (ofCells shape type cells).nullCount with h0 | hpos
  · -- the count is checked once more, and holds
    have hc : DenseArray.Counted ⟨shape, type, cells.filterMap id⟩ := by
      rw [← counted_ofDense, ofDense, map_some_filterMap h0]
      exact ht
    rw [toDense_ofCells h0, DenseArray.ofBuffer_eq_ok.mpr ⟨rfl, hc⟩] at h
    cases h
  · rw [toDense, if_pos hpos] at h
    exact ⟨hpos, (Except.error.inj h).symm⟩

theorem cast_eq_error {target : DeclaredType} (h : (t.cast target).result = .error fault) :
    target = .any ∧ fault = .unknownElementType .any := by
  rcases target with _ | type
  · rw [result_cast_any] at h
    exact ⟨rfl, (Except.error.inj h).symm⟩
  · rw [result_cast_of] at h
    exact nomatch h

end Tensor

end ArrayContract
