import ArrayContract.Proofs.Nested.Rectangle
import ArrayContract.Value.Native

/-! # The elements of a value

`content?` lists the elements of an array-like value in row-major order, whatever its
representation, and `HasShape` gives its shape. The elements of a nested sequence are its integers,
or its numbers in double precision (`Nested.content_cases`). Bringing a value to a representation
keeps both (`content_of_toDense`, `content_of_toTensor`); the type step of a backend casts every
element on its own, and the shape step leaves the elements alone. -/

namespace ArrayContract

open Outcome

/-- The elements of an array in row-major order. -/
def DenseArray.content (a : DenseArray) : Column :=
  .ofElements a.buffer.type (a.buffer.words.map some)

/-- The numbers of a nested sequence: all of them in double precision if one is, or if there are
none, and else integers. -/
def Nested.content (v : Nested) : Column :=
  if v.numbers = [] ∨ ∃ l ∈ v.numbers, l.isInt = false then
    .ofElements .float64 (v.numbers.map fun l => some l.nearest)
  else .ofElements .int64 (v.numbers.map Nested.Leaf.int?)

/-- Each element cast on its own to the declared type; any type is no type to cast to. -/
def Column.castAs (c : Column) : DeclaredType → Column
  | .any => c
  | .of t => c.castTo t

@[simp] theorem Column.length_castAs (c : Column) (t : DeclaredType) :
    (c.castAs t).length = c.length := by
  cases t with
  | any => rfl
  | of t => exact c.length_castTo t

namespace Value

/-- The elements of an array-like value, some of which may be null. -/
def content? : Value → Option Column
  | dense a => some a.content
  | tensor t => some t.column
  | nested v => some v.content
  | _ => none

/-- The shape of an array-like value, for a nested sequence the one in which it is rectangular. -/
def HasShape (v : Value) (s : Shape) : Prop :=
  match v with
  | dense a => a.shape = s
  | tensor t => t.shape = s
  | nested v => v.Rectangular s
  | _ => False

end Value

/-! ## Representations -/

/-- Arrays have elements of an element type. -/
theorem Value.exists_ofElements_of_content {v : Value} {c : Column} (h : v.content? = some c) :
    ∃ t cells, c = .ofElements t cells := by
  rcases v with d | t | n | b | s | i | items
  · exact ⟨_, _, (Option.some.inj h).symm⟩
  · obtain ⟨shape, type, cells, rfl⟩ := t.exists_eq_ofCells
    exact ⟨type, cells, (Option.some.inj h).symm⟩
  · obtain rfl := Option.some.inj h
    unfold Nested.content
    split
    · exact ⟨_, _, rfl⟩
    · exact ⟨_, _, rfl⟩
  all_goals exact nomatch h

theorem Nested.content_bufferOf (v : Nested) (s : Shape) :
    DenseArray.content ⟨s, bufferOf v.numbers⟩ = v.content := by
  unfold Nested.content
  rcases eq_bufferOf_iff.mp (rfl : bufferOf v.numbers = bufferOf v.numbers) with
    ⟨ints, hne, hls, hb⟩ | ⟨hf, hb⟩
  · have hint : ¬ (v.numbers = [] ∨ ∃ l ∈ v.numbers, l.isInt = false) := by
      rw [hls]
      rintro (h | ⟨l, hl, h⟩)
      · exact hne (List.map_eq_nil_iff.mp h)
      · obtain ⟨i, -, rfl⟩ := List.mem_map.mp hl
        cases h
    rw [if_neg hint, hb, hls, List.map_map]
    rfl
  · rw [if_pos hf, hb]
    show Column.ofElements .float64 ((v.numbers.map Leaf.nearest).map some) = _
    rw [List.map_map]
    rfl

/-- The numbers of a nested sequence are kept if there are some and all are integers, and else an
integer becomes a nearest number of double precision. -/
theorem Nested.content_cases (v : Nested) :
    (∃ ints, ints ≠ [] ∧ v.numbers = ints.map .int ∧
      v.content = .ofElements .int64 (ints.map some)) ∨
    ((v.numbers = [] ∨ ∃ l ∈ v.numbers, l.isInt = false) ∧ ∃ words,
      List.Forall₂ Leaf.IsNearest v.numbers words ∧
        v.content = .ofElements .float64 (words.map some)) := by
  have hc := Nested.content_bufferOf v []
  rcases eq_bufferOf_iff.mp (rfl : bufferOf v.numbers = bufferOf v.numbers) with
    ⟨ints, hne, hls, hb⟩ | ⟨hf, hb⟩
  · rw [hb] at hc
    exact Or.inl ⟨ints, hne, hls, hc.symm⟩
  · rw [hb] at hc
    refine Or.inr ⟨hf, v.numbers.map Leaf.nearest, ?_, hc.symm⟩
    exact List.forall₂_map_right_iff.mpr
      (List.forall₂_same.mpr fun l _ => l.isNearest_nearest)

namespace Value

variable {v : Value}

theorem content_of_toDense {a : DenseArray} (h : v.toDense = .ok a) :
    v.content? = some a.content ∧ v.HasShape a.shape := by
  rcases v with d | t | n | b | s | i | items
  · obtain rfl := Except.ok.inj h
    exact ⟨rfl, rfl⟩
  · obtain ⟨rfl, -⟩ := Tensor.toDense_eq_ok.mp h
    exact ⟨rfl, rfl⟩
  · obtain ⟨hs, hb⟩ := Nested.toDense_eq_ok h
    rcases a with ⟨s, b⟩
    obtain rfl : b = _ := hb
    exact ⟨congrArg some (Nested.content_bufferOf n s).symm, hs⟩
  all_goals exact nomatch h

theorem content_of_toTensor {t : Tensor} (h : v.toTensor = .ok t) :
    v.content? = some t.column ∧ v.HasShape t.shape := by
  rcases v with d | t | n | b | s | i | items
  · obtain rfl := Except.ok.inj h
    exact ⟨rfl, rfl⟩
  · obtain rfl := Except.ok.inj h
    exact ⟨rfl, rfl⟩
  · obtain ⟨a, ha, rfl⟩ := map_eq_ok.mp h
    exact content_of_toDense (v := nested n) ha
  all_goals exact nomatch h

end Value

/-! ## The steps of a backend -/

theorem DenseArray.content_castTo (a : DenseArray) (t : ElementType) :
    DenseArray.content ⟨a.shape, a.buffer.castTo t⟩ = a.content.castTo t :=
  congrArg Tensor.column (Tensor.castTo_ofDense a t).symm

namespace Backend

variable {b : Backend} {v w : Value} {c : Column}

/-- The type step keeps the shape and casts every element on its own. -/
theorem content_of_convertType {t : ElementType} (h : (b.convertType v (.of t)).result = .ok w)
    (hc : v.content? = some c) :
    w.content? = some (c.castTo t) ∧ ∃ shape, v.HasShape shape ∧ w.shape? = some shape := by
  rcases b with _ | _
  · simp only [result_convertType_host, DenseArray.result_cast_of, bind_eq_ok, map_ok] at h
    obtain ⟨a, ha, ⟨⟩⟩ := h
    obtain ⟨hv, hs⟩ := Value.content_of_toDense ha
    obtain rfl := Option.some.inj (hc.symm.trans hv)
    exact ⟨congrArg some (DenseArray.content_castTo a t), a.shape, hs, rfl⟩
  · simp only [result_convertType_arrow, Tensor.result_cast_of, bind_eq_ok, map_ok] at h
    obtain ⟨x, hx, ⟨⟩⟩ := h
    obtain ⟨hv, hs⟩ := Value.content_of_toTensor hx
    obtain rfl := Option.some.inj (hc.symm.trans hv)
    exact ⟨rfl, x.shape, hs, rfl⟩

/-- The shape step leaves the elements alone. -/
theorem content_of_convertShape {axes : List Axis} (h : (b.convertShape v axes).result = .ok w)
    (hc : v.content? = some c) : w.content? = some c := by
  rcases b with _ | _
  · simp only [result_convertShape_host, DenseArray.result_reshape, bind_eq_ok, map_eq_ok] at h
    obtain ⟨a, ha, _, ⟨s, -, rfl⟩, rfl⟩ := h
    exact (Value.content_of_toDense ha).1.symm.trans hc
  · simp only [result_convertShape_arrow, Tensor.result_reshape, bind_eq_ok, map_eq_ok] at h
    obtain ⟨x, hx, _, ⟨s, -, rfl⟩, rfl⟩ := h
    exact (Value.content_of_toTensor hx).1.symm.trans hc

end Backend

end ArrayContract
