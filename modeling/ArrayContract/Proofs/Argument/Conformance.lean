import ArrayContract.Argument.Basic
import ArrayContract.Proofs.Shape.Resolve

/-! # What a checked value looks like

`ArraySpec.Conforms` says what a declaration promises about a value: the backend's representation
as soon as anything is declared, the declared element type, and the declared axes. `check` only ever
gives such values (`ArraySpec.conforms_of_check`): the type step gives the first two, and the shape
step gives the axes and keeps the others, for a value in the backend's representation is not
converted again. -/

namespace ArrayContract

open Outcome

/-- A value is as declared. -/
structure ArraySpec.Conforms (s : ArraySpec) (v : Value) : Prop where
  representation : s.type ≠ .any ∨ s.shape ≠ .any → v.representation = .native s.backend
  type : ∀ t, s.type = .of t → v.type? = some t
  shape : ∀ axes, s.shape = .axes axes → ∃ shape, v.shape? = some shape ∧ shape.Fits axes

/-- What becomes of a value at a place with a declaration, or without one: at an array's place it is
as declared, and elsewhere it is the value itself. -/
def ArgumentSpec.Places (spec : Option ArgumentSpec) (v w : Value) : Prop :=
  match spec with
  | some (.array s) => s.Conforms w
  | some (.table _) => w = v
  | none => w = v

namespace Backend

variable {b : Backend} {v w : Value}

theorem convertType_of_eq_ok {t : ElementType} (h : (b.convertType v (.of t)).result = .ok w) :
    w.representation = .native b ∧ w.type? = some t := by
  rcases b with _ | _
  · simp only [result_convertType_host, DenseArray.result_cast_of, bind_eq_ok, map_ok] at h
    obtain ⟨a, -, ⟨⟩⟩ := h
    exact ⟨rfl, rfl⟩
  · simp only [result_convertType_arrow, Tensor.result_cast_of, bind_eq_ok, map_ok] at h
    obtain ⟨x, -, ⟨⟩⟩ := h
    exact ⟨rfl, rfl⟩

/-- The shape of a result is one that the axes are resolved to. -/
theorem exists_resolve_of_convertShape {axes : List Axis}
    (h : (b.convertShape v axes).result = .ok w) :
    w.representation = .native b ∧
      ∃ source shape : Shape, w.shape? = some shape ∧ source.resolve axes = .ok shape := by
  rcases b with _ | _
  · simp only [result_convertShape_host, DenseArray.result_reshape, bind_eq_ok, map_eq_ok] at h
    obtain ⟨a, -, _, ⟨s, hs, rfl⟩, rfl⟩ := h
    exact ⟨rfl, a.shape, s, rfl, hs⟩
  · simp only [result_convertShape_arrow, Tensor.result_reshape, bind_eq_ok, map_eq_ok] at h
    obtain ⟨x, -, _, ⟨s, hs, rfl⟩, rfl⟩ := h
    exact ⟨rfl, x.shape, s, rfl, hs⟩

theorem convertShape_eq_ok {axes : List Axis} (h : (b.convertShape v axes).result = .ok w) :
    w.representation = .native b ∧ ∃ shape, w.shape? = some shape ∧ shape.Fits axes := by
  obtain ⟨hr, _, s, hs, hres⟩ := exists_resolve_of_convertShape h
  exact ⟨hr, s, hs, Shape.fits_of_resolve hres⟩

/-- The shape step keeps the element type of a value in the backend's representation. -/
theorem type?_of_convertShape {axes : List Axis} (hv : v.representation = .native b)
    (h : (b.convertShape v axes).result = .ok w) : w.type? = v.type? := by
  rcases b with _ | _
  · obtain ⟨a, rfl⟩ := Value.representation_eq_host.mp hv
    simp only [result_convertShape_host, Value.toDense, DenseArray.result_reshape, bind_ok,
      map_eq_ok] at h
    obtain ⟨_, ⟨s, -, rfl⟩, rfl⟩ := h
    rfl
  · obtain ⟨x, rfl⟩ := Value.representation_eq_arrow.mp hv
    simp only [result_convertShape_arrow, Value.toTensor, Tensor.result_reshape, bind_ok,
      map_eq_ok] at h
    obtain ⟨_, ⟨s, -, rfl⟩, rfl⟩ := h
    rfl

end Backend

/-- **A checked value is as declared.** -/
theorem ArraySpec.conforms_of_check {s : ArraySpec} {v w : Value}
    (h : (s.check v).result = .ok w) : s.Conforms w := by
  rw [result_check, bind_eq_ok] at h
  obtain ⟨u, hu, hw⟩ := h
  -- the type step
  have typed : ∀ t, s.type = .of t → u.representation = .native s.backend ∧ u.type? = some t := by
    intro t ht
    rw [result_checkType_of ht] at hu
    exact Backend.convertType_of_eq_ok hu
  cases hs : s.shape with
  | any =>
    rw [result_checkShape_any hs] at hw
    obtain rfl := Except.ok.inj hw
    refine ⟨fun hd => ?_, fun t ht => (typed t ht).2, by simp [hs]⟩
    cases ht : s.type with
    | any => simp [hs, ht] at hd
    | of t => exact (typed t ht).1
  | axes axes =>
    rw [result_checkShape_axes hs] at hw
    obtain ⟨hr, hfit⟩ := Backend.convertShape_eq_ok hw
    refine ⟨fun _ => hr, fun t ht => ?_, fun axes' ha => ?_⟩
    · rw [Backend.type?_of_convertShape (typed t ht).1 hw]
      exact (typed t ht).2
    · obtain rfl := ShapePattern.axes.inj (hs.symm.trans ha)
      exact hfit

/-- A table is passed on as it is. -/
theorem ArgumentSpec.places_of_check {spec : ArgumentSpec} {v w : Value}
    (h : (spec.check v).result = .ok w) : ArgumentSpec.Places (some spec) v w := by
  rcases spec with s | s
  · exact ArraySpec.conforms_of_check h
  · exact (Except.ok.inj h).symm

end ArrayContract
