import ArrayContract.Proofs.Value.Content

/-! # Conversions begin with the representation

Whatever a backend is asked to do with a value, it first brings the value into its own
representation, and a refusal of that is the refusal of the whole conversion
(`convertType_of_refused`, `convertShape_of_refused`). What is left to do on the native array is a
cast, which cannot fail and keeps the shape (`convertType_of_native`), or a new shape, which can be
refused and keeps the elements (`convertShape_of_native`). `castTo` and `withShape` are these two on
values; they do not get in each other's way (`castTo_withShape`). -/

namespace ArrayContract

open Outcome

namespace Value

/-- An array with each element cast on its own; other values are left alone. -/
def castTo : Value → ElementType → Value
  | dense a, t => dense ⟨a.shape, a.buffer.castTo t⟩
  | tensor x, t => tensor (x.castTo t)
  | v, _ => v

/-- The elements of an array in another shape; other values are left alone. -/
def withShape : Value → Shape → Value
  | dense a, s => dense { a with shape := s }
  | tensor x, s => tensor { x with shape := s }
  | v, _ => v

@[simp] theorem representation_castTo (v : Value) (t : ElementType) :
    (v.castTo t).representation = v.representation := by
  cases v <;> rfl

@[simp] theorem representation_withShape (v : Value) (s : Shape) :
    (v.withShape s).representation = v.representation := by
  cases v <;> rfl

@[simp] theorem shape?_castTo (v : Value) (t : ElementType) : (v.castTo t).shape? = v.shape? := by
  cases v <;> rfl

/-- An array has the elements that a cast to its own type would give it. -/
theorem castTo_self {v : Value} {t : ElementType} (h : v.type? = some t) : v.castTo t = v := by
  rcases v with a | x | _ | _ | _ | _ | _
  · obtain rfl : a.buffer.type = t := Option.some.inj h
    simp [castTo]
  · obtain ⟨shape, type, cells, rfl⟩ := x.exists_eq_ofCells
    obtain rfl : type = t := Option.some.inj h
    exact congrArg tensor (Tensor.castTo_self rfl)
  all_goals rfl

theorem withShape_self {v : Value} {s : Shape} (h : v.shape? = some s) : v.withShape s = v := by
  rcases v with a | x | _ | _ | _ | _ | _
  · obtain rfl : a.shape = s := Option.some.inj h
    rfl
  · obtain rfl : x.shape = s := Option.some.inj h
    rfl
  all_goals rfl

theorem castTo_withShape (v : Value) (s : Shape) (t : ElementType) :
    (v.withShape s).castTo t = (v.castTo t).withShape s := by
  cases v <;> rfl

end Value

namespace Backend

variable {b : Backend} {v u : Value} {fault : Fault}

/-! ## Native values -/

/-- A value that the backend has in its own representation is left alone. -/
theorem toNative_of_native (hv : v.representation = .native b) : b.toNative v = .ok v := by
  rcases b with _ | _
  · obtain ⟨a, rfl⟩ := Value.representation_eq_host.mp hv
    rfl
  · obtain ⟨t, rfl⟩ := Value.representation_eq_arrow.mp hv
    rfl

/-- What a value is brought to is an array of the backend, in the shape of the value. -/
theorem native_of_toNative (h : b.toNative v = .ok u) :
    u.representation = .native b ∧ ∃ s, u.shape? = some s ∧ v.HasShape s := by
  rcases b with _ | _
  · obtain ⟨a, ha, rfl⟩ := map_eq_ok.mp h
    exact ⟨rfl, a.shape, rfl, (Value.content_of_toDense ha).2⟩
  · obtain ⟨t, ht, rfl⟩ := map_eq_ok.mp h
    exact ⟨rfl, t.shape, rfl, (Value.content_of_toTensor ht).2⟩

/-! ## The type step -/

theorem convertType_of_refused (h : b.toNative v = .error fault) (t : ElementType) :
    (b.convertType v (.of t)).result = .error fault := by
  rcases b with _ | _
  · have hd : v.toDense = .error fault := map_eq_error.mp h
    rw [result_convertType_host, hd, bind_error]
  · have ht : v.toTensor = .error fault := map_eq_error.mp h
    rw [result_convertType_arrow, ht, bind_error]

theorem convertType_of_native (h : b.toNative v = .ok u) (t : ElementType) :
    (b.convertType v (.of t)).result = .ok (u.castTo t) := by
  rcases b with _ | _
  · obtain ⟨a, ha, rfl⟩ := map_eq_ok.mp h
    rw [result_convertType_host, ha, bind_ok, DenseArray.result_cast_of, map_ok]
    rfl
  · obtain ⟨x, hx, rfl⟩ := map_eq_ok.mp h
    rw [result_convertType_arrow, hx, bind_ok, Tensor.result_cast_of, map_ok]
    rfl

/-! ## The shape step -/

theorem convertShape_of_refused (h : b.toNative v = .error fault) (axes : List Axis) :
    (b.convertShape v axes).result = .error fault := by
  rcases b with _ | _
  · have hd : v.toDense = .error fault := map_eq_error.mp h
    rw [result_convertShape_host, hd, bind_error]
  · have ht : v.toTensor = .error fault := map_eq_error.mp h
    rw [result_convertShape_arrow, ht, bind_error]

theorem convertShape_of_native {s : Shape} (h : b.toNative v = .ok u) (hs : u.shape? = some s)
    (axes : List Axis) :
    (b.convertShape v axes).result = (s.resolve axes).map u.withShape := by
  rcases b with _ | _
  · obtain ⟨a, ha, rfl⟩ := map_eq_ok.mp h
    obtain rfl : a.shape = s := Option.some.inj hs
    rw [result_convertShape_host, ha, bind_ok, DenseArray.result_reshape]
    cases a.shape.resolve axes <;> rfl
  · obtain ⟨x, hx, rfl⟩ := map_eq_ok.mp h
    obtain rfl : x.shape = s := Option.some.inj hs
    rw [result_convertShape_arrow, hx, bind_ok, Tensor.result_reshape]
    cases x.shape.resolve axes <;> rfl

end Backend

end ArrayContract
