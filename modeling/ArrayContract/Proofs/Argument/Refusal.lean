import ArrayContract.Argument.ArraySpec
import ArrayContract.Proofs.Nested.Disagreement
import ArrayContract.Proofs.Value.Counted
import ArrayContract.Proofs.Value.Native

/-! # What an array declaration refuses

`Backend.Refuses` lists, without a conversion, the values that a backend has no representation for,
each with its fault: values that are no arrays, nested sequences that are ragged or nested too deep,
and tensors with nulls where a dense array is asked for. Any other value it takes, in one shape
(`Backend.Takes`). Conversion to the backend is refused just so (`toNative_eq_error_iff`,
`takes_iff`), and it comes before all else. So the check of a declaration has two ways to fail, one
after the other: the value is refused, or it is taken in a shape that the declared axes refuse
(`check_refuses_exactly`). A cast is no third one. -/

namespace ArrayContract

open Outcome

/-- A backend has no representation for a value; the fault says why. -/
inductive Backend.Refuses (b : Backend) : Value → Fault → Prop
  | table (batch : Batch) :
      Refuses b (.table batch) (.unsupportedRepresentation (.native b) (.representation .table))
  | text (string : String) :
      Refuses b (.text string) (.unsupportedRepresentation (.native b) (.representation .text))
  | handle (identity : Nat) :
      Refuses b (.handle identity)
        (.unsupportedRepresentation (.native b) (.representation .handle))
  | tuple (items : List Value) :
      Refuses b (.tuple items) (.unsupportedRepresentation (.native b) (.representation .tuple))
  | tooDeep {v : Nested} (long : nestingLimit < v.spine.length) :
      Refuses b (.nested v) (.unsupportedRepresentation .rectangle .tooDeep)
  | ragged {v node : Nested} {depth : Nat} (short : v.spine.length ≤ nestingLimit)
      (first : v.disagreement? = some (depth, node)) :
      Refuses b (.nested v) (.unsupportedRepresentation .rectangle (.ragged depth))
  | nulls {t : Tensor} (host : b = .host) (present : 0 < t.nullCount) :
      Refuses b (.tensor t) (.unsupportedRepresentation (.native .host) (.nulls t.nullCount))

/-- A backend takes a value as an array of a shape. -/
structure Backend.Takes (b : Backend) (v : Value) (s : Shape) : Prop where
  accepted : ∀ fault, ¬ b.Refuses v fault
  shape : v.HasShape s

/-- A value has no more than one shape. -/
theorem Value.HasShape.unique {v : Value} {s s' : Shape} (h : v.HasShape s)
    (h' : v.HasShape s') : s = s' := by
  rcases v with a | t | n | b | x | i | items
  · exact h.symm.trans h'
  · exact h.symm.trans h'
  · exact (Nested.Rectangular.spine_eq h).symm.trans (Nested.Rectangular.spine_eq h')
  all_goals exact h.elim

/-! ## Conversion to a backend -/

namespace Backend

variable {b : Backend} {v : Value} {s : Shape} {fault : Fault}

theorem Refuses.exists_unsupported (h : b.Refuses v fault) :
    ∃ target found, fault = .unsupportedRepresentation target found := by
  cases h <;> exact ⟨_, _, rfl⟩

theorem refuses_nested_iff {n : Nested} :
    b.Refuses (.nested n) fault ↔ n.toDense = .error fault := by
  rw [Nested.toDense_eq_error_iff]
  constructor
  · intro h
    cases h with
    | tooDeep long => exact Or.inl ⟨long, rfl⟩
    | ragged short first => exact Or.inr ⟨short, _, _, first, rfl⟩
  · rintro (⟨long, rfl⟩ | ⟨short, depth, node, first, rfl⟩)
    · exact .tooDeep long
    · exact .ragged short first

/-- Every backend reads a nested sequence as the dense array that it spells out. -/
theorem toNative_nested_eq_error_iff {n : Nested} :
    b.toNative (.nested n) = .error fault ↔ n.toDense = .error fault := by
  rcases b with _ | _
  · exact map_eq_error
  · exact map_eq_error.trans map_eq_error

/-- A counted tensor is refused for its nulls, and by the host backend alone. -/
theorem toNative_tensor_eq_error_iff {t : Tensor} (ht : t.Counted) :
    b.toNative (.tensor t) = .error fault ↔ b.Refuses (.tensor t) fault := by
  constructor
  · intro h
    rcases b with _ | _
    · have hd : t.toDense = .error fault := map_eq_error.mp h
      obtain ⟨hpos, rfl⟩ := ht.toDense_eq_error hd
      exact .nulls rfl hpos
    · cases h
  · intro h
    cases h with
    | nulls host present =>
      subst host
      have hd : t.toDense =
          .error (.unsupportedRepresentation (.native .host) (.nulls t.nullCount)) := by
        unfold Tensor.toDense
        rw [if_pos present]
      exact map_eq_error.mpr hd

/-- **A value is refused on conversion exactly as listed.** -/
theorem toNative_eq_error_iff (hv : ∀ t, v = .tensor t → t.Counted) :
    b.toNative v = .error fault ↔ b.Refuses v fault := by
  rcases v with a | t | n | batch | string | identity | items
  · -- a dense array is taken by both backends
    constructor
    · intro h
      rcases b with _ | _ <;> cases h
    · intro h
      cases h
  · exact toNative_tensor_eq_error_iff (hv t rfl)
  · exact toNative_nested_eq_error_iff.trans refuses_nested_iff.symm
  all_goals
    constructor
    · intro h
      rcases b with _ | _ <;> cases h <;> constructor
    · intro h
      cases h
      rcases b with _ | _ <;> rfl

/-- A value is taken in the shape of the array that it is converted to. -/
theorem takes_iff (hv : ∀ t, v = .tensor t → t.Counted) :
    b.Takes v s ↔ ∃ u, b.toNative v = .ok u ∧ u.shape? = some s := by
  constructor
  · intro h
    cases hu : b.toNative v with
    | error fault => exact absurd ((toNative_eq_error_iff hv).mp hu) (h.accepted fault)
    | ok u =>
      obtain ⟨-, s', hs', hshape⟩ := native_of_toNative hu
      obtain rfl := h.shape.unique hshape
      exact ⟨u, rfl, hs'⟩
  · rintro ⟨u, hu, hs⟩
    obtain ⟨-, s', hs', hshape⟩ := native_of_toNative hu
    obtain rfl := Option.some.inj (hs.symm.trans hs')
    refine ⟨fun fault h => ?_, hshape⟩
    cases hu.symm.trans ((toNative_eq_error_iff hv).mpr h)

end Backend

/-! ## The check -/

namespace ArraySpec

variable {s : ArraySpec} {v u : Value} {shape : Shape} {fault : Fault}

/-- A declaration that asks for nothing leaves every value alone. -/
theorem check_of_open (ht : s.type = .any) (hs : s.shape = .any) : (s.check v).result = .ok v := by
  rw [result_check, result_checkType_any ht, bind_ok, result_checkShape_any hs]

/-- A declaration that asks for anything refuses what its backend refuses. -/
theorem check_of_refused (hd : ¬ (s.type = .any ∧ s.shape = .any))
    (h : s.backend.toNative v = .error fault) : (s.check v).result = .error fault := by
  rw [result_check]
  cases ht : s.type with
  | of t => rw [result_checkType_of ht, Backend.convertType_of_refused h, bind_error]
  | any =>
    rw [result_checkType_any ht, bind_ok]
    cases hs : s.shape with
    | any => exact absurd ⟨ht, hs⟩ hd
    | axes axes => rw [result_checkShape_axes hs, Backend.convertShape_of_refused h]

/-- The type step gives a value that its backend takes in the same shape. -/
theorem exists_checkType_of_native (h : s.backend.toNative v = .ok u)
    (hu : u.shape? = some shape) :
    ∃ w w', (s.checkType v).result = .ok w ∧ s.backend.toNative w = .ok w' ∧
      w'.shape? = some shape := by
  cases ht : s.type with
  | any => exact ⟨v, u, result_checkType_any ht v, h, hu⟩
  | of t =>
    have hr : (u.castTo t).representation = .native s.backend :=
      (u.representation_castTo t).trans (Backend.native_of_toNative h).1
    refine ⟨u.castTo t, u.castTo t, ?_, Backend.toNative_of_native hr, ?_⟩
    · rw [result_checkType_of ht, Backend.convertType_of_native h]
    · rw [Value.shape?_castTo, hu]

/-- A value that is taken in a shape is refused where the declared axes refuse that shape. -/
theorem check_eq_error_iff_of_native (h : s.backend.toNative v = .ok u)
    (hu : u.shape? = some shape) :
    (s.check v).result = .error fault ↔
      ∃ axes, s.shape = .axes axes ∧ shape.resolve axes = .error fault := by
  obtain ⟨w, w', hw, hw', hshape⟩ := exists_checkType_of_native h hu
  rw [result_check, hw, bind_ok]
  cases hs : s.shape with
  | any =>
    rw [result_checkShape_any hs]
    simp
  | axes axes =>
    rw [result_checkShape_axes hs, Backend.convertShape_of_native hw' hshape, map_eq_error]
    simp

theorem check_eq_error_iff (hv : ∀ t, v = .tensor t → t.Counted)
    (hd : ¬ (s.type = .any ∧ s.shape = .any)) :
    (s.check v).result = .error fault ↔ s.backend.Refuses v fault ∨
      ∃ axes shape, s.shape = .axes axes ∧ s.backend.Takes v shape ∧
        shape.resolve axes = .error fault := by
  cases h : s.backend.toNative v with
  | error e =>
    have he : s.backend.Refuses v e := (Backend.toNative_eq_error_iff hv).mp h
    rw [check_of_refused hd h, ← Backend.toNative_eq_error_iff hv, h]
    constructor
    · exact Or.inl
    · rintro (hf | ⟨axes, shape, -, ht, -⟩)
      · exact hf
      · exact absurd he (ht.accepted e)
  | ok u =>
    obtain ⟨-, shape, hu, -⟩ := Backend.native_of_toNative h
    have htakes : s.backend.Takes v shape := (Backend.takes_iff hv).mpr ⟨u, h, hu⟩
    rw [check_eq_error_iff_of_native h hu]
    constructor
    · rintro ⟨axes, hs, hf⟩
      exact Or.inr ⟨axes, shape, hs, htakes, hf⟩
    · rintro (hf | ⟨axes, shape', hs, ht, hf⟩)
      · exact absurd hf (htakes.accepted fault)
      · obtain rfl := htakes.shape.unique ht.shape
        exact ⟨axes, hs, hf⟩

/-- **What a declaration refuses.** One that asks for nothing gives every value back. Any other
fails in two cases, and with one fault in each. Either its backend refuses the value, as every
conversion to the backend does, and then the representation is named as unsupported; or the value is
taken, but in a shape that the declared axes refuse, and then the fault names these axes and that
shape. So no check ever fails for want of an element type. Tensors are taken to count their cells,
as all do that can be obtained (`Obtainable.counted`). -/
theorem check_refuses_exactly (s : ArraySpec) (hv : ∀ t, v = .tensor t → t.Counted) :
    (s.type = .any ∧ s.shape = .any → (s.check v).result = .ok v) ∧
    (¬ (s.type = .any ∧ s.shape = .any) → ∀ fault, (s.check v).result = .error fault ↔
      s.backend.Refuses v fault ∨
      ∃ axes shape reason, s.shape = .axes axes ∧ s.backend.Takes v shape ∧
        shape.resolve axes = .error fault ∧ fault = .shapeMismatch (.axes axes) shape reason) ∧
    (∀ fault, s.backend.toNative v = .error fault ↔ s.backend.Refuses v fault) ∧
    (∀ shape, s.backend.Takes v shape ↔
      ∃ u, s.backend.toNative v = .ok u ∧ u.shape? = some shape) ∧
    (∀ fault, s.backend.Refuses v fault →
      ∃ target found, fault = .unsupportedRepresentation target found) ∧
    ∀ type, (s.check v).result ≠ .error (.unknownElementType type) := by
  refine ⟨fun h => check_of_open h.1 h.2, fun hd fault => ?_,
    fun fault => Backend.toNative_eq_error_iff hv, fun shape => Backend.takes_iff hv,
    fun fault => Backend.Refuses.exists_unsupported, fun type h => ?_⟩
  · rw [check_eq_error_iff hv hd]
    refine or_congr_right ⟨?_, ?_⟩
    · rintro ⟨axes, shape, hs, ht, he⟩
      obtain ⟨reason, hf, -⟩ := Shape.resolve_eq_error he
      exact ⟨axes, shape, reason, hs, ht, he, hf⟩
    · rintro ⟨axes, shape, -, hs, ht, he, -⟩
      exact ⟨axes, shape, hs, ht, he⟩
  · by_cases hd : s.type = .any ∧ s.shape = .any
    · rw [check_of_open hd.1 hd.2] at h
      cases h
    · rcases (check_eq_error_iff hv hd).mp h with hr | ⟨axes, shape, -, -, hr⟩
      · obtain ⟨target, found, hf⟩ := hr.exists_unsupported
        cases hf
      · obtain ⟨reason, hf, -⟩ := Shape.resolve_eq_error hr
        cases hf

/-- A null is in the way before the axes are, and where no null is the axes are. -/
theorem check_refuses_exactly_in_turn :
    let s : ArraySpec := { name := "x", type := .of .int8, shape := .axes [.fixed 5] }
    let t : Tensor := .ofCells [2] .int32 [some 1, none]
    let n : Nested := .list [.list [.int 1, .int 2], .list [.int 3, .int 4]]
    t.Counted ∧
      (s.check (.tensor t)).result =
        .error (.unsupportedRepresentation (.native .host) (.nulls 1)) ∧
      s.backend.Takes (.nested n) [2, 2] ∧
      (s.check (.nested n)).result =
        .error (.shapeMismatch (.axes [.fixed 5]) [2, 2] (.size 4 [.fixed 5])) := by
  intro s t n
  have ht : t.Counted := by rfl
  have hv : ∀ t', Value.tensor t = .tensor t' → t'.Counted := by
    intro t' h
    cases h
    exact ht
  have hn : ∀ t', Value.nested n = .tensor t' → t'.Counted := by
    intro t' h
    cases h
  have hd : ¬ (s.type = .any ∧ s.shape = .any) := by
    rintro ⟨h, -⟩
    cases h
  obtain ⟨-, nulls, -⟩ := check_refuses_exactly s hv
  obtain ⟨-, misfit, -, takes, -⟩ := check_refuses_exactly s hn
  have htakes : s.backend.Takes (.nested n) [2, 2] := (takes _).mpr ⟨_, rfl, rfl⟩
  refine ⟨ht, (nulls hd _).mpr (Or.inl (.nulls rfl (by decide))), htakes, ?_⟩
  exact (misfit hd _).mpr (Or.inr ⟨_, _, _, rfl, htakes, rfl, rfl⟩)

end ArraySpec

end ArrayContract
