import ArrayContract.Proofs.Value.Content
import ArrayContract.Proofs.Value.Counted

/-! # The backends simulate each other

A run applies a list of conversions to a value, each on some backend; a step that fails leaves the
value as it is. Two runs of the same conversions on a value without nulls, with the backends chosen
independently, agree at every step (`Agree`). The relation that carries the induction is `Alike`:
the two current values spell out one dense array, which every conversion then treats alike whatever
the backend (`apply_of_spells`), or they are one value that no backend takes. -/

namespace ArrayContract

open Outcome

/-! ## Runs -/

/-- What a backend can be asked to do with a value. -/
inductive Conversion
  | toNative
  | convertType (target : DeclaredType)
  | convertShape (axes : List Axis)

/-- One step of a run. -/
def Conversion.apply (c : Conversion) (b : Backend) (v : Value) : Except Fault Value :=
  match c with
  | toNative => b.toNative v
  | convertType target => (b.convertType v target).result
  | convertShape axes => (b.convertShape v axes).result

/-- The outcomes of the steps of a run; a step that fails leaves the value as it is. -/
def outcomes (v : Value) : List (Conversion × Backend) → List (Except Fault Value)
  | [] => []
  | (c, b) :: steps =>
    match c.apply b v with
    | .ok w => .ok w :: outcomes w steps
    | .error e => .error e :: outcomes v steps

/-! ## Agreement -/

/-- Faults that differ at most in the target of an unsupported representation. -/
def Fault.SameButTarget : Fault → Fault → Prop
  | unsupportedRepresentation _ found, unsupportedRepresentation _ found' => found = found'
  | e, e' => e = e'

/-- Arrays of one shape, one element type and one sequence of elements, word by word. -/
def Value.SameArray (v w : Value) : Prop :=
  ∃ (shape : Shape) (type : ElementType) (cells : List (Option type.Word)),
    v.shape? = some shape ∧ w.shape? = some shape ∧
    v.type? = some type ∧ w.type? = some type ∧
    v.content? = some (.ofElements type cells) ∧ w.content? = some (.ofElements type cells)

/-- Two steps succeed with the same array, or fail alike. -/
def Agree : Except Fault Value → Except Fault Value → Prop
  | .ok v, .ok w => v.SameArray w
  | .error e, .error e' => e.SameButTarget e'
  | _, _ => False

/-- A value has no nulls as an array. -/
def Value.NullFree : Value → Prop
  | tensor t => t.nullCount = 0
  | _ => True

theorem Fault.SameButTarget.refl (e : Fault) : e.SameButTarget e := by
  cases e <;> simp [SameButTarget]

theorem Fault.SameButTarget.symm {e e' : Fault} (h : e.SameButTarget e') : e'.SameButTarget e := by
  unfold SameButTarget at h ⊢
  split at h
  · exact h.symm
  · next hne =>
    subst h
    split
    · rfl
    · rfl

/-! ## Values that spell out a dense array -/

/-- Every backend takes the value for the same array. -/
def Value.Spells (v : Value) (a : DenseArray) : Prop :=
  v.toDense = .ok a ∧ v.toTensor = .ok (.ofDense a)

/-- No backend takes the value, for the same cause. -/
def Value.Refused (v : Value) : Prop :=
  ∃ e e', v.toDense = .error e ∧ v.toTensor = .error e' ∧ e.SameButTarget e'

/-- A dense array in a backend's representation. -/
def Backend.embed : Backend → DenseArray → Value
  | host, a => .dense a
  | arrow, a => .tensor (.ofDense a)

/-- What a conversion makes of a dense array. -/
def Conversion.onDense (c : Conversion) (a : DenseArray) : Except Fault DenseArray :=
  match c with
  | toNative => .ok a
  | convertType target => (a.cast target).result
  | convertShape axes => (a.reshape axes).result

theorem Tensor.result_cast_ofDense (a : DenseArray) (target : DeclaredType) :
    ((ofDense a).cast target).result = (a.cast target).result.map ofDense := by
  rcases target with _ | t
  · simp
  · rw [result_cast_of, DenseArray.result_cast_of, castTo_ofDense, map_ok]

theorem Tensor.result_reshape_ofDense (a : DenseArray) (axes : List Axis) :
    ((ofDense a).reshape axes).result = (a.reshape axes).result.map ofDense := by
  rw [result_reshape, DenseArray.result_reshape]
  show (a.shape.resolve axes).map _ = _
  cases a.shape.resolve axes <;> rfl

variable {v w : Value} {a : DenseArray}

/-- The backend of a step decides on the representation of its result, and on nothing else. -/
theorem Conversion.apply_of_spells (h : v.Spells a) (c : Conversion) (b : Backend) :
    c.apply b v = (c.onDense a).map b.embed := by
  obtain ⟨hd, ht⟩ := h
  rcases b with _ | _ <;> rcases c with _ | target | axes
  · simp [apply, onDense, Backend.toNative, hd, Backend.embed]
  · simp only [apply, onDense, Backend.result_convertType_host, hd, bind_ok]
    rfl
  · simp only [apply, onDense, Backend.result_convertShape_host, hd, bind_ok]
    rfl
  · simp [apply, onDense, Backend.toNative, ht, Backend.embed]
  · simp only [apply, onDense, Backend.result_convertType_arrow, ht, bind_ok,
      Tensor.result_cast_ofDense]
    cases (a.cast target).result <;> rfl
  · simp only [apply, onDense, Backend.result_convertShape_arrow, ht, bind_ok,
      Tensor.result_reshape_ofDense]
    cases (a.reshape axes).result <;> rfl

theorem Conversion.apply_of_refused (h : v.Refused) (c : Conversion) (b b' : Backend) :
    ∃ e e', c.apply b v = .error e ∧ c.apply b' v = .error e' ∧ e.SameButTarget e' := by
  obtain ⟨e, e', hd, ht, he⟩ := h
  have hfail : ∀ b : Backend, c.apply b v = .error (if b = .host then e else e') := by
    intro b
    rcases b with _ | _ <;> rcases c with _ | target | axes <;>
      simp [apply, Backend.toNative, hd, ht]
  refine ⟨_, _, hfail b, hfail b', ?_⟩
  rcases b with _ | _ <;> rcases b' with _ | _
  · exact .refl e
  · exact he
  · exact he.symm
  · exact .refl e'

theorem Backend.spells_embed (ha : a.Counted) (b : Backend) : (b.embed a).Spells a := by
  rcases b with _ | _
  · exact ⟨rfl, rfl⟩
  · exact ⟨Tensor.toDense_eq_ok.mpr ⟨rfl, ha⟩, rfl⟩

theorem Backend.sameArray_embed (a : DenseArray) (b b' : Backend) :
    (b.embed a).SameArray (b'.embed a) := by
  refine ⟨a.shape, a.buffer.type, a.buffer.words.map some, ?_⟩
  rcases b with _ | _ <;> rcases b' with _ | _ <;> exact ⟨rfl, rfl, rfl, rfl, rfl, rfl⟩

theorem Conversion.counted_onDense {c : Conversion} {a' : DenseArray} (ha : a.Counted)
    (h : c.onDense a = .ok a') : a'.Counted := by
  rcases c with _ | target | axes
  · exact Except.ok.inj h ▸ ha
  · exact ha.cast h
  · exact ha.reshape h

/-- A value without nulls is an array to both backends, or to none. -/
theorem Value.spells_or_refused (hv : v.Counted) (hn : v.NullFree) :
    (∃ a, a.Counted ∧ v.Spells a) ∨ v.Refused := by
  rcases v with d | t | n | b | s | i | items
  · exact Or.inl ⟨d, hv, rfl, rfl⟩
  · cases hd : t.toDense with
    | ok a =>
      obtain ⟨rfl, ha⟩ := Tensor.toDense_eq_ok.mp hd
      exact Or.inl ⟨a, ha, hd, rfl⟩
    | error e =>
      have hpos := (Tensor.Counted.toDense_eq_error hv hd).1
      exact absurd hn (Nat.ne_of_gt hpos)
  · cases hd : n.toDense with
    | ok a =>
      refine Or.inl ⟨a, Nested.counted_of_toDense hv hd, hd, ?_⟩
      simp [toTensor, hd]
    | error e =>
      refine Or.inr ⟨e, e, hd, ?_, .refl e⟩
      simp [toTensor, hd]
  all_goals exact Or.inr ⟨_, _, rfl, rfl, rfl⟩

/-! ## Simulation -/

/-- The current values of two runs: they spell out one array, or are one value that is refused. -/
def Alike (v w : Value) : Prop :=
  (∃ a, a.Counted ∧ v.Spells a ∧ w.Spells a) ∨ (v = w ∧ v.Refused)

/-- **One step.** -/
theorem Alike.apply (h : Alike v w) (c : Conversion) (b b' : Backend) :
    (∃ v' w', c.apply b v = .ok v' ∧ c.apply b' w = .ok w' ∧ v'.SameArray w' ∧ Alike v' w') ∨
    (∃ e e', c.apply b v = .error e ∧ c.apply b' w = .error e' ∧ e.SameButTarget e') := by
  rcases h with ⟨a, ha, hv, hw⟩ | ⟨rfl, hr⟩
  · rw [Conversion.apply_of_spells hv, Conversion.apply_of_spells hw]
    cases hc : c.onDense a with
    | ok a' =>
      have ha' := Conversion.counted_onDense ha hc
      exact Or.inl ⟨_, _, rfl, rfl, Backend.sameArray_embed a' b b',
        Or.inl ⟨a', ha', Backend.spells_embed ha' b, Backend.spells_embed ha' b'⟩⟩
    | error e => exact Or.inr ⟨e, e, rfl, rfl, .refl e⟩
  · exact Or.inr (Conversion.apply_of_refused hr c b b')

/-- **A whole run.** -/
theorem Alike.outcomes (h : Alike v w) (steps : List (Conversion × Backend × Backend)) :
    List.Forall₂ Agree (outcomes v (steps.map fun (c, b, _) => (c, b)))
      (ArrayContract.outcomes w (steps.map fun (c, _, b) => (c, b))) := by
  induction steps generalizing v w with
  | nil => exact .nil
  | cons step steps ih =>
    obtain ⟨c, b, b'⟩ := step
    rw [List.map_cons, List.map_cons, ArrayContract.outcomes, ArrayContract.outcomes]
    rcases h.apply c b b' with ⟨v', w', hv, hw, hsame, halike⟩ | ⟨e, e', hv, hw, he⟩
    · rw [hv, hw]
      exact .cons hsame (ih halike)
    · rw [hv, hw]
      exact .cons he (ih h)

/-- **The backends simulate each other.** In two runs of the same conversions on a value without
nulls, the backend of each step chosen freely in each, the steps succeed and fail together, with the
same array or with the same fault up to the target it names. So a dense array survives the way over
a tensor, and a tensor the way over a dense array. That the value counts its elements is true of
whatever an operation gives, and of every nested sequence that is not too large. -/
theorem backends_simulate (hv : v.Counted) (hn : v.NullFree)
    (steps : List (Conversion × Backend × Backend)) :
    List.Forall₂ Agree (outcomes v (steps.map fun (c, b, _) => (c, b)))
      (outcomes v (steps.map fun (c, _, b) => (c, b))) ∧
    (∀ a, v = .dense a → (Backend.arrow.toNative v).bind Backend.host.toNative = .ok v) ∧
    (∀ t, v = .tensor t → (Backend.host.toNative v).bind Backend.arrow.toNative = .ok v) := by
  have hsr := Value.spells_or_refused hv hn
  refine ⟨Alike.outcomes (hsr.imp (fun ⟨a, ha, hs⟩ => ⟨a, ha, hs, hs⟩) fun hr => ⟨rfl, hr⟩) steps,
    ?_, ?_⟩
  · rintro a rfl
    have ha : (Tensor.ofDense a).toDense = .ok a := Tensor.toDense_eq_ok.mpr ⟨rfl, hv⟩
    simp [Backend.toNative, Value.toTensor, Value.toDense, ha]
  · rintro t rfl
    rcases hsr with ⟨a, -, hd, ht⟩ | ⟨e, e', -, ht, -⟩
    · obtain rfl := Except.ok.inj ht
      simp [Backend.toNative, hd, Value.toTensor]
    · exact nomatch ht

/-- A run with a type that is no type to cast to and a shape that does not fit. -/
theorem backends_simulate_refusals :
    let v : Value := .nested (.list [.list [.int 1, .int 2], .list [.int 3, .int 400]])
    let steps : List (Conversion × Backend × Backend) :=
      [(.convertType .any, .host, .arrow), (.convertShape [.any], .arrow, .host),
        (.convertType (.of .int8), .host, .arrow), (.convertShape [.fixed 3, .any], .host, .arrow),
        (.toNative, .arrow, .host)]
    v.Counted ∧ v.NullFree ∧
      List.Forall₂ Agree (outcomes v (steps.map fun (c, b, _) => (c, b)))
        (outcomes v (steps.map fun (c, _, b) => (c, b))) := by
  intro v steps
  have hv : v.Counted := show Nested.nodes _ < countBound by decide
  have hn : v.NullFree := trivial
  exact ⟨hv, hn, (backends_simulate hv hn steps).1⟩

end ArrayContract
