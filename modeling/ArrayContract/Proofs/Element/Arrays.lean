import ArrayContract.Tensor
import Mathlib.Data.List.Forall2

/-! # Arrays place by place

Two arrays of one shape are compared element by element (`PlaceByPlace`); where one of two tensors
has a null, the other has one as well. An array and what it is cast to are related as each element
is to its cast, and so are an array and what comes out of two casts in a row. -/

namespace ArrayContract

variable {s t u : ElementType}

/-- Two arrays of one shape whose elements are related at each place. -/
def DenseArray.PlaceByPlace (R : s.Word → t.Word → Prop) (a b : DenseArray) : Prop :=
  ∃ (words : List s.Word) (words' : List t.Word),
    a = ⟨a.shape, s, words⟩ ∧ b = ⟨a.shape, t, words'⟩ ∧ List.Forall₂ R words words'

/-- Two tensors of one shape whose elements are related at each place that is not null, and whose
nulls are at the same places. -/
def Tensor.PlaceByPlace (R : s.Word → t.Word → Prop) (a b : Tensor) : Prop :=
  ∃ (cells : List (Option s.Word)) (cells' : List (Option t.Word)),
    a = .ofCells a.shape s cells ∧ b = .ofCells a.shape t cells' ∧
      List.Forall₂ (Option.Rel R) cells cells'

theorem DenseArray.placeByPlace_map {R : s.Word → t.Word → Prop} {f : s.Word → t.Word}
    (h : ∀ x, R x (f x)) (shape : Shape) (words : List s.Word) :
    PlaceByPlace R ⟨shape, s, words⟩ ⟨shape, t, words.map f⟩ := by
  refine ⟨words, words.map f, rfl, rfl, ?_⟩
  rw [List.forall₂_map_right_iff, List.forall₂_same]
  exact fun x _ => h x

theorem Tensor.placeByPlace_map {R : s.Word → t.Word → Prop} {f : s.Word → t.Word}
    (h : ∀ x, R x (f x)) (shape : Shape) (cells : List (Option s.Word)) :
    PlaceByPlace R (.ofCells shape s cells) (.ofCells shape t (cells.map (Option.map f))) := by
  refine ⟨cells, cells.map (Option.map f), rfl, rfl, ?_⟩
  rw [List.forall₂_map_right_iff, List.forall₂_same]
  rintro (_ | x) -
  · exact .none
  · exact .some (h x)

theorem DenseArray.placeByPlace_cast {R : s.Word → t.Word → Prop} (h : ∀ x, R x (s.cast t x))
    {a : DenseArray} (ha : a.type = s) :
    ∃ b, (a.cast (.of t)).result = .ok b ∧ a.PlaceByPlace R b := by
  obtain ⟨shape, type, words⟩ := a
  obtain rfl : type = s := ha
  exact ⟨_, result_cast_of _ t, placeByPlace_map h shape words⟩

theorem Tensor.placeByPlace_cast {R : s.Word → t.Word → Prop} (h : ∀ x, R x (s.cast t x))
    {a : Tensor} (ha : a.type = .of s) :
    ∃ b, (a.cast (.of t)).result = .ok b ∧ a.PlaceByPlace R b := by
  obtain ⟨shape, type, cells, rfl⟩ := a.exists_eq_ofCells
  obtain rfl := DeclaredType.of.inj ha
  exact ⟨_, result_cast_of _ t, placeByPlace_map h shape cells⟩

theorem DenseArray.placeByPlace_cast_cast {R : s.Word → u.Word → Prop}
    (h : ∀ x, R x (t.cast u (s.cast t x))) {a : DenseArray} (ha : a.type = s) :
    ∃ b c, (a.cast (.of t)).result = .ok b ∧ (b.cast (.of u)).result = .ok c ∧
      a.PlaceByPlace R c := by
  obtain ⟨shape, type, words⟩ := a
  obtain rfl : type = s := ha
  have hp := placeByPlace_map (f := t.cast u ∘ type.cast t) h shape words
  rw [← List.map_map] at hp
  exact ⟨_, _, result_cast_of _ t, result_cast_of _ u, hp⟩

theorem Tensor.placeByPlace_cast_cast {R : s.Word → u.Word → Prop}
    (h : ∀ x, R x (t.cast u (s.cast t x))) {a : Tensor} (ha : a.type = .of s) :
    ∃ b c, (a.cast (.of t)).result = .ok b ∧ (b.cast (.of u)).result = .ok c ∧
      a.PlaceByPlace R c := by
  obtain ⟨shape, type, cells, rfl⟩ := a.exists_eq_ofCells
  obtain rfl := DeclaredType.of.inj ha
  have hp := placeByPlace_map (f := t.cast u ∘ type.cast t) h shape cells
  rw [← Option.map_comp_map, ← List.map_map] at hp
  exact ⟨_, _, result_cast_of _ t, result_cast_of _ u, hp⟩

end ArrayContract
