import ArrayContract.Proofs.Element.Arrays
import Mathlib.Algebra.Order.Ring.Int
import Mathlib.Data.Int.ModEq

/-! # Casts between integers

The integers of `w` bits are one system of residues modulo `2 ^ w`: every integer is congruent to
exactly one of them, which `Represents` names without a word. A cast between integers takes each
element to the one that represents it (`cast_wraps`). So what a cast loses is lost for good, but
nothing more is: of two casts in a row the first makes no difference unless it goes below the width
both of where it comes from and of where the second goes (`cast_cast`). Arrays of either backend are
cast element by element, nulls apart, and `integer_casts` says the same of them. -/

namespace ArrayContract

open Outcome

/-! ## Residues -/

/-- An integer of `w` bits stands for another: they are congruent modulo `2 ^ w`. -/
structure Represents (w : Nat) (x y : Int) : Prop where
  low : -2 ^ (w - 1) ≤ y
  high : y < 2 ^ (w - 1)
  congruent : y ≡ x [ZMOD 2 ^ w]

theorem represents_iff {w : Nat} (hw : 0 < w) {x y : Int} :
    Represents w x y ↔ y = x.bmod (2 ^ w) := by
  obtain ⟨v, rfl⟩ : ∃ v, w = v + 1 := ⟨w - 1, by omega⟩
  have hpow : (((2 : Nat) ^ (v + 1) : Nat) : Int) = 2 ^ v * 2 := by
    push_cast
    exact Int.pow_succ 2 v
  have hhalf : (2 ^ v * 2 + 1) / 2 = (2 : Int) ^ v := by omega
  rw [eq_comm, Int.bmod_eq_iff (Nat.two_pow_pos _), hpow, hhalf, Int.mul_ediv_cancel _ two_ne_zero]
  constructor
  · intro h
    refine ⟨h.low, h.high, ?_⟩
    have hd := Int.modEq_iff_dvd.mp h.congruent.symm
    rwa [Int.pow_succ] at hd
  · rintro ⟨hlow, hhigh, hd⟩
    refine ⟨hlow, hhigh, (Int.modEq_iff_dvd.mpr ?_).symm⟩
    rwa [Int.pow_succ]

namespace ElementType

variable {s t u : ElementType}

theorem width_pos (t : ElementType) : 0 < t.width := by
  cases t <;> decide

/-- Integers of a narrower type represent themselves. -/
theorem represents_toInt (h : s.width ≤ t.width) (x : s.Word) :
    Represents t.width x.toInt x.toInt := by
  have hpow : (2 : Int) ^ (s.width - 1) ≤ 2 ^ (t.width - 1) :=
    pow_le_pow_right₀ (by decide) (Nat.sub_le_sub_right h 1)
  have hlow := x.le_toInt
  have hhigh := x.toInt_lt
  exact ⟨by omega, by omega, Int.ModEq.refl _⟩

/-! ## One element -/

/-- An element is the only one of its type that represents an element of another type. -/
def Wraps (s t : ElementType) (x : s.Word) (y : t.Word) : Prop :=
  ∀ n : Int, Represents t.width x.toInt n ↔ n = y.toInt

theorem format?_eq_none (h : t.isFloat = false) : t.format? = none :=
  Option.not_isSome_iff_eq_none.mp (Bool.eq_false_iff.mp h)

theorem toInt_cast (hs : s.isFloat = false) (ht : t.isFloat = false) (x : s.Word) :
    (s.cast t x).toInt = x.toInt.bmod (2 ^ t.width) := by
  unfold cast
  rw [format?_eq_none hs, format?_eq_none ht]
  exact BitVec.toInt_ofInt _

/-- **A cast between integers wraps.** -/
theorem cast_wraps (hs : s.isFloat = false) (ht : t.isFloat = false) (x : s.Word) :
    Wraps s t x (s.cast t x) := by
  intro n
  rw [represents_iff t.width_pos, toInt_cast hs ht]

/-- **Two casts in a row.** -/
theorem cast_cast (hs : s.isFloat = false) (ht : t.isFloat = false) (hu : u.isFloat = false)
    (h : min s.width u.width ≤ t.width) (x : s.Word) : t.cast u (s.cast t x) = s.cast u x := by
  refine BitVec.eq_of_toInt_eq ?_
  rw [toInt_cast ht hu, toInt_cast hs ht, toInt_cast hs hu]
  rcases min_le_iff.mp h with hst | hut
  · -- the first cast keeps the integer
    rw [← (represents_iff t.width_pos).mp (represents_toInt hst x)]
  · -- the second cast keeps no more bits than the first
    exact Int.bmod_bmod_of_dvd (Nat.pow_dvd_pow 2 hut)

theorem cast_comp_cast (hs : s.isFloat = false) (ht : t.isFloat = false) (hu : u.isFloat = false)
    (h : min s.width u.width ≤ t.width) : t.cast u ∘ s.cast t = s.cast u :=
  funext (cast_cast hs ht hu h)

end ElementType

/-! ## Arrays -/

section Arrays

variable {s t u : ElementType}

theorem DenseArray.cast_wraps (hs : s.isFloat = false) (ht : t.isFloat = false) {a : DenseArray}
    (ha : a.type = s) : ∃ (words : List s.Word) (words' : List t.Word),
      a = ⟨a.shape, s, words⟩ ∧ (a.cast (.of t)).result = .ok ⟨a.shape, t, words'⟩ ∧
      List.Forall₂ (ElementType.Wraps s t) words words' := by
  obtain ⟨b, hb, words, words', hwords, rfl, hwraps⟩ :=
    placeByPlace_cast (ElementType.cast_wraps hs ht) ha
  exact ⟨words, words', hwords, hb, hwraps⟩

theorem Tensor.cast_wraps (hs : s.isFloat = false) (ht : t.isFloat = false) {a : Tensor}
    (ha : a.type = .of s) : ∃ (cells : List (Option s.Word)) (cells' : List (Option t.Word)),
      a = .ofCells a.shape s cells ∧ (a.cast (.of t)).result = .ok (.ofCells a.shape t cells') ∧
      List.Forall₂ (Option.Rel (ElementType.Wraps s t)) cells cells' := by
  obtain ⟨b, hb, cells, cells', hcells, rfl, hwraps⟩ :=
    placeByPlace_cast (ElementType.cast_wraps hs ht) ha
  exact ⟨cells, cells', hcells, hb, hwraps⟩

theorem DenseArray.cast_cast (hs : s.isFloat = false) (ht : t.isFloat = false)
    (hu : u.isFloat = false) (h : min s.width u.width ≤ t.width) {a : DenseArray}
    (ha : a.type = s) :
    ((a.cast (.of t)).result.bind fun b => (b.cast (.of u)).result) = (a.cast (.of u)).result := by
  obtain ⟨shape, type, words⟩ := a
  obtain rfl : type = s := ha
  rw [result_cast_of, bind_ok, result_cast_of, result_cast_of]
  simp only [Buffer.castTo, List.map_map, ElementType.cast_comp_cast hs ht hu h]

theorem Tensor.cast_cast (hs : s.isFloat = false) (ht : t.isFloat = false)
    (hu : u.isFloat = false) (h : min s.width u.width ≤ t.width) {a : Tensor}
    (ha : a.type = .of s) :
    ((a.cast (.of t)).result.bind fun b => (b.cast (.of u)).result) = (a.cast (.of u)).result := by
  obtain ⟨shape, type, cells, rfl⟩ := a.exists_eq_ofCells
  obtain rfl := DeclaredType.of.inj ha
  rw [result_cast_of, bind_ok, result_cast_of, result_cast_of]
  simp only [castTo_ofCells, List.map_map, Option.map_comp_map,
    ElementType.cast_comp_cast hs ht hu h]

/-- A dense array is cast as its buffer is, also to its own type. -/
theorem DenseArray.cast_eq_buffer_cast (a : DenseArray) (t : ElementType) :
    (a.cast (.of t)).result = (a.buffer.cast (.of t)).map (⟨a.shape, ·⟩) :=
  result_cast_of a t

/-- The cells of a tensor that are not null are cast as a buffer of them is, also to their own
type. -/
theorem Tensor.cast_eq_buffer_cast {a : Tensor} (ha : a.type = .of s) (t : ElementType) :
    ∃ (cells : List (Option s.Word)) (cells' : List (Option t.Word)),
      a = .ofCells a.shape s cells ∧ (a.cast (.of t)).result = .ok (.ofCells a.shape t cells') ∧
      cells'.map Option.isSome = cells.map Option.isSome ∧
      Buffer.cast ⟨s, cells.filterMap id⟩ (.of t) = .ok ⟨t, cells'.filterMap id⟩ := by
  obtain ⟨shape, type, cells, rfl⟩ := a.exists_eq_ofCells
  obtain rfl := DeclaredType.of.inj ha
  refine ⟨cells, cells.map (Option.map (type.cast t)), rfl, result_cast_of _ t, ?_, ?_⟩
  · rw [List.map_map]
    exact List.map_congr_left fun c _ => Option.isSome_map
  · simp only [Buffer.cast, Buffer.castTo, List.map_filterMap, List.filterMap_map]
    rfl

end Arrays

/-- **Casts between integers.** An array of integers is cast to an array of the same shape in which
each element is the only one of its type that represents the one at its place, and nulls are where
they were. A second cast gives what it would give at once if the first does not go below both of the
widths it stands between; so an array that is widened and cast back is as it was. A cast to the type
that an array has, which is left out, would have changed no element; this holds of any type. -/
theorem integer_casts {s t u : ElementType} (hs : s.isFloat = false) (ht : t.isFloat = false)
    (hu : u.isFloat = false) :
    ((∀ a : DenseArray, a.type = s → ∃ (words : List s.Word) (words' : List t.Word),
        a = ⟨a.shape, s, words⟩ ∧ (a.cast (.of t)).result = .ok ⟨a.shape, t, words'⟩ ∧
        List.Forall₂ (ElementType.Wraps s t) words words') ∧
      ∀ a : Tensor, a.type = .of s →
        ∃ (cells : List (Option s.Word)) (cells' : List (Option t.Word)),
        a = .ofCells a.shape s cells ∧ (a.cast (.of t)).result = .ok (.ofCells a.shape t cells') ∧
        List.Forall₂ (Option.Rel (ElementType.Wraps s t)) cells cells') ∧
    (min s.width u.width ≤ t.width →
      (∀ a : DenseArray, a.type = s →
        ((a.cast (.of t)).result.bind fun b => (b.cast (.of u)).result) =
          (a.cast (.of u)).result) ∧
      ∀ a : Tensor, a.type = .of s →
        ((a.cast (.of t)).result.bind fun b => (b.cast (.of u)).result) =
          (a.cast (.of u)).result) ∧
    (s.width ≤ t.width →
      (∀ a : DenseArray, a.type = s →
        ((a.cast (.of t)).result.bind fun b => (b.cast (.of s)).result) = .ok a) ∧
      ∀ a : Tensor, a.type = .of s →
        ((a.cast (.of t)).result.bind fun b => (b.cast (.of s)).result) = .ok a) ∧
    (∀ a : DenseArray,
      (a.cast (.of a.type)).result = (a.buffer.cast (.of a.type)).map (⟨a.shape, ·⟩)) ∧
    ∀ (a : Tensor) (type : ElementType), a.type = .of type →
      ∃ cells cells' : List (Option type.Word), a = .ofCells a.shape type cells ∧
        (a.cast (.of type)).result = .ok (.ofCells a.shape type cells') ∧
        cells'.map Option.isSome = cells.map Option.isSome ∧
        Buffer.cast ⟨type, cells.filterMap id⟩ (.of type) = .ok ⟨type, cells'.filterMap id⟩ := by
  refine ⟨⟨fun a => DenseArray.cast_wraps hs ht, fun a => Tensor.cast_wraps hs ht⟩,
    fun h => ⟨fun a => DenseArray.cast_cast hs ht hu h, fun a => Tensor.cast_cast hs ht hu h⟩,
    fun h => ?_, fun a => a.cast_eq_buffer_cast a.type,
    fun a type ha => Tensor.cast_eq_buffer_cast ha type⟩
  have hback : min s.width s.width ≤ t.width := (min_le_left _ _).trans h
  refine ⟨fun a ha => ?_, fun a ha => ?_⟩
  · rw [DenseArray.cast_cast hs ht hs hback ha, DenseArray.cast, if_pos (congrArg _ ha.symm),
      Audit.result_pure]
  · rw [Tensor.cast_cast hs ht hs hback ha, Tensor.cast, if_pos ha, Audit.result_pure]

/-- Integers of 64 bits cut to 8 bits by way of 16 bits, which comes to the same as at once; the
first of them is in no other 16 bits than those of 4464. -/
theorem integer_casts_narrowed :
    let a : Tensor := .ofCells [3] .int64 [some 70000, none, some (-32769)]
    let b : Tensor := .ofCells [3] .int16 [some 4464, none, some 32767]
    let c : Tensor := .ofCells [3] .int8 [some 112, none, some (-1)]
    (a.cast (.of .int16)).result = .ok b ∧ (b.cast (.of .int8)).result = .ok c ∧
      (a.cast (.of .int8)).result = .ok c ∧ ∀ n : Int, Represents 16 70000 n ↔ n = 4464 := by
  intro a b c
  obtain ⟨⟨-, wraps⟩, compose, -⟩ := @integer_casts .int64 .int16 .int8 rfl rfl rfl
  have hab : (a.cast (.of .int16)).result = .ok b := rfl
  have hbc : (b.cast (.of .int8)).result = .ok c := rfl
  have hac : (a.cast (.of .int8)).result = .ok c := by
    rw [← (compose (by decide)).2 a rfl, hab]
    exact hbc
  obtain ⟨cells, cells', ha, hb, hw⟩ := wraps a rfl
  have hcells : [some 70000, none, some (-32769)] = cells :=
    eq_of_heq (Column.mk.inj (congrArg Tensor.column ha)).2
  have hcells' : [some 4464, none, some 32767] = cells' :=
    eq_of_heq (Column.mk.inj (congrArg Tensor.column (Except.ok.inj (hab.symm.trans hb)))).2
  subst hcells hcells'
  rcases hw with _ | ⟨⟨hfirst⟩, -⟩
  exact ⟨hab, hbc, hac, hfirst⟩

end ArrayContract
