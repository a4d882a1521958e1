import ArrayContract.Proofs.Nested.Rectangle
import Mathlib.Algebra.BigOperators.Ring.List

/-! # Where the numbers of a sequence are

A path of indices, one for each list from the outside in, leads to a number of a nested sequence
(`number?`). In a rectangular sequence of shape `s` the paths that lead to a number are those within
`s`, and the numbers stand in row-major order: the one at the end of a path has the place
`s.offset path` (`number?_eq_some_iff`). -/

namespace ArrayContract

namespace Shape

/-- The place of a path in row-major order: a step along an axis passes over all elements of the
axes behind it. -/
def offset : Shape → List Nat → Nat
  | _ :: s, i :: path => i * s.prod + offset s path
  | _, _ => 0

/-- A path has one index for each axis, below the length of that axis. -/
def Within (s : Shape) (path : List Nat) : Prop := List.Forall₂ (· < ·) path s

variable {s : Shape} {path : List Nat} {i n : Nat}

@[simp] theorem within_nil : Within [] path ↔ path = [] := List.forall₂_nil_right_iff

@[simp] theorem not_within_cons_nil : ¬ Within (n :: s) [] := nofun

@[simp] theorem within_cons : Within (n :: s) (i :: path) ↔ i < n ∧ Within s path :=
  List.forall₂_cons

/-- A path within a shape leads to one of its places. -/
theorem Within.offset_lt (h : s.Within path) : s.offset path < s.prod := by
  induction h with
  | nil => simp [offset]
  | @cons i n path s hi _ ih =>
    have hle : (i + 1) * s.prod ≤ n * s.prod := Nat.mul_le_mul_right _ hi
    rw [Nat.add_mul, Nat.one_mul] at hle
    rw [offset, List.prod_cons]
    omega

end Shape

namespace Nested

variable {v : Nested} {s : Shape} {path : List Nat} {l : Leaf}

/-- The number at the end of a path. -/
def number? : Nested → List Nat → Option Leaf
  | int v, [] => some (.int v)
  | float v, [] => some (.float v)
  | list items, i :: path => items[i]?.bind (number? · path)
  | _, _ => none

/-- In a row of blocks of one length, the places of a block follow those of the blocks before. -/
theorem getElem?_flatMap_of_length {α β : Type} {f : α → List β} {k : Nat} {xs : List α}
    (hf : ∀ x ∈ xs, (f x).length = k) {i j : Nat} (hj : j < k) :
    (xs.flatMap f)[i * k + j]? = xs[i]?.bind fun x => (f x)[j]? := by
  induction xs generalizing i with
  | nil => simp
  | cons x xs ih =>
    have hx : (f x).length = k := hf x (List.mem_cons_self ..)
    rw [List.flatMap_cons]
    rcases i with _ | i
    · have hlt : 0 * k + j < (f x).length := by omega
      rw [List.getElem?_append_left hlt]
      simp
    · have hstep : (i + 1) * k + j = k + (i * k + j) := by
        rw [Nat.add_mul]
        omega
      rw [hstep, List.getElem?_append_right (by omega), hx, Nat.add_sub_cancel_left,
        ih fun y hy => hf y (List.mem_cons_of_mem x hy)]
      simp

/-- **The number at the end of a path** stands at the place of the path, and a path within the
shape has a number at its end. -/
theorem number?_eq_some_iff (h : v.Rectangular s) :
    v.number? path = some l ↔ s.Within path ∧ v.numbers[s.offset path]? = some l := by
  induction h generalizing path with
  | int v => rcases path with _ | ⟨i, path⟩ <;> simp [number?, numbers, Shape.offset]
  | float v => rcases path with _ | ⟨i, path⟩ <;> simp [number?, numbers, Shape.offset]
  | empty => rcases path with _ | ⟨i, path⟩ <;> simp [number?]
  | @list items s _ agree ih =>
    rcases path with _ | ⟨i, path⟩
    · simp [number?]
    · rw [number?, numbers, numbersOf_eq_flatMap, Shape.within_cons, Shape.offset]
      constructor
      · intro hl
        obtain ⟨v, hv, hl⟩ := Option.bind_eq_some_iff.mp hl
        obtain ⟨hw, hn⟩ := (ih v (List.mem_of_getElem? hv)).mp hl
        obtain ⟨hi, -⟩ := List.getElem?_eq_some_iff.mp hv
        refine ⟨⟨hi, hw⟩, ?_⟩
        rw [getElem?_flatMap_of_length (fun v hv => length_numbers (agree v hv)) hw.offset_lt, hv]
        exact hn
      · rintro ⟨⟨hi, hw⟩, hn⟩
        rw [getElem?_flatMap_of_length (fun v hv => length_numbers (agree v hv)) hw.offset_lt] at hn
        obtain ⟨v, hv, hn⟩ := Option.bind_eq_some_iff.mp hn
        exact Option.bind_eq_some_iff.mpr
          ⟨v, hv, (ih v (List.mem_of_getElem? hv)).mpr ⟨hw, hn⟩⟩

end Nested

end ArrayContract
