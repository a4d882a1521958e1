import ArrayContract.Nested.Rectangle
import ArrayContract.Proofs.Binary.Nearest
import ArrayContract.Proofs.Shape.Count
import Mathlib.Algebra.BigOperators.Group.List.Lemmas
import Mathlib.Algebra.Group.Action.Defs
import Mathlib.Algebra.Order.Ring.Nat
import Mathlib.Data.List.Forall2

/-! # Rectangular sequences

`Rectangular v s` says without any scan that the nested sequence `v` has shape `s`, `numbers` are
its numbers from left to right, and `nodes` counts its numbers and lists.

* `toDense_eq_ok`: an array spelled out by a nested sequence has the shape and the numbers of the
  sequence. The chain of first items gives a shape whose only zero is the last axis (`Tight`), and
  on such a shape `leaves` accepts nothing but rectangles.
* `eq_bufferOf_iff`: the buffer holds the numbers as integers if there are some and all are, and
  else in double precision, where the word of an integer is the nearest one
  (`Leaf.isNearest_nearest`).
* `count?_of_rectangular`: the shape of a rectangular sequence counts its numbers, unless the
  sequence itself is too large; each product of leading axes is a number of nodes at one depth. -/

namespace ArrayContract.Nested

open Outcome

mutual

/-- The numbers of a nested sequence, from left to right. -/
def numbers : Nested → List Leaf
  | int v => [.int v]
  | float v => [.float v]
  | list items => numbersOf items

/-- The numbers of several nested sequences, one after the other. -/
def numbersOf : List Nested → List Leaf
  | [] => []
  | v :: vs => numbers v ++ numbersOf vs

end

mutual

/-- The number of numbers and lists. -/
def nodes : Nested → Nat
  | int _ => 1
  | float _ => 1
  | list items => nodesOf items + 1

/-- The number of numbers and lists in several nested sequences. -/
def nodesOf : List Nested → Nat
  | [] => 0
  | v :: vs => nodes v + nodesOf vs

end

/-- A nested sequence has a shape: a number has no axes, the empty list has one, and in any other
list the items agree. -/
inductive Rectangular : Nested → Shape → Prop
  | int (value : ElementType.int64.Word) : Rectangular (int value) []
  | float (value : ElementType.float64.Word) : Rectangular (float value) []
  | empty : Rectangular (list []) [0]
  | list {items : List Nested} {s : Shape} (nonempty : items ≠ [])
      (agree : ∀ v ∈ items, Rectangular v s) : Rectangular (list items) (items.length :: s)

theorem numbersOf_eq_flatMap : ∀ items : List Nested, numbersOf items = items.flatMap numbers
  | [] => rfl
  | v :: vs => by rw [numbersOf, numbersOf_eq_flatMap vs, List.flatMap_cons]

theorem nodesOf_eq_sum : ∀ items : List Nested, nodesOf items = (items.map nodes).sum
  | [] => rfl
  | v :: vs => by rw [nodesOf, nodesOf_eq_sum vs, List.map_cons, List.sum_cons]

theorem one_le_nodes (v : Nested) : 1 ≤ v.nodes := by
  cases v <;> simp [nodes]

/-! ## Collecting the numbers -/

theorem mapM_eq_ok {ε α β : Type} {f : α → Except ε β} {xs : List α} {ys : List β} :
    xs.mapM f = .ok ys ↔ List.Forall₂ (fun x y => f x = .ok y) xs ys := by
  induction xs generalizing ys with
  | nil =>
    rw [List.mapM_nil, List.forall₂_nil_left_iff]
    exact ⟨fun h => (Except.ok.inj h).symm, fun h => h ▸ rfl⟩
  | cons x xs ih =>
    rw [List.mapM_cons]
    show (f x).bind (fun y => (xs.mapM f).bind fun ys => .ok (y :: ys)) = .ok ys ↔ _
    simp only [bind_eq_ok, List.forall₂_cons_left_iff, ih]
    constructor
    · rintro ⟨y, hy, zs, hzs, ⟨⟩⟩
      exact ⟨y, zs, hy, hzs, rfl⟩
    · rintro ⟨y, zs, hy, hzs, rfl⟩
      exact ⟨y, hy, zs, hzs, rfl⟩

theorem leaves_list_eq_ok {d n : Nat} {s : Shape} {items : List Nested} {ls : List Leaf} :
    leaves d (n :: s) (list items) = .ok ls ↔ items.length = n ∧
      ∃ lss, List.Forall₂ (fun v ls => leaves (d + 1) s v = .ok ls) items lss ∧
        lss.flatten = ls := by
  rw [leaves]
  split
  · next h => simp [h, map_eq_ok, mapM_eq_ok]
  · next h => simp [h]

/-- Whatever the shape, the numbers collected are those of the sequence. -/
theorem numbers_of_leaves {s : Shape} {d : Nat} {v : Nested} {ls : List Leaf}
    (h : leaves d s v = .ok ls) : ls = v.numbers := by
  induction s generalizing d v ls with
  | nil => rcases v with v | v | items <;> cases h <;> rfl
  | cons n s ih =>
    rcases v with v | v | items
    · exact nomatch h
    · exact nomatch h
    · obtain ⟨-, lss, hlss, rfl⟩ := leaves_list_eq_ok.mp h
      rw [numbers, numbersOf_eq_flatMap]
      clear h
      induction hlss with
      | nil => rfl
      | cons hx _ ih' => rw [List.flatten_cons, List.flatMap_cons, ih', ih hx]

/-- Only the last axis may be empty. -/
def Tight : Shape → Prop
  | [] => True
  | 0 :: s => s = []
  | (_ + 1) :: s => Tight s

theorem tight_of_spine? {limit : Nat} {v : Nested} {s : Shape} (h : v.spine? limit = some s) :
    Tight s := by
  induction limit generalizing v s with
  | zero => rcases v with v | v | items <;> cases h <;> trivial
  | succ limit ih =>
    rcases v with v | v | _ | ⟨first, rest⟩
    · obtain rfl := Option.some.inj h
      trivial
    · obtain rfl := Option.some.inj h
      trivial
    · obtain rfl := Option.some.inj h
      rfl
    · obtain ⟨s', hs', rfl⟩ := Option.map_eq_some_iff.mp h
      show Tight s'
      exact ih hs'

theorem exists_of_forall₂ {α β : Type} {R : α → β → Prop} {xs : List α} {ys : List β}
    (h : List.Forall₂ R xs ys) {x : α} (hx : x ∈ xs) : ∃ y, R x y := by
  induction h with
  | nil => exact absurd hx List.not_mem_nil
  | cons h _ ih =>
    rcases List.mem_cons.mp hx with rfl | hx
    · exact ⟨_, h⟩
    · exact ih hx

/-- On a tight shape only rectangles are accepted. -/
theorem rectangular_of_leaves {s : Shape} {d : Nat} {v : Nested} {ls : List Leaf} (hs : Tight s)
    (h : leaves d s v = .ok ls) : v.Rectangular s := by
  induction s generalizing d v ls with
  | nil =>
    rcases v with v | v | items
    · exact .int v
    · exact .float v
    · exact nomatch h
  | cons n s ih =>
    rcases v with v | v | items
    · exact nomatch h
    · exact nomatch h
    · obtain ⟨rfl, lss, hlss, -⟩ := leaves_list_eq_ok.mp h
      rcases items with _ | ⟨first, rest⟩
      · obtain rfl : s = [] := hs
        exact .empty
      · refine .list (List.cons_ne_nil _ _) fun v hv => ?_
        obtain ⟨l, hl⟩ := exists_of_forall₂ hlss hv
        exact ih hs hl

/-- **The array of a nested sequence** has its shape and its numbers. -/
theorem toDense_eq_ok {v : Nested} {a : DenseArray} (h : v.toDense = .ok a) :
    v.Rectangular a.shape ∧ a.buffer = bufferOf v.numbers := by
  unfold toDense at h
  split at h
  · exact nomatch h
  · next s ls hr =>
    obtain rfl := Except.ok.inj h
    unfold rectangle at hr
    split at hr
    · exact nomatch hr
    · next s' hs =>
      obtain ⟨ls', hls, ⟨⟩⟩ := map_eq_ok.mp hr
      exact ⟨rectangular_of_leaves (tight_of_spine? hs) hls,
        congrArg bufferOf (numbers_of_leaves hls)⟩

/-! ## The buffer -/

namespace Leaf

/-- A leaf in double precision: an integer is cast, and a floating-point number has this precision
already. -/
def nearest : Leaf → ElementType.float64.Word
  | int v => ElementType.int64.cast .float64 v
  | float v => v

/-- The words of double precision that a leaf may become: a floating-point number no other one, and
an integer a nearest one. -/
inductive IsNearest : Leaf → ElementType.float64.Word → Prop
  | int {v : ElementType.int64.Word} {word : ElementType.float64.Word}
      (closest : Binary.binary64.IsNearest v.toInt word.toNat) : IsNearest (int v) word
  | float (v : ElementType.float64.Word) : IsNearest (float v) v

theorem toFloat_eq_nearest : toFloat = nearest := by
  funext l
  cases l <;> rfl

/-- **An integer becomes the nearest number** of double precision. -/
theorem isNearest_nearest (l : Leaf) : l.IsNearest l.nearest := by
  cases l with
  | int v =>
    have hbound : v.toInt.natAbs < 2 ^ Binary.binary64.bias := by
      have hle : (2 : Nat) ^ 64 ≤ 2 ^ Binary.binary64.bias :=
        Nat.pow_le_pow_right (by decide) (by decide)
      have hlow : -2 ^ 63 ≤ v.toInt := v.le_toInt
      have hhigh : v.toInt < 2 ^ 63 := v.toInt_lt
      omega
    obtain ⟨hlt, hnear⟩ := Binary.Format.ample_binary64.isNearest_ofInt (by decide) hbound
    refine .int ?_
    show Binary.binary64.IsNearest v.toInt (Binary.binary64.ofInt v.toInt % 2 ^ 64)
    rwa [Nat.mod_eq_of_lt (show Binary.binary64.ofInt v.toInt < 2 ^ 64 from hlt)]
  | float v => exact .float v

end Leaf

theorem map_int_filterMap {ls : List Leaf} (h : ∀ l ∈ ls, l.isInt = true) :
    (ls.filterMap Leaf.int?).map .int = ls := by
  induction ls with
  | nil => rfl
  | cons l ls ih =>
    have hl : l.isInt = true := h l (List.mem_cons_self ..)
    rcases l with v | v
    · rw [List.filterMap_cons_some (show Leaf.int? (.int v) = some v from rfl), List.map_cons,
        ih fun l hl => h l (List.mem_cons_of_mem _ hl)]
    · exact nomatch hl

theorem filterMap_map_int (ints : List ElementType.int64.Word) :
    (ints.map Leaf.int).filterMap Leaf.int? = ints := by
  rw [List.filterMap_map]
  exact List.filterMap_some

/-- **The buffer of numbers** holds them unchanged if there are some and all are integers, and else
each in double precision. -/
theorem eq_bufferOf_iff {ls : List Leaf} {b : Buffer} :
    b = bufferOf ls ↔
      (∃ ints, ints ≠ [] ∧ ls = ints.map .int ∧ b = ⟨.int64, ints⟩) ∨
      ((ls = [] ∨ ∃ l ∈ ls, l.isInt = false) ∧ b = ⟨.float64, ls.map Leaf.nearest⟩) := by
  rw [bufferOf, Leaf.toFloat_eq_nearest]
  by_cases h : ls ≠ [] ∧ ls.all Leaf.isInt
  · have hall : ∀ l ∈ ls, l.isInt = true := List.all_eq_true.mp h.2
    have hmap := map_int_filterMap hall
    rw [if_pos h]
    constructor
    · rintro rfl
      refine Or.inl ⟨_, fun he => h.1 ?_, hmap.symm, rfl⟩
      rw [← hmap, he]
      rfl
    · rintro (⟨ints, -, rfl, rfl⟩ | ⟨hf | ⟨l, hl, hf⟩, -⟩)
      · rw [filterMap_map_int]
      · exact absurd hf h.1
      · exact nomatch hf.symm.trans (hall l hl)
  · rw [if_neg h]
    have hf : ls = [] ∨ ∃ l ∈ ls, l.isInt = false := by
      by_contra hn
      obtain ⟨h0, h1⟩ := not_or.mp hn
      refine h ⟨h0, List.all_eq_true.mpr fun l hl => ?_⟩
      by_contra hl'
      exact h1 ⟨l, hl, by simpa using hl'⟩
    constructor
    · rintro rfl
      exact Or.inr ⟨hf, rfl⟩
    · rintro (⟨ints, hne, rfl, rfl⟩ | ⟨-, rfl⟩)
      · refine absurd ⟨fun he => hne (List.map_eq_nil_iff.mp he), List.all_eq_true.mpr ?_⟩ h
        intro l hl
        obtain ⟨v, -, rfl⟩ := List.mem_map.mp hl
        rfl
      · rfl

theorem length_bufferOf (ls : List Leaf) : (bufferOf ls).length = ls.length := by
  rcases eq_bufferOf_iff.mp (rfl : bufferOf ls = bufferOf ls) with ⟨ints, -, rfl, hb⟩ | ⟨-, hb⟩
  · rw [hb]
    exact (List.length_map _).symm
  · rw [hb]
    exact List.length_map _

/-! ## Counting -/

theorem length_numbers {v : Nested} {s : Shape} (h : v.Rectangular s) :
    v.numbers.length = s.prod := by
  induction h with
  | int v => rfl
  | float v => rfl
  | empty => rfl
  | @list items s _ _ ih =>
    rw [numbers, numbersOf_eq_flatMap, List.length_flatMap, List.map_congr_left ih, List.prod_cons]
    simp

/-- The product of leading axes is the number of nodes at one depth. -/
theorem prod_le_nodes {v : Nested} {s p : Shape} (h : v.Rectangular s) (hp : p <+: s) :
    p.prod ≤ v.nodes := by
  induction h generalizing p with
  | int v => rw [List.prefix_nil.mp hp]; exact one_le_nodes _
  | float v => rw [List.prefix_nil.mp hp]; exact one_le_nodes _
  | empty =>
    rcases List.prefix_cons_iff.mp hp with rfl | ⟨q, rfl, -⟩
    · exact one_le_nodes _
    · simp
  | @list items s _ _ ih =>
    rcases List.prefix_cons_iff.mp hp with rfl | ⟨q, rfl, hq⟩
    · exact one_le_nodes _
    · have hle : (items.map nodes).length • q.prod ≤ (items.map nodes).sum := by
        refine List.card_nsmul_le_sum _ _ fun n hn => ?_
        obtain ⟨v, hv, rfl⟩ := List.mem_map.mp hn
        exact ih v hv hq
      rw [List.length_map, smul_eq_mul] at hle
      rw [List.prod_cons, nodes, nodesOf_eq_sum]
      omega

/-- **A rectangular sequence that is not too large can be counted**, and its shape counts its
numbers. -/
theorem count?_of_rectangular {v : Nested} {s : Shape} (h : v.Rectangular s)
    (hv : v.nodes < countBound) : s.count? = some v.numbers.length := by
  rw [Shape.count?_eq_some_iff]
  exact ⟨fun p hp => lt_of_le_of_lt (prod_le_nodes h hp) hv, (length_numbers h).symm⟩

end ArrayContract.Nested
