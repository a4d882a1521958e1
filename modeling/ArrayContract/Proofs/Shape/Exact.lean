import ArrayContract.Proofs.Shape.Count
import ArrayContract.Tensor
import Mathlib.Algebra.BigOperators.Ring.List
import Mathlib.Algebra.Order.Ring.Nat

/-! # When counting is exact

Without a zero among the axes, the products of leading axes stay below the bound as soon as the
product of all does, so that `count?` is exact and the order of the axes does not matter. A zero
makes the product zero, but it must come in time: `Overruns s` says that the axes of `s` have a zero
and that leading ones multiply up to the bound nevertheless. Then `count?` gives up on a shape
without elements (`count?_eq_ite`).

* `counting_exact_iff`: what is accepted as a shape of so many elements is decided by the product,
  but for the shapes that overrun, and the order of the axes matters just where one order overruns
  and the other does not.
* `zero_last_uncountable`: such a shape. -/

namespace ArrayContract.Shape

variable {s s' : Shape} {n : Nat}

/-- A shape has no elements, and yet leading axes multiply up to the bound. -/
def Overruns (s : Shape) : Prop := 0 ∈ s ∧ ∃ p, p <+: s ∧ countBound ≤ p.prod

theorem not_bounded_iff : ¬ s.Bounded ↔ ∃ p, p <+: s ∧ countBound ≤ p.prod := by
  unfold Bounded
  push Not
  rfl

theorem prod_of_zero_mem (h : 0 ∈ s) : s.prod = 0 := List.prod_eq_zero h

theorem prod_pos_of_zero_not_mem (h : 0 ∉ s) : 0 < s.prod :=
  Nat.pos_of_ne_zero fun hz => h (List.prod_eq_zero_iff.mp hz)

/-- A product of leading axes is no greater than that of all, unless a later axis is zero. -/
theorem bounded_of_prod_lt (h0 : 0 ∉ s) (h : s.prod < countBound) : s.Bounded := by
  intro p hp
  have hpos := prod_pos_of_zero_not_mem h0
  obtain ⟨q, rfl⟩ := hp
  rw [List.prod_append] at h hpos
  have hq : 0 < q.prod := Nat.pos_of_mul_pos_left hpos
  calc p.prod ≤ p.prod * q.prod := Nat.le_mul_of_pos_right _ hq
    _ < countBound := h

/-- **The count is the product if that fits**, but for the shapes that overrun. -/
theorem count?_eq_ite [Decidable s.Overruns] :
    s.count? = if s.Overruns then none else if s.prod < countBound then some s.prod else none := by
  by_cases hb : s.Bounded
  · have ho : ¬ s.Overruns := fun h => not_bounded_iff.mpr h.2 hb
    rw [if_neg ho, if_pos (hb s (List.prefix_refl s))]
    exact count?_eq_some_iff.mpr ⟨hb, rfl⟩
  · have hnone : s.count? = none := by
      rw [Option.eq_none_iff_forall_ne_some]
      intro n hn
      exact hb (count?_eq_some_iff.mp hn).1
    rw [hnone]
    by_cases h0 : 0 ∈ s
    · rw [if_pos ⟨h0, not_bounded_iff.mp hb⟩]
    · have hp : ¬ s.prod < countBound := fun hp => hb (bounded_of_prod_lt h0 hp)
      rw [if_neg fun h => h0 h.1, if_neg hp]

theorem count?_of_overruns (h : s.Overruns) : s.count? = none := by
  classical
  rw [count?_eq_ite, if_pos h]

theorem count?_of_not_overruns (h : ¬ s.Overruns) :
    s.count? = if s.prod < countBound then some s.prod else none := by
  classical
  rw [count?_eq_ite, if_neg h]

/-- A number that can be counted is the count just if it is the product, but for the shapes that
overrun and the number zero. -/
theorem count?_eq_some_iff_prod_iff (hn : n < countBound) :
    (s.count? = some n ↔ s.prod = n) ↔ ¬ (s.Overruns ∧ n = 0) := by
  by_cases ho : s.Overruns
  · have hp : s.prod = 0 := prod_of_zero_mem ho.1
    rw [count?_of_overruns ho, hp]
    simp [ho, eq_comm]
  · rw [count?_of_not_overruns ho]
    by_cases hp : s.prod < countBound
    · simp [ho, hp]
    · have hne : s.prod ≠ n := by omega
      simp [ho, hp, hne]

/-- A zero in front keeps a shape from overrunning. -/
theorem exists_perm_count? (h : 0 ∈ s) : ∃ s', s'.Perm s ∧ Shape.count? s' = some 0 := by
  refine ⟨0 :: s.erase 0, (List.perm_cons_erase h).symm, count?_eq_some_iff.mpr ⟨?_, by simp⟩⟩
  intro p hp
  rcases List.prefix_cons_iff.mp hp with rfl | ⟨q, rfl, -⟩
  · decide
  · rw [List.prod_cons, Nat.zero_mul]
    decide

/-- The order of the axes matters where one order overruns and the other does not. -/
theorem count?_perm_iff (h : s'.Perm s) : s'.count? = s.count? ↔ (s'.Overruns ↔ s.Overruns) := by
  have hp : s'.prod = s.prod := h.prod_eq
  by_cases ho' : s'.Overruns <;> by_cases ho : s.Overruns
  · simp [count?_of_overruns ho', count?_of_overruns ho, ho', ho]
  · have h0 : s.prod = 0 := prod_of_zero_mem (h.mem_iff.mp ho'.1)
    rw [count?_of_overruns ho', count?_of_not_overruns ho, h0]
    simp [ho', ho, countBound]
  · have h0 : s'.prod = 0 := prod_of_zero_mem (h.mem_iff.mpr ho.1)
    rw [count?_of_overruns ho, count?_of_not_overruns ho', h0]
    simp [ho', ho, countBound]
  · rw [count?_of_not_overruns ho', count?_of_not_overruns ho, hp]
    simp [ho', ho]

/-! ## What is accepted -/

theorem ofBuffer_accepts_iff {buffer : Buffer} :
    (∃ a, DenseArray.ofBuffer s buffer = .ok a) ↔ s.count? = some buffer.length := by
  constructor
  · rintro ⟨a, ha⟩
    obtain ⟨rfl, hc⟩ := DenseArray.ofBuffer_eq_ok.mp ha
    exact hc
  · intro hc
    exact ⟨⟨s, buffer⟩, DenseArray.ofBuffer_eq_ok.mpr ⟨rfl, hc⟩⟩

theorem ofColumn_accepts_iff {type : ElementType} {cells : List (Option type.Word)} :
    (∃ t, Tensor.ofColumn s (.ofElements type cells) = .ok t) ↔ s.count? = some cells.length := by
  constructor
  · rintro ⟨t, ht⟩
    obtain ⟨hs, hcol, hc⟩ := Tensor.ofColumn_eq_ok.mp ht
    rw [Tensor.Counted, Tensor.length, hs, hcol] at hc
    exact hc
  · intro hc
    exact ⟨.ofCells s type cells, Tensor.ofColumn_eq_ok.mpr ⟨rfl, rfl, hc⟩⟩

theorem fixedAxes_map_fixed : fixedAxes (s.map .fixed) = s := by
  induction s with
  | nil => rfl
  | cons a s ih => rw [List.map_cons, fixedAxes_fixed, ih]

theorem freeAxes_map_fixed : freeAxes (s.map .fixed) = 0 := by
  induction s with
  | nil => rfl
  | cons a s ih => rw [List.map_cons, freeAxes_fixed, ih]

theorem resolve_fixed_accepts_iff {current : Shape} (h : current.count? = some n) :
    (∃ r, resolve (s.map .fixed) current = .ok r) ↔ s.count? = some n := by
  unfold resolve
  rw [h, fixedAxes_map_fixed, freeAxes_map_fixed]
  rcases hs : s.count? with _ | known
  · simp
  · by_cases hk : known = n
    · simp [hk]
    · simp [hk]

/-- **Counting is exact but for the shapes that overrun.** For every other shape the count is the
product of the axes, if that fits, and a buffer, a column or an array with as many elements as that
product is accepted, and nothing else. A shape that overruns has no elements, and is refused where
there are none. So the order of the axes matters just where one order overruns and the other does
not; if one does, another does not. -/
theorem counting_exact_iff (s : Shape) :
    (s.count? = (if s.prod < countBound then some s.prod else none) ↔ ¬ s.Overruns) ∧
    (∀ buffer : Buffer, buffer.length < countBound →
      (((∃ a, DenseArray.ofBuffer s buffer = .ok a) ↔ s.prod = buffer.length) ↔
        ¬ (s.Overruns ∧ buffer.length = 0))) ∧
    (∀ (type : ElementType) (cells : List (Option type.Word)), cells.length < countBound →
      (((∃ t, Tensor.ofColumn s (.ofElements type cells) = .ok t) ↔ s.prod = cells.length) ↔
        ¬ (s.Overruns ∧ cells.length = 0))) ∧
    (∀ (current : Shape) (n : Nat), current.count? = some n →
      (((∃ r, resolve (s.map .fixed) current = .ok r) ↔ s.prod = n) ↔ ¬ (s.Overruns ∧ n = 0))) ∧
    (∀ s' : Shape, s'.Perm s →
      ((∀ buffer : Buffer, (∃ a, DenseArray.ofBuffer s' buffer = .ok a) ↔
        ∃ a, DenseArray.ofBuffer s buffer = .ok a) ↔ (s'.Overruns ↔ s.Overruns))) ∧
    (s.Overruns → ∃ s' : Shape, s'.Perm s ∧ ¬ s'.Overruns) := by
  refine ⟨⟨fun h ho => ?_, count?_of_not_overruns⟩, fun buffer hb => ?_, fun type cells hc => ?_,
    fun current n hn => ?_, fun s' hs => ?_, fun ho => ?_⟩
  · rw [count?_of_overruns ho, prod_of_zero_mem ho.1] at h
    exact absurd h (by decide)
  · rw [ofBuffer_accepts_iff]
    exact count?_eq_some_iff_prod_iff hb
  · rw [ofColumn_accepts_iff]
    exact count?_eq_some_iff_prod_iff hc
  · rw [resolve_fixed_accepts_iff hn]
    exact count?_eq_some_iff_prod_iff (count?_lt hn)
  · rw [← count?_perm_iff hs]
    simp only [ofBuffer_accepts_iff]
    constructor
    · intro h
      -- a buffer for each length shows the counts equal
      have hlen : ∀ n, s'.count? = some n ↔ s.count? = some n := fun n => by
        simpa [Buffer.length] using h ⟨.int8, List.replicate n 0⟩
      exact Option.ext hlen
    · intro h buffer
      rw [h]
  · obtain ⟨s', hs, hc⟩ := exists_perm_count? ho.1
    exact ⟨s', hs, fun ho' => nomatch (count?_of_overruns ho').symm.trans hc⟩

/-- **The last axis is zero, and still the shape cannot be counted**, while it counts no elements if
that axis comes first. -/
theorem zero_last_uncountable :
    List.prod [2 ^ 63, 2, 0] = 0 ∧ Shape.count? [2 ^ 63, 2, 0] = none ∧
      DenseArray.ofBuffer [2 ^ 63, 2, 0] ⟨.int8, []⟩ =
        .error (.shapeMismatch (.ofShape [2 ^ 63, 2, 0]) [0] .uncountable) ∧
      DenseArray.ofBuffer [0, 2 ^ 63, 2] ⟨.int8, []⟩ = .ok ⟨[0, 2 ^ 63, 2], .int8, []⟩ := by
  refine ⟨by simp, by decide, by rfl, by rfl⟩

end ArrayContract.Shape
