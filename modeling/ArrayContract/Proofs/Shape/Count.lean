import ArrayContract.Shape.Count
import Mathlib.Algebra.BigOperators.Group.List.Basic
import Mathlib.Algebra.Order.BigOperators.Group.List

/-! # Element counts as products

`count?` multiplies from the left and stops as soon as a product of leading axes reaches the bound.
So a shape counts `n` elements exactly when all products of leading axes stay below the bound
(`Bounded`) and the product of all axes is `n` (`count?_eq_some_iff`). The condition on the leading
axes is not implied by the product: a later axis may be zero. -/

namespace ArrayContract.Shape

/-- Every product of leading axes is below the bound. -/
def Bounded (s : Shape) : Prop := ∀ p, p <+: s → p.prod < countBound

theorem mul?_eq_some_iff {a b n : Nat} : mul? a b = some n ↔ a * b < countBound ∧ a * b = n := by
  unfold mul?
  split <;> simp_all

/-- The invariant of the loop in `count?`: `k` is the product of the axes already read. -/
theorem foldlM_mul?_eq_some_iff {s : Shape} {k n : Nat} (hk : k < countBound) :
    s.foldlM mul? k = some n ↔ (∀ p, p <+: s → k * p.prod < countBound) ∧ k * s.prod = n := by
  induction s generalizing k with
  | nil => simpa using fun _ => hk
  | cons a s ih =>
    rw [List.foldlM_cons]
    by_cases hb : k * a < countBound
    · rw [show mul? k a = some (k * a) from mul?_eq_some_iff.mpr ⟨hb, rfl⟩]
      show s.foldlM mul? (k * a) = some n ↔ _
      rw [ih hb, List.prod_cons, Nat.mul_assoc]
      refine and_congr_left fun _ => ⟨fun h p hp => ?_, fun h p hp => ?_⟩
      · rcases List.prefix_cons_iff.mp hp with rfl | ⟨q, rfl, hq⟩
        · simpa using hk
        · rw [List.prod_cons, ← Nat.mul_assoc]
          exact h q hq
      · rw [Nat.mul_assoc, ← List.prod_cons]
        exact h (a :: p) (List.prefix_cons_iff.mpr (Or.inr ⟨p, rfl, hp⟩))
    · rw [show mul? k a = none from if_neg hb]
      constructor
      · rintro ⟨⟩
      · rintro ⟨h, -⟩
        have := h [a] (List.prefix_cons_iff.mpr (Or.inr ⟨[], rfl, List.nil_prefix⟩))
        exact absurd (by simpa using this) hb

/-- **A shape counts its elements exactly** when no product of leading axes reaches the bound. -/
theorem count?_eq_some_iff {s : Shape} {n : Nat} :
    s.count? = some n ↔ s.Bounded ∧ s.prod = n := by
  have h := foldlM_mul?_eq_some_iff (s := s) (k := 1) (n := n) (by decide)
  simpa [count?, Bounded] using h

theorem prod_of_count? {s : Shape} {n : Nat} (h : s.count? = some n) : s.prod = n :=
  (count?_eq_some_iff.mp h).2

theorem count?_lt {s : Shape} {n : Nat} (h : s.count? = some n) : n < countBound := by
  obtain ⟨hb, rfl⟩ := count?_eq_some_iff.mp h
  exact hb s (List.prefix_refl s)

/-- A shape of one axis counts that axis. -/
theorem count?_singleton {n : Nat} (h : n < countBound) : Shape.count? [n] = some n := by
  simp [count?, mul?, h]

end ArrayContract.Shape
