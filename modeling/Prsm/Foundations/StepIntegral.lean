import Mathlib.MeasureTheory.Integral.IntervalIntegral.Basic
import Mathlib.Tactic

/-!
# Integrals of rates that change at whole seconds

A rate that is constant between consecutive whole numbers integrates to a sum, one
summand for each unit.  A program that counts in whole units can so be compared with
the integral it is meant to follow.
-/

namespace Prsm.Foundations

open MeasureTheory

/-- A function that is constant between consecutive whole numbers integrates to the
sum of its values. -/
theorem integral_eq_sum_of_steps {f : ℝ → ℝ} {g : ℕ → ℝ} {a b : ℕ} (hLe : a ≤ b)
    (hSteps : ∀ k, a ≤ k → k < b → Set.EqOn f (fun _ => g k) (Set.Ioo (k : ℝ) (k + 1))) :
    ∫ x in (a : ℝ)..b, f x = ∑ k ∈ Finset.Ico a b, g k := by
  have hUnit : ∀ k : ℕ, (k : ℝ) ≤ ((k + 1 : ℕ) : ℝ) := fun k => by exact_mod_cast Nat.le_succ k
  have hOpen : ∀ k, a ≤ k → k < b →
      Set.EqOn f (fun _ => g k) (Set.Ioo (k : ℝ) ((k + 1 : ℕ) : ℝ)) := by
    intro k hLower hUpper
    rw [Nat.cast_succ]
    exact hSteps k hLower hUpper
  rw [← intervalIntegral.sum_integral_adjacent_intervals_Ico (a := fun k => (k : ℝ)) hLe]
  · apply Finset.sum_congr rfl
    intro k hk
    obtain ⟨hLower, hUpper⟩ := Finset.mem_Ico.mp hk
    rw [intervalIntegral.integral_congr_Ioo_of_le (hUnit k) (hOpen k hLower hUpper)]
    simp
  · rintro k ⟨hLower, hUpper⟩
    apply (intervalIntegrable_const (c := g k)).congr_uIoo
    rw [Set.uIoo_of_le (hUnit k)]
    exact (hOpen k hLower hUpper).symm

end Prsm.Foundations
