import Mathlib.Algebra.BigOperators.Fin
import Mathlib.Algebra.BigOperators.Group.Finset.Basic
import Mathlib.Tactic

/-!
# Random programs with finitely many outcomes

A random program is the list of its outcomes, each with its weight.  `mean` is the rule for
programs that are put together from others: the mean over a sequence is the mean of means.
-/

namespace Prsm.Foundations

universe u

/-- The outcomes with their weights; one may come up several times. -/
structure Weighted (α : Type u) where
  outcomes : List (α × ℚ)

namespace Weighted

variable {α β : Type u}

protected def pure (a : α) : Weighted α := ⟨[(a, 1)]⟩

protected def bind (x : Weighted α) (f : α → Weighted β) : Weighted β :=
  ⟨x.outcomes.flatMap fun y => (f y.1).outcomes.map fun z => (z.1, y.2 * z.2)⟩

instance : Monad Weighted where
  pure := Weighted.pure
  bind := Weighted.bind

/-- `true` with this probability. -/
def flip (probability : ℚ) : Weighted Bool :=
  ⟨[(true, probability), (false, 1 - probability)]⟩

/-- An index, with the weights of an array. -/
def choice {n : ℕ} (weights : Fin n → ℚ) : Weighted (Fin n) :=
  ⟨(List.finRange n).map fun t => (t, weights t)⟩

def mean (g : α → ℚ) (x : Weighted α) : ℚ :=
  (x.outcomes.map fun y => y.2 * g y.1).sum

/-- The weight of the outcomes that pass a test. -/
def prob (p : α → Bool) (x : Weighted α) : ℚ :=
  x.mean fun a => if p a then 1 else 0

variable (g g' : α → ℚ) (h : β → ℚ) (a : α) (c : ℚ) (x : Weighted α) (f : α → Weighted β)

@[simp] theorem mean_pure : (pure a : Weighted α).mean g = g a := by
  show (List.map _ [(a, (1 : ℚ))]).sum = g a
  simp

theorem mean_mul : x.mean (fun a => c * g a) = c * x.mean g := by
  unfold mean
  rw [← List.sum_map_mul_left]
  exact congrArg List.sum (List.map_congr_left fun y _ => mul_left_comm _ _ _)

theorem mean_add : x.mean (fun a => g a + g' a) = x.mean g + x.mean g' := by
  unfold mean
  rw [← List.sum_map_add]
  exact congrArg List.sum (List.map_congr_left fun y _ => mul_add _ _ _)

theorem mean_bind : (x >>= f).mean h = x.mean fun a => (f a).mean h := by
  show (List.map _ (x.outcomes.flatMap _)).sum = (List.map _ x.outcomes).sum
  induction x.outcomes with
  | nil => rfl
  | cons y rest ih =>
      rw [List.flatMap_cons, List.map_append, List.sum_append, ih, List.map_cons, List.sum_cons,
        List.map_map]
      congr 1
      unfold mean
      rw [← List.sum_map_mul_left]
      exact congrArg List.sum (List.map_congr_left fun z _ => mul_assoc _ _ _)

@[simp] theorem mean_flip (probability : ℚ) (g : Bool → ℚ) :
    (flip probability).mean g = probability * g true + (1 - probability) * g false := by
  simp [flip, mean]

@[simp] theorem mean_choice {n : ℕ} (weights g : Fin n → ℚ) :
    (choice weights).mean g = ∑ t, weights t * g t := by
  unfold choice mean
  rw [List.map_map, ← List.ofFn_eq_map, List.sum_ofFn]
  rfl

end Weighted

end Prsm.Foundations
