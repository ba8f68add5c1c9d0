import Mathlib.Tactic

/-!
# Noninterference by purging

Some inputs of a machine belong to one party.  What the machine answers to that
party should not depend on the inputs of the others.  `outputs_purge` is the
rule: when the party's own inputs are answered alike in states that agree for it,
and the others' inputs leave the state agreeing with what it was, the others'
inputs can be purged from a run.  Two runs with the same inputs of the party then
have the same answers.
-/

namespace Prsm.Foundations

universe u v w

variable {State : Type u} {Input : Type v} {Output : Type w}

/-- The answers to the inputs of a party, over a run. -/
def outputs (step : State → Input → State × Output) (mine : Input → Bool) (s : State) :
    List Input → List Output
  | [] => []
  | i :: is =>
      if mine i then (step s i).2 :: outputs step mine (step s i).1 is
      else outputs step mine (step s i).1 is

/-- How the inputs of a run act on a relation between states: those of the party
keep it and are answered alike, and the others' keep it on one side. -/
structure Isolates (step : State → Input → State × Output) (mine : Input → Bool)
    (Agree : State → State → Prop) (is : List Input) : Prop where
  own : ∀ i ∈ is, mine i = true → ∀ s t, Agree s t →
    (step s i).2 = (step t i).2 ∧ Agree (step s i).1 (step t i).1
  other : ∀ i ∈ is, mine i = false → ∀ s t, Agree s t → Agree (step s i).1 t

variable {step : State → Input → State × Output} {mine : Input → Bool}
  {Agree : State → State → Prop}

theorem Isolates.tail {i : Input} {is : List Input} (h : Isolates step mine Agree (i :: is)) :
    Isolates step mine Agree is :=
  ⟨fun j hj => h.own j (List.mem_cons_of_mem _ hj),
    fun j hj => h.other j (List.mem_cons_of_mem _ hj)⟩

theorem outputs_purge {is : List Input} (h : Isolates step mine Agree is) {s t : State}
    (hAgree : Agree s t) : outputs step mine s is = outputs step mine t (is.filter mine) := by
  induction is generalizing s t with
  | nil => rfl
  | cons i is ih =>
      cases hMine : mine i with
      | true =>
          obtain ⟨hOutput, hNext⟩ := h.own i List.mem_cons_self hMine s t hAgree
          rw [List.filter_cons_of_pos hMine, outputs, outputs, if_pos hMine, if_pos hMine, hOutput,
            ih h.tail hNext]
      | false =>
          have hNext := h.other i List.mem_cons_self hMine s t hAgree
          have hSkip : ¬ mine i = true := by rw [hMine]; decide
          rw [List.filter_cons_of_neg hSkip, outputs, if_neg hSkip, ih h.tail hNext]

theorem outputs_eq_of_filter_eq {is js : List Input} (hi : Isolates step mine Agree is)
    (hj : Isolates step mine Agree js) (hSame : is.filter mine = js.filter mine) {s : State}
    (hStart : Agree s s) : outputs step mine s is = outputs step mine s js := by
  rw [outputs_purge hi hStart, outputs_purge hj hStart, hSame]

end Prsm.Foundations
