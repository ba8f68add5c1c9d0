import Mathlib.Tactic

/-!
# Machines that ignore failed inputs

A `Machine` takes an input to a new state or refuses it.  A refused input
leaves the state as it was, so every list of inputs is a run and no theorem
about runs needs a side condition that the inputs were accepted.

Two notions relate a run to its parts:

* `EveryState P` says that `P` holds at every state the run visits;
* `EveryStep C` says that every accepted input met `C` in the state it was
  accepted in.

`run_invariant` is the rule for a safety property.  For a property that some inputs break,
`everyState_iff_everyStep` identifies the runs that keep it.
-/

namespace Prsm.Foundations

universe u v w

/-- A deterministic machine.  `step` is `none` on an input that is refused. -/
structure Machine (State : Type u) (Input : Type v) where
  step : State → Input → Option State

namespace Machine

variable {State : Type u} {Input : Type v} (m : Machine State Input)

/-- One input, with a refused one leaving the state unchanged. -/
def exec (s : State) (i : Input) : State :=
  (m.step s i).getD s

/-- The state after a list of inputs. -/
def run (s : State) (is : List Input) : State :=
  is.foldl m.exec s

@[simp] theorem run_nil (s : State) : m.run s [] = s := rfl

@[simp] theorem run_cons (s : State) (i : Input) (is : List Input) :
    m.run s (i :: is) = m.run (m.exec s i) is := rfl

theorem run_append (s : State) (is js : List Input) :
    m.run s (is ++ js) = m.run (m.run s is) js :=
  List.foldl_append

variable {s : State} {i : Input} {P : State → Prop} {is : List Input} {C : State → Input → Prop}

theorem exec_of_step {s' : State} (h : m.step s i = some s') :
    m.exec s i = s' := by
  simp [exec, h]

theorem exec_of_refused (h : m.step s i = none) :
    m.exec s i = s := by
  simp [exec, h]

/-- `P` holds at every state visited by the run of `is` from `s`, its two ends
included. -/
def EveryState (P : State → Prop) (s : State) (is : List Input) : Prop :=
  ∀ visited, visited <+: is → P (m.run s visited)

/-- Every input of `is` that is accepted meets `C` in the state it is accepted
in. -/
def EveryStep (C : State → Input → Prop) (s : State) (is : List Input) : Prop :=
  ∀ before i, before ++ [i] <+: is → (m.step (m.run s before) i).isSome →
    C (m.run s before) i

theorem everyState_nil :
    m.EveryState P s [] ↔ P s := by
  simp [EveryState]

theorem everyState_cons :
    m.EveryState P s (i :: is) ↔ P s ∧ m.EveryState P (m.exec s i) is := by
  constructor
  · intro h
    refine ⟨h [] (List.nil_prefix), fun visited hVisited => ?_⟩
    exact h (i :: visited) (by simpa using hVisited)
  · rintro ⟨hHead, hTail⟩ visited hVisited
    cases visited with
    | nil => exact hHead
    | cons j visited =>
        obtain ⟨rfl, hRest⟩ := List.cons_prefix_cons.mp hVisited
        exact hTail visited hRest

theorem EveryState.last {m : Machine State Input}
    (h : m.EveryState P s is) : P (m.run s is) :=
  h is (List.prefix_refl is)

theorem everyStep_nil :
    m.EveryStep C s [] := by
  intro before i h
  simp at h

theorem everyStep_cons :
    m.EveryStep C s (i :: is) ↔
      ((m.step s i).isSome → C s i) ∧ m.EveryStep C (m.exec s i) is := by
  constructor
  · intro h
    refine ⟨h [] i (by simp), fun before j hBefore => ?_⟩
    exact h (i :: before) j (by simpa using hBefore)
  · rintro ⟨hHead, hTail⟩ before j hBefore
    cases before with
    | nil =>
        obtain ⟨rfl, -⟩ := List.cons_prefix_cons.mp hBefore
        exact hHead
    | cons k before =>
        obtain ⟨rfl, hRest⟩ := List.cons_prefix_cons.mp hBefore
        exact hTail before j hRest

theorem everyStep_append {js : List Input} :
    m.EveryStep C s (is ++ js) ↔ m.EveryStep C s is ∧ m.EveryStep C (m.run s is) js := by
  induction is generalizing s with
  | nil => exact ⟨fun h => ⟨m.everyStep_nil, h⟩, fun h => h.2⟩
  | cons i is ih => rw [List.cons_append, everyStep_cons, everyStep_cons, ih, run_cons, and_assoc]

/-- A condition that can be decided at each step can be decided along a run. -/
instance decidableEveryStep (C : State → Input → Prop) [∀ s i, Decidable (C s i)] :
    (s : State) → (is : List Input) → Decidable (m.EveryStep C s is)
  | _, [] => isTrue m.everyStep_nil
  | s, i :: is =>
      have := decidableEveryStep C (m.exec s i) is
      decidable_of_iff _ m.everyStep_cons.symm

theorem EveryStep.of_prefix {m : Machine State Input}
    {js : List Input} (h : m.EveryStep C s js) (hPrefix : is <+: js) :
    m.EveryStep C s is :=
  fun before i hBefore => h before i (hBefore.trans hPrefix)

theorem EveryStep.and {m : Machine State Input} {D : State → Input → Prop}
    (hC : m.EveryStep C s is) (hD : m.EveryStep D s is) :
    m.EveryStep (fun s i => C s i ∧ D s i) s is :=
  fun before i hBefore hAccepted =>
    ⟨hC before i hBefore hAccepted, hD before i hBefore hAccepted⟩

theorem everyStep_mem (s : State) (is : List Input) : m.EveryStep (fun _ i => i ∈ is) s is :=
  fun _ _ hBefore _ => hBefore.subset (by simp)

theorem run_invariant (Inv : State → Prop)
    (hStep : ∀ s i s', Inv s → m.step s i = some s' → Inv s') (hStart : Inv s)
    (is : List Input) : Inv (m.run s is) := by
  induction is generalizing s with
  | nil => exact hStart
  | cons i is ih =>
      apply ih
      cases hNext : m.step s i with
      | none => rwa [m.exec_of_refused hNext]
      | some s' =>
          rw [m.exec_of_step hNext]
          exact hStep s i s' hStart hNext

/-- Suppose an accepted step from a state with `P` keeps `P` exactly when it
meets `C`, given an invariant `Inv` that the steps keep as long as `P` holds.
Then a run whose steps stay within a domain `D` keeps `P` throughout exactly
when each accepted step meets `C`. -/
theorem everyState_iff_everyStep_within_while (Inv P : State → Prop)
    (D C : State → Input → Prop)
    (hInv : ∀ s i s', Inv s → D s i → P s → P s' → m.step s i = some s' → Inv s')
    (hExact : ∀ s i s', Inv s → D s i → P s → m.step s i = some s' → (P s' ↔ C s i))
    (hStart : Inv s) (hP : P s) (hWithin : m.EveryStep D s is) :
    m.EveryState P s is ↔ m.EveryStep C s is := by
  induction is generalizing s with
  | nil => simp [everyState_nil, everyStep_nil, hP]
  | cons i is ih =>
      rw [everyStep_cons] at hWithin
      obtain ⟨hHere, hLater⟩ := hWithin
      rw [everyState_cons, everyStep_cons]
      cases hNext : m.step s i with
      | none =>
          rw [m.exec_of_refused hNext] at hLater ⊢
          simp [hP, ih hStart hP hLater]
      | some s' =>
          rw [m.exec_of_step hNext] at hLater ⊢
          have hIn := hHere (by simp [hNext])
          have hExactHere := hExact s i s' hStart hIn hP hNext
          constructor
          · rintro ⟨-, hRest⟩
            have hP' : P s' := hRest [] (List.nil_prefix)
            have hNextInv := hInv s i s' hStart hIn hP hP' hNext
            exact ⟨fun _ => hExactHere.mp hP', (ih hNextInv hP' hLater).mp hRest⟩
          · rintro ⟨hMeets, hRest⟩
            have hP' : P s' := hExactHere.mpr (hMeets (by simp))
            have hNextInv := hInv s i s' hStart hIn hP hP' hNext
            exact ⟨hP, (ih hNextInv hP' hLater).mpr hRest⟩

theorem everyState_iff_everyStep_of_while (Inv P : State → Prop)
    (C : State → Input → Prop)
    (hInv : ∀ s i s', Inv s → P s → P s' → m.step s i = some s' → Inv s')
    (hExact : ∀ s i s', Inv s → P s → m.step s i = some s' → (P s' ↔ C s i)) (hStart : Inv s)
    (hP : P s) (is : List Input) :
    m.EveryState P s is ↔ m.EveryStep C s is :=
  m.everyState_iff_everyStep_within_while Inv P (fun _ _ => True) C
    (fun s i s' hHere _ => hInv s i s' hHere) (fun s i s' hHere _ => hExact s i s' hHere)
    hStart hP fun _ _ _ _ => trivial

theorem everyState_iff_everyStep (Inv P : State → Prop)
    (C : State → Input → Prop)
    (hInv : ∀ s i s', Inv s → m.step s i = some s' → Inv s')
    (hExact : ∀ s i s', Inv s → P s → m.step s i = some s' → (P s' ↔ C s i)) (hStart : Inv s)
    (hP : P s) (is : List Input) :
    m.EveryState P s is ↔ m.EveryStep C s is :=
  m.everyState_iff_everyStep_of_while Inv P C (fun s i s' hHere _ _ => hInv s i s' hHere) hExact
    hStart hP is

/-- The half of `everyState_iff_everyStep` that needs less: if the steps that
meet `C` keep `P`, so do the runs all of whose steps do. -/
theorem everyState_of_everyStep (P : State → Prop) (C : State → Input → Prop)
    (hStep : ∀ s i s', P s → C s i → m.step s i = some s' → P s') (hP : P s)
    (hSteps : m.EveryStep C s is) :
    m.EveryState P s is := by
  induction is generalizing s with
  | nil => exact (m.everyState_nil).mpr hP
  | cons i is ih =>
      rw [everyStep_cons] at hSteps
      obtain ⟨hHere, hRest⟩ := hSteps
      rw [everyState_cons]
      refine ⟨hP, ih ?_ hRest⟩
      cases hNext : m.step s i with
      | none => rwa [m.exec_of_refused hNext]
      | some s' =>
          rw [m.exec_of_step hNext]
          exact hStep s i s' hP (hHere (by simp [hNext])) hNext

/-- The same for the runs whose steps stay within a domain `D`, with an invariant of all
accepted steps. -/
theorem everyState_iff_everyStep_within (Inv P : State → Prop) (D C : State → Input → Prop)
    (hInv : ∀ s i s', Inv s → D s i → m.step s i = some s' → Inv s')
    (hExact : ∀ s i s', Inv s → D s i → P s → m.step s i = some s' → (P s' ↔ C s i))
    (hStart : Inv s) (hP : P s) (hWithin : m.EveryStep D s is) :
    m.EveryState P s is ↔ m.EveryStep C s is :=
  m.everyState_iff_everyStep_within_while Inv P D C
    (fun s i s' hHere hIn _ _ => hInv s i s' hHere hIn) hExact hStart hP hWithin

/-- What every step that meets `C` keeps of the state before it, a run of such steps
keeps too. -/
theorem run_related (Inv : State → Prop) (C : State → Input → Prop) (R : State → State → Prop)
    (hRefl : ∀ s, R s s) (hTrans : ∀ s s' s'', R s s' → R s' s'' → R s s'')
    (hStep : ∀ s i s', Inv s → C s i → m.step s i = some s' → Inv s' ∧ R s s') (hStart : Inv s)
    (hSteps : m.EveryStep C s is) :
    Inv (m.run s is) ∧ R s (m.run s is) := by
  induction is generalizing s with
  | nil => exact ⟨hStart, hRefl s⟩
  | cons i is ih =>
      obtain ⟨hHere, hRest⟩ := m.everyStep_cons.mp hSteps
      have hNext : Inv (m.exec s i) ∧ R s (m.exec s i) := by
        cases hMove : m.step s i with
        | none =>
            rw [m.exec_of_refused hMove]
            exact ⟨hStart, hRefl s⟩
        | some s' =>
            rw [m.exec_of_step hMove]
            exact hStep s i s' hStart (hHere (by simp [hMove])) hMove
      obtain ⟨hLast, hRelated⟩ := ih hNext.1 hRest
      exact ⟨hLast, hTrans _ _ _ hNext.2 hRelated⟩

theorem related_along (Inv : State → Prop) (C : State → Input → Prop) (R : State → State → Prop)
    (hRefl : ∀ s, R s s) (hTrans : ∀ s s' s'', R s s' → R s' s'' → R s s'')
    (hStep : ∀ s i s', Inv s → C s i → m.step s i = some s' → Inv s' ∧ R s s') (hStart : Inv s)
    (hSteps : m.EveryStep C s is)
    {earlier later : List Input} (hEarlier : earlier <+: later) (hLater : later <+: is) :
    R (m.run s earlier) (m.run s later) := by
  obtain ⟨more, rfl⟩ := hEarlier
  obtain ⟨hBefore, hAfter⟩ := m.everyStep_append.mp (hSteps.of_prefix hLater)
  have hInv := (m.run_related Inv C R hRefl hTrans hStep hStart hBefore).1
  rw [run_append]
  exact (m.run_related Inv C R hRefl hTrans hStep hInv hAfter).2

/-! ## The inputs that were accepted -/

/-- The inputs of a run that were accepted, in order. -/
def taken (s : State) : List Input → List Input
  | [] => []
  | i :: is =>
      if (m.step s i).isSome then i :: taken (m.exec s i) is else taken (m.exec s i) is

/-- Suppose a flag is raised exactly by the accepted inputs of a kind, and such
an input is refused once the flag is up.  Then a run accepts one input of the
kind if it raises the flag, and none otherwise. -/
theorem countP_taken (flag : State → Bool) (kind : Input → Bool)
    (hStep : ∀ s i s', m.step s i = some s' →
      flag s' = (flag s || kind i) ∧ (kind i = true → flag s = false))
    (s : State) (is : List Input) :
    (m.taken s is).countP kind + (flag s).toNat = (flag (m.run s is)).toNat := by
  induction is generalizing s with
  | nil => simp [taken]
  | cons i is ih =>
      have hRest := ih (m.exec s i)
      rw [taken, run_cons]
      cases hNext : m.step s i with
      | none =>
          rw [m.exec_of_refused hNext] at hRest ⊢
          simpa using hRest
      | some s' =>
          rw [m.exec_of_step hNext] at hRest ⊢
          obtain ⟨hFlag, hOnce⟩ := hStep s i s' hNext
          rw [if_pos (Option.isSome_some), List.countP_cons, ← hRest, hFlag]
          cases hKind : kind i with
          | false => simp
          | true => simp [hOnce hKind]

/-! ## Machines side by side -/

variable {ι : Type w} [DecidableEq ι]

/-- A machine for every index, with inputs for one of them at a time. -/
def sideBySide : Machine (ι → State) (ι × Input) where
  step s i := (m.step (s i.1) i.2).map (Function.update s i.1)

/-- The inputs for one member, in order. -/
def inputsOf (k : ι) (is : List (ι × Input)) : List Input :=
  (is.filter fun i => i.1 = k).map Prod.snd

theorem exec_sideBySide (s : ι → State) (i : ι × Input) :
    m.sideBySide.exec s i = Function.update s i.1 (m.exec (s i.1) i.2) := by
  cases hNext : m.step (s i.1) i.2 with
  | none =>
      have hRefused : m.sideBySide.step s i = none := by simp [sideBySide, hNext]
      rw [exec_of_refused _ hRefused, m.exec_of_refused hNext, Function.update_eq_self]
  | some s' =>
      have hTaken : m.sideBySide.step s i = some (Function.update s i.1 s') := by
        simp [sideBySide, hNext]
      rw [exec_of_step _ hTaken, m.exec_of_step hNext]

theorem run_sideBySide (s : ι → State) (is : List (ι × Input)) (k : ι) :
    m.sideBySide.run s is k = m.run (s k) (inputsOf k is) := by
  induction is generalizing s with
  | nil => rfl
  | cons i is ih =>
      rw [run_cons, exec_sideBySide, ih]
      by_cases hMember : i.1 = k
      · subst hMember
        simp [inputsOf]
      · simp [inputsOf, hMember, Function.update_of_ne (Ne.symm hMember)]

end Machine
end Prsm.Foundations
