import Mathlib.Logic.Relation
import Mathlib.Tactic

/-!
# Graphs that grow at their tips

Every node of a `TipGraph` names its parents, and the list of tips is to hold the nodes
that nobody names.  A node that is new and names tips keeps the graph acyclic and its
parents present, and it takes the place of the tips that it names.
-/

namespace Prsm.Foundations

universe u

/-- The parents of each node, `none` where there is no node, and the tips as recorded. -/
structure TipGraph (κ : Type u) where
  parents : κ → Option (List κ)
  tips : List κ

namespace TipGraph

variable {κ : Type u} (g : TipGraph κ)

def Mem (x : κ) : Prop := (g.parents x).isSome

/-- The child names the parent. -/
def Edge (child parent : κ) : Prop := ∃ ps ∈ g.parents child, parent ∈ ps

/-- Nobody is an ancestor of itself, and every parent is a node. -/
structure Acyclic : Prop where
  irrefl : ∀ x, ¬Relation.TransGen g.Edge x x
  closed : ∀ child parent, g.Edge child parent → g.Mem parent

/-- A node that nobody names. -/
def IsTip (x : κ) : Prop := g.Mem x ∧ ∀ child, ¬g.Edge child x

/-- The tips on record are the tips. -/
structure WellFormed : Prop extends g.Acyclic where
  mem_tips_iff : ∀ x, x ∈ g.tips ↔ g.IsTip x

/-- Add a node, or replace one. -/
def store [DecidableEq κ] (x : κ) (ps : List κ) : TipGraph κ :=
  { g with parents := Function.update g.parents x (some ps) }

theorem wellFormed_of_empty (hNone : ∀ x, g.parents x = none) (hTips : g.tips = []) :
    g.WellFormed := by
  have hEdge : ∀ child parent, ¬g.Edge child parent := by
    rintro child parent ⟨ps, hps, -⟩
    rw [hNone] at hps
    cases hps
  refine ⟨⟨fun x hCycle => ?_, fun child parent h => (hEdge child parent h).elim⟩, fun x => ?_⟩
  · obtain ⟨y, hStep, -⟩ := Relation.TransGen.head'_iff.mp hCycle
    exact hEdge x y hStep
  · rw [hTips]
    refine ⟨fun h => (List.not_mem_nil h).elim, fun h => ?_⟩
    have hMem := h.1
    rw [Mem, hNone] at hMem
    cases hMem

section Growth

variable [DecidableEq κ] {g} {x : κ} {ps : List κ}

theorem edge_store {child parent : κ} (hNew : g.parents x = none) :
    (g.store x ps).Edge child parent ↔ g.Edge child parent ∨ child = x ∧ parent ∈ ps := by
  unfold Edge store
  by_cases hChild : child = x
  · subst hChild
    simp [hNew]
  · simp [hChild]

theorem mem_store {y : κ} : (g.store x ps).Mem y ↔ y = x ∨ g.Mem y := by
  unfold Mem store
  by_cases hSame : y = x
  · simp [hSame]
  · simp [hSame]

omit [DecidableEq κ] in
theorem Acyclic.not_edge_of_new (h : g.Acyclic) (hNew : g.parents x = none) (child : κ) :
    ¬g.Edge child x := by
  intro hEdge
  have hMem := h.closed child x hEdge
  rw [Mem, hNew] at hMem
  cases hMem

theorem Acyclic.store (h : g.Acyclic) (hNew : g.parents x = none) (hps : ∀ p ∈ ps, g.Mem p) :
    (g.store x ps).Acyclic := by
  have hAbsent : ¬g.Mem x := by simp [Mem, hNew]
  -- A path that does not begin at the new node never gets there.
  have hPath : ∀ y z, Relation.TransGen (g.store x ps).Edge y z → y ≠ x →
      Relation.TransGen g.Edge y z := by
    intro y z hTrans hOther
    induction hTrans with
    | single hStep =>
        rcases (edge_store hNew).mp hStep with hOld | ⟨hSame, -⟩
        · exact .single hOld
        · exact absurd hSame hOther
    | tail _ hStep ih =>
        rcases (edge_store hNew).mp hStep with hOld | ⟨rfl, -⟩
        · exact ih.tail hOld
        · obtain ⟨y', -, hLast⟩ := Relation.TransGen.tail'_iff.mp ih
          exact absurd hLast (h.not_edge_of_new hNew y')
  constructor
  · intro y hCycle
    by_cases hSame : y = x
    · subst hSame
      obtain ⟨z, -, hLast⟩ := Relation.TransGen.tail'_iff.mp hCycle
      rcases (edge_store hNew).mp hLast with hOld | ⟨-, hOwn⟩
      · exact h.not_edge_of_new hNew z hOld
      · exact hAbsent (hps _ hOwn)
    · exact h.irrefl y (hPath y y hCycle hSame)
  · intro child parent hEdge
    rw [mem_store]
    rcases (edge_store hNew).mp hEdge with hOld | ⟨-, hParent⟩
    · exact .inr (h.closed child parent hOld)
    · exact .inr (hps parent hParent)

theorem WellFormed.grow (h : g.WellFormed) (hNew : g.parents x = none)
    (hps : ∀ p ∈ ps, p ∈ g.tips) {g' : TipGraph κ} (hParents : g'.parents = (g.store x ps).parents)
    (hTips : ∀ y, y ∈ g'.tips ↔ y = x ∨ y ∈ g.tips ∧ y ∉ ps) : g'.WellFormed := by
  have hAcyclic := h.toAcyclic.store hNew fun p hp => ((h.mem_tips_iff p).mp (hps p hp)).1
  obtain ⟨parents, tips⟩ := g'
  obtain rfl : parents = (g.store x ps).parents := hParents
  refine ⟨⟨hAcyclic.irrefl, hAcyclic.closed⟩, fun y => ?_⟩
  show y ∈ tips ↔ (g.store x ps).Mem y ∧ ∀ child, ¬(g.store x ps).Edge child y
  rw [hTips, h.mem_tips_iff, mem_store]
  simp only [edge_store hNew, not_or, not_and]
  constructor
  · rintro (rfl | ⟨⟨hMem, hUnnamed⟩, hOther⟩)
    · refine ⟨.inl rfl, fun child => ⟨h.not_edge_of_new hNew child, fun _ hOwn => ?_⟩⟩
      have hMem := ((h.mem_tips_iff _).mp (hps _ hOwn)).1
      rw [Mem, hNew] at hMem
      cases hMem
    · exact ⟨.inr hMem, fun child => ⟨hUnnamed child, fun _ => hOther⟩⟩
  · rintro ⟨hMem, hUnnamed⟩
    rcases hMem with rfl | hMem
    · exact .inl rfl
    · exact .inr ⟨⟨hMem, fun child => (hUnnamed child).1⟩, (hUnnamed x).2 rfl⟩

end Growth

end TipGraph
end Prsm.Foundations
