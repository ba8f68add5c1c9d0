import Mathlib.Data.Sym.Sym2
import Mathlib.Tactic

/-!
# Trees of unordered pairs, built layer by layer

A layer is joined neighbour by neighbour until one node is left; an odd node at
the end of a layer moves up unchanged.  When the join only depends on the
unordered pair, the neighbours met on the way up are a proof for a leaf, and the
last node is the root of a binary tree over the leaves.

The join need not be injective.  The results on roots ask that it has no
collision among the pairs that were really joined.
-/

namespace Prsm.Foundations

universe u v

variable {α : Type u} {β : Type v}

section Layers

variable (join : α → α → α)

/-- One round: neighbours are joined. -/
def pairLayer : List α → List α
  | [] => []
  | [a] => [a]
  | a :: b :: rest => join a b :: pairLayer rest

/-- The loop, for at most the given number of rounds. -/
def pairLayers : Nat → List α → List α
  | 0, layer => layer
  | rounds + 1, layer =>
      if 1 < layer.length then pairLayers rounds (pairLayer join layer) else layer

/-- The pairs joined in one round. -/
def layerPairs : List α → List (α × α)
  | a :: b :: rest => (a, b) :: layerPairs rest
  | _ => []

/-- The pairs joined by the loop. -/
def loopPairs : Nat → List α → List (α × α)
  | 0, _ => []
  | rounds + 1, layer =>
      if 1 < layer.length then layerPairs layer ++ loopPairs rounds (pairLayer join layer)
      else []

/-- The neighbour that the node at the index is joined with, if it has one. -/
def siblingAt (layer : List α) (idx : Nat) : Option α :=
  if idx % 2 = 0 then layer[idx + 1]? else layer[idx - 1]?

/-- The neighbours met by the node at the index on its way up. -/
def siblings : Nat → List α → Nat → List α
  | 0, _, _ => []
  | rounds + 1, layer, idx =>
      if 1 < layer.length then
        (siblingAt layer idx).toList ++ siblings rounds (pairLayer join layer) (idx / 2)
      else []

/-- The pairs joined when the neighbours are folded into a node. -/
def foldPairs : List α → α → List (α × α)
  | [], _ => []
  | sibling :: rest, node => (node, sibling) :: foldPairs rest (join node sibling)

end Layers

theorem foldPairs_append_singleton (join : α → α → α) (front : List α) (last node : α) :
    foldPairs join (front ++ [last]) node
      = foldPairs join front node ++ [(front.foldl join node, last)] := by
  induction front generalizing node with
  | nil => rfl
  | cons sibling front ih =>
      show (node, sibling) :: foldPairs join (front ++ [last]) _ = _
      rw [ih]
      rfl

/-! ## What holds of every joined node -/

section Invariant

variable {join : α → α → α} {P : α → Prop} (hJoin : ∀ a b, P (join a b))

theorem forall_layerPairs {layer : List α} (hLayer : ∀ a ∈ layer, P a) :
    ∀ q ∈ layerPairs layer, P q.1 ∧ P q.2 := by
  fun_induction layerPairs layer with
  | case1 a b rest ih =>
      intro q hq
      rcases List.mem_cons.mp hq with rfl | hq
      · exact ⟨hLayer _ (by simp), hLayer _ (by simp)⟩
      · exact ih (fun c hc => hLayer c (by simp [hc])) q hq
  | case2 => simp

include hJoin

theorem forall_pairLayer {layer : List α} (hLayer : ∀ a ∈ layer, P a) :
    ∀ a ∈ pairLayer join layer, P a := by
  fun_induction pairLayer join layer with
  | case1 => simp
  | case2 => exact hLayer
  | case3 a b rest ih =>
      intro c hc
      rcases List.mem_cons.mp hc with rfl | hc
      · exact hJoin a b
      · exact ih (fun d hd => hLayer d (by simp [hd])) c hc

theorem forall_loopPairs {rounds : Nat} {layer : List α} (hLayer : ∀ a ∈ layer, P a) :
    ∀ q ∈ loopPairs join rounds layer, P q.1 ∧ P q.2 := by
  induction rounds generalizing layer with
  | zero => simp [loopPairs]
  | succ rounds ih =>
      intro q hq
      rw [loopPairs] at hq
      split at hq
      · rcases List.mem_append.mp hq with hq | hq
        · exact forall_layerPairs hLayer q hq
        · exact ih (forall_pairLayer hJoin hLayer) q hq
      · cases hq

theorem forall_foldPairs {proof : List α} {node : α} (hNode : P node)
    (hProof : ∀ a ∈ proof, P a) : ∀ q ∈ foldPairs join proof node, P q.1 ∧ P q.2 := by
  induction proof generalizing node with
  | nil => simp [foldPairs]
  | cons sibling rest ih =>
      intro q hq
      rcases List.mem_cons.mp hq with rfl | hq
      · exact ⟨hNode, hProof _ List.mem_cons_self⟩
      · exact ih (hJoin _ _) (fun a ha => hProof a (List.mem_cons_of_mem _ ha)) q hq

end Invariant

/-! ## Lengths -/

section Lengths

variable {join : α → α → α}

theorem length_pairLayer (layer : List α) :
    (pairLayer join layer).length = (layer.length + 1) / 2 := by
  fun_induction pairLayer with
  | case1 => simp
  | case2 => simp
  | case3 a b rest ih =>
      simp only [List.length_cons, ih]
      omega

theorem length_pairLayers {rounds : Nat} {layer : List α} (hSome : layer ≠ [])
    (hRounds : layer.length ≤ rounds + 1) : (pairLayers join rounds layer).length = 1 := by
  have hPos : 0 < layer.length := List.length_pos_iff.mpr hSome
  induction rounds generalizing layer with
  | zero =>
      rw [pairLayers]
      omega
  | succ rounds ih =>
      rw [pairLayers]
      split
      case isTrue hLong =>
          have hNext := @length_pairLayer α join layer
          have hNextPos : 0 < (pairLayer join layer).length := by omega
          exact ih (List.length_pos_iff.mp hNextPos) (by omega) hNextPos
      case isFalse hShort => omega

theorem length_siblings_le (rounds : Nat) (layer : List α) (idx : Nat) :
    (siblings join rounds layer idx).length ≤ rounds := by
  induction rounds generalizing layer idx with
  | zero => exact Nat.le_refl 0
  | succ rounds ih =>
      rw [siblings]
      split
      · have hRest := ih (pairLayer join layer) (idx / 2)
        rw [List.length_append]
        cases siblingAt layer idx <;> simp <;> omega
      · exact Nat.zero_le _

end Lengths

/-! ## Maps that respect the join -/

section Maps

variable {join : α → α → α} {join' : β → β → β} {f : α → β}

theorem map_pairLayer (hJoin : ∀ a b, f (join a b) = join' (f a) (f b)) (layer : List α) :
    (pairLayer join layer).map f = pairLayer join' (layer.map f) := by
  fun_induction pairLayer join layer with
  | case1 => rfl
  | case2 => rfl
  | case3 a b rest ih => rw [List.map_cons, hJoin, ih]; rfl

theorem map_pairLayers (hJoin : ∀ a b, f (join a b) = join' (f a) (f b)) (rounds : Nat)
    (layer : List α) :
    (pairLayers join rounds layer).map f = pairLayers join' rounds (layer.map f) := by
  induction rounds generalizing layer with
  | zero => rfl
  | succ rounds ih =>
      rw [pairLayers, pairLayers, List.length_map, apply_ite (List.map f), ih,
        map_pairLayer hJoin]

end Maps

/-! ## The neighbours of a leaf lead to the last node -/

section Completeness

variable {join : α → α → α} (hComm : ∀ a b, join a b = join b a)

include hComm

theorem getElem?_pairLayer {layer : List α} {idx : Nat} {node : α}
    (hNode : layer[idx]? = some node) :
    (pairLayer join layer)[idx / 2]? = some ((siblingAt layer idx).toList.foldl join node) := by
  fun_induction pairLayer join layer generalizing idx with
  | case1 => cases hNode
  | case2 a =>
      obtain ⟨hIdx, hNode⟩ := List.getElem?_eq_some_iff.mp hNode
      have hZero : idx = 0 := by simpa using hIdx
      subst hZero
      simpa [siblingAt] using hNode
  | case3 a b rest ih =>
      match idx with
      | 0 =>
          have hSame : a = node := by simpa using hNode
          simp [siblingAt, hSame]
      | 1 =>
          have hSame : b = node := by simpa using hNode
          simp [siblingAt, hSame, hComm a node]
      | idx + 2 =>
          have hHalf : (idx + 2) / 2 = idx / 2 + 1 := by omega
          have hSibling : siblingAt (a :: b :: rest) (idx + 2) = siblingAt rest idx := by
            unfold siblingAt
            -- an odd index is at least one, so both sides look at the same place
            split <;> split
            · rfl
            · omega
            · omega
            · rw [show idx + 2 - 1 = (idx - 1) + 2 by omega]
              rfl
          rw [hHalf, List.getElem?_cons_succ, hSibling]
          exact ih (by simpa using hNode)

omit hComm in
theorem head?_of_length_le_one {layer : List α} {idx : Nat} {node : α}
    (hNode : layer[idx]? = some node) (hShort : layer.length ≤ 1) : layer.head? = some node := by
  obtain ⟨hIdx, -⟩ := List.getElem?_eq_some_iff.mp hNode
  have hZero : idx = 0 := by omega
  rw [List.head?_eq_getElem?, ← hNode, hZero]

theorem foldl_siblings {rounds : Nat} {layer : List α} {idx : Nat} {node : α}
    (hNode : layer[idx]? = some node) (hRounds : layer.length ≤ rounds + 1) :
    (pairLayers join rounds layer).head? =
      some ((siblings join rounds layer idx).foldl join node) := by
  induction rounds generalizing layer idx node with
  | zero => exact head?_of_length_le_one hNode hRounds
  | succ rounds ih =>
      rw [pairLayers, siblings]
      split
      case isTrue hLong =>
          have hLength := @length_pairLayer α join layer
          rw [List.foldl_append]
          exact ih (getElem?_pairLayer hComm hNode) (by omega)
      case isFalse hShort => exact head?_of_length_le_one hNode (by omega)

end Completeness

/-! ## The tree -/

/-- A binary tree with its values at the leaves. -/
inductive PairTree (α : Type u)
  | leaf (value : α)
  | pair (left right : PairTree α)

namespace PairTree

def leaves : PairTree α → List α
  | leaf value => [value]
  | pair left right => left.leaves ++ right.leaves

variable (hash : Sym2 α → α)

def root : PairTree α → α
  | leaf value => value
  | pair left right => hash s(left.root, right.root)

/-- The pairs hashed in the tree. -/
def pairs : PairTree α → List (Sym2 α)
  | leaf _ => []
  | pair left right => s(left.root hash, right.root hash) :: (left.pairs ++ right.pairs)

def map (f : α → β) : PairTree α → PairTree β
  | leaf value => leaf (f value)
  | pair left right => pair (left.map f) (right.map f)

@[simp] theorem leaves_map (f : α → β) (tree : PairTree α) :
    (tree.map f).leaves = tree.leaves.map f := by
  induction tree with
  | leaf value => rfl
  | pair left right ihLeft ihRight => rw [map, leaves, leaves, ihLeft, ihRight, List.map_append]

/-- Equal up to exchanging the children of inner nodes. -/
inductive Swapped : PairTree α → PairTree α → Prop
  | leaf (value : α) : Swapped (leaf value) (leaf value)
  | pair {left right left' right' : PairTree α} (hLeft : Swapped left left')
      (hRight : Swapped right right') : Swapped (pair left right) (pair left' right')
  | swap {left right left' right' : PairTree α} (hLeft : Swapped left right')
      (hRight : Swapped right left') : Swapped (pair left right) (pair left' right')
variable {tree other : PairTree α}

theorem Swapped.leaves_perm (h : Swapped tree other) :
    tree.leaves.Perm other.leaves := by
  induction h with
  | leaf value => exact List.Perm.refl _
  | pair _ _ ihLeft ihRight => exact ihLeft.append ihRight
  | swap _ _ ihLeft ihRight => exact (ihLeft.append ihRight).trans List.perm_append_comm

theorem Swapped.root_eq (h : Swapped tree other) :
    tree.root hash = other.root hash := by
  induction h with
  | leaf value => rfl
  | pair _ _ ihLeft ihRight => rw [root, root, ihLeft, ihRight]
  | swap _ _ ihLeft ihRight => rw [root, root, ihLeft, ihRight, Sym2.eq_swap]

theorem Swapped.map (f : α → β) (h : Swapped tree other) :
    Swapped (tree.map f) (other.map f) := by
  induction h with
  | leaf value => exact .leaf (f value)
  | pair _ _ ihLeft ihRight => exact .pair ihLeft ihRight
  | swap _ _ ihLeft ihRight => exact .swap ihLeft ihRight

theorem Swapped.of_map {f : α → β}
    (hInj : ∀ a ∈ tree.leaves, ∀ b ∈ other.leaves, f a = f b → a = b)
    (h : Swapped (tree.map f) (other.map f)) : Swapped tree other := by
  induction tree generalizing other with
  | leaf value =>
      cases other with
      | pair left right => cases h
      | leaf value' =>
          have hSame : f value = f value' :=
            List.singleton_perm_singleton.mp h.leaves_perm
          rw [hInj value (List.mem_singleton_self _) value' (List.mem_singleton_self _) hSame]
          exact .leaf value'
  | pair left right ihLeft ihRight =>
      cases other with
      | leaf value => cases h
      | pair left' right' =>
          have hInjOn : ∀ {t : PairTree α}, t.leaves ⊆ (PairTree.pair left right).leaves →
              ∀ {t' : PairTree α}, t'.leaves ⊆ (PairTree.pair left' right').leaves →
                ∀ a ∈ t.leaves, ∀ b ∈ t'.leaves, f a = f b → a = b :=
            fun hSub _ hSub' a ha b hb => hInj a (hSub ha) b (hSub' hb)
          have hLeft := List.subset_append_left left.leaves right.leaves
          have hRight := List.subset_append_right left.leaves right.leaves
          have hLeft' := List.subset_append_left left'.leaves right'.leaves
          have hRight' := List.subset_append_right left'.leaves right'.leaves
          cases h with
          | pair h₁ h₂ =>
              exact .pair (ihLeft (hInjOn hLeft hLeft') h₁) (ihRight (hInjOn hRight hRight') h₂)
          | swap h₁ h₂ =>
              exact .swap (ihLeft (hInjOn hLeft hRight') h₁) (ihRight (hInjOn hRight hLeft') h₂)

/-- The join of two nodes into the hash of the pair. -/
def joinBy (a b : α) : α := hash s(a, b)

variable {hash}

theorem mem_pairs_pairLayers {rounds : Nat} {layer : List (PairTree α)} {tree : PairTree α}
    (hTree : tree ∈ pairLayers pair rounds layer) {p : Sym2 α} (hPair : p ∈ tree.pairs hash) :
    (∃ t ∈ layer, p ∈ t.pairs hash) ∨
      ∃ q ∈ loopPairs (joinBy hash) rounds (layer.map (root hash)), p = s(q.1, q.2) := by
  -- one round adds the pairs of that round
  have hRound : ∀ {layer : List (PairTree α)} {tree}, tree ∈ pairLayer pair layer →
      p ∈ tree.pairs hash → (∃ t ∈ layer, p ∈ t.pairs hash) ∨
        ∃ q ∈ layerPairs (layer.map (root hash)), p = s(q.1, q.2) := by
    intro layer tree hTree hPair
    fun_induction pairLayer pair layer with
    | case1 => cases hTree
    | case2 t => exact Or.inl ⟨tree, hTree, hPair⟩
    | case3 a b rest ih =>
        rcases List.mem_cons.mp hTree with rfl | hTree
        · rcases List.mem_cons.mp hPair with rfl | hPair
          · exact Or.inr ⟨_, List.mem_cons_self, rfl⟩
          · rcases List.mem_append.mp hPair with hPair | hPair
            · exact Or.inl ⟨a, by simp, hPair⟩
            · exact Or.inl ⟨b, by simp, hPair⟩
        · rcases ih hTree with ⟨t, ht, hPair⟩ | ⟨q, hq, hEq⟩
          · exact Or.inl ⟨t, by simp [ht], hPair⟩
          · exact Or.inr ⟨q, List.mem_cons_of_mem _ hq, hEq⟩
  induction rounds generalizing layer with
  | zero => exact Or.inl ⟨tree, hTree, hPair⟩
  | succ rounds ih =>
      rw [pairLayers] at hTree
      rw [loopPairs, List.length_map]
      split at hTree
      case isFalse => exact Or.inl ⟨tree, hTree, hPair⟩
      case isTrue hLong =>
          rw [if_pos hLong, ← @map_pairLayer _ _ pair (joinBy hash) (root hash) fun _ _ => rfl]
          rcases ih hTree with ⟨t, ht, hPair⟩ | ⟨q, hq, hEq⟩
          · rcases hRound ht hPair with hOld | ⟨q, hq, hEq⟩
            · exact Or.inl hOld
            · exact Or.inr ⟨q, List.mem_append_left _ hq, hEq⟩
          · exact Or.inr ⟨q, List.mem_append_right _ hq, hEq⟩

theorem flatMap_leaves_pairLayers (rounds : Nat) (layer : List (PairTree α)) :
    (pairLayers pair rounds layer).flatMap leaves = layer.flatMap leaves := by
  have hRound : ∀ layer : List (PairTree α),
      (pairLayer pair layer).flatMap leaves = layer.flatMap leaves := by
    intro layer
    fun_induction pairLayer pair layer with
    | case1 => rfl
    | case2 => rfl
    | case3 a b rest ih =>
        rw [List.flatMap_cons, ih, List.flatMap_cons, List.flatMap_cons, leaves,
          List.append_assoc]
  induction rounds generalizing layer with
  | zero => rfl
  | succ rounds ih =>
      rw [pairLayers]
      split
      · rw [ih, hRound]
      · rfl

/-- The tree that the loop builds over the leaves. -/
def ofList (values : List α) : Option (PairTree α) :=
  (pairLayers pair values.length (values.map leaf)).head?

theorem ofList_map (f : α → β) (values : List α) :
    ofList (values.map f) = (ofList values).map (map f) := by
  have hLeaves : (values.map f).map leaf = (values.map leaf).map (map f) := by
    rw [List.map_map, List.map_map]
    rfl
  rw [ofList, hLeaves, List.length_map,
    ← @map_pairLayers _ _ pair pair (map f) (fun _ _ => rfl), List.head?_map]
  rfl

theorem leaves_of_ofList {values : List α} {tree : PairTree α}
    (hTree : ofList values = some tree) : tree.leaves = values := by
  have hLeaves : (values.map leaf).flatMap leaves = values := by
    rw [List.flatMap_map]
    exact List.flatMap_singleton' values
  have hKept := flatMap_leaves_pairLayers values.length (values.map leaf)
  have hShort : (pairLayers pair values.length (values.map leaf)).length ≤ 1 := by
    by_cases hSome : values.map (@leaf α) = []
    · rw [List.map_eq_nil_iff.mp hSome]
      exact Nat.zero_le 1
    · exact (length_pairLayers hSome (by simp)).le
  rw [ofList] at hTree
  match hLayers : pairLayers pair values.length (values.map leaf) with
  | [] => simp [hLayers] at hTree
  | [top] =>
      have hTop : top = tree := by simpa [hLayers] using hTree
      rw [hLayers, hLeaves, hTop] at hKept
      simpa using hKept
  | _ :: _ :: _ => simp [hLayers] at hShort

/-- The node that the loop ends with is the root of the tree, which has the given
leaves in order and hashes no other pairs than the loop. -/
theorem ofList_spec {values : List α} (hSome : values ≠ []) :
    ∃ tree : PairTree α, ofList values = some tree ∧ tree.leaves = values ∧
      (pairLayers (joinBy hash) values.length values).head? = some (tree.root hash) ∧
      ∀ p ∈ tree.pairs hash,
        ∃ q ∈ loopPairs (joinBy hash) values.length values, p = s(q.1, q.2) := by
  have hRoots : (values.map leaf).map (root hash) = values := by
    rw [List.map_map]
    exact List.map_id _
  have hNonempty : values.map (@leaf α) ≠ [] := by simpa using hSome
  have hOne := @length_pairLayers _ pair values.length _ hNonempty (by simp)
  obtain ⟨tree, hTree⟩ := List.length_eq_one_iff.mp hOne
  have hOf : ofList values = some tree := by rw [ofList, hTree, List.head?_cons]
  refine ⟨tree, hOf, leaves_of_ofList hOf, ?_, ?_⟩
  · have hMap := @map_pairLayers _ _ pair (joinBy hash) (root hash) (fun _ _ => rfl)
      values.length (values.map leaf)
    rw [hTree, hRoots] at hMap
    rw [← hMap]
    rfl
  · intro p hPair
    have hMem : tree ∈ pairLayers pair values.length (values.map leaf) := by
      rw [hTree]
      exact List.mem_singleton_self tree
    rcases mem_pairs_pairLayers hMem hPair with ⟨t, ht, hPair⟩ | ⟨q, hq, hEq⟩
    · -- a leaf hashes no pair
      obtain ⟨value, -, rfl⟩ := List.mem_map.mp ht
      cases hPair
    · rw [hRoots] at hq
      exact ⟨q, hq, hEq⟩

/-! ## What a root determines

`hashed` holds the pairs in question.  The hash has no collision among them, and
no leaf is the hash of one of them. -/

section Roots

variable {hashed : Set (Sym2 α)} (hInj : Set.InjOn hash hashed)

include hInj

/-- A fold that reaches the root started at a leaf.  The induction peels the last
sibling off, which is the one next to the root. -/
theorem mem_leaves_of_foldl {tree : PairTree α} {proof : List α} {value : α}
    (hTree : ∀ p ∈ tree.pairs hash, p ∈ hashed)
    (hProof : ∀ q ∈ foldPairs (joinBy hash) proof value, s(q.1, q.2) ∈ hashed)
    (hLeaves : ∀ v ∈ tree.leaves, ∀ p ∈ hashed, hash p ≠ v)
    (hValue : ∀ p ∈ hashed, hash p ≠ value)
    (hRoot : proof.foldl (joinBy hash) value = tree.root hash) : value ∈ tree.leaves := by
  induction proof using List.reverseRecOn generalizing tree with
  | nil =>
      have hSame : value = tree.root hash := hRoot
      cases tree with
      | leaf v => exact List.mem_singleton.mpr hSame
      | pair left right => exact absurd hSame.symm (hValue _ (hTree _ List.mem_cons_self))
  | append_singleton front last ih =>
      rw [foldPairs_append_singleton] at hProof
      rw [List.foldl_append] at hRoot
      have hLast := hProof _ (List.mem_append_right _ (List.mem_singleton_self _))
      have hFront : ∀ q ∈ foldPairs (joinBy hash) front value, s(q.1, q.2) ∈ hashed :=
        fun q hq => hProof q (List.mem_append_left _ hq)
      cases tree with
      | leaf v => exact absurd hRoot (hLeaves v (List.mem_singleton_self v) _ hLast)
      | pair left right =>
          have hPair := hInj hLast (hTree _ List.mem_cons_self) hRoot
          -- the node below the root is one of its two children
          rcases Sym2.eq_iff.mp hPair with ⟨hLeft, -⟩ | ⟨hRight, -⟩
          · exact List.mem_append_left _ (ih
              (fun p hp => hTree p (List.mem_cons_of_mem _ (List.mem_append_left _ hp))) hFront
              (fun v hv => hLeaves v (List.mem_append_left _ hv)) hLeft)
          · exact List.mem_append_right _ (ih
              (fun p hp => hTree p (List.mem_cons_of_mem _ (List.mem_append_right _ hp))) hFront
              (fun v hv => hLeaves v (List.mem_append_right _ hv)) hRight)

theorem swapped_of_root_eq {tree other : PairTree α}
    (hTree : ∀ p ∈ tree.pairs hash, p ∈ hashed) (hOther : ∀ p ∈ other.pairs hash, p ∈ hashed)
    (hLeaves : ∀ v ∈ tree.leaves, ∀ p ∈ hashed, hash p ≠ v)
    (hOtherLeaves : ∀ v ∈ other.leaves, ∀ p ∈ hashed, hash p ≠ v)
    (hRoot : tree.root hash = other.root hash) : Swapped tree other := by
  induction tree generalizing other with
  | leaf value =>
      cases other with
      | leaf v =>
          have hSame : value = v := hRoot
          exact hSame ▸ .leaf value
      | pair left right =>
          exact absurd hRoot.symm
            (hLeaves value (List.mem_singleton_self value) _ (hOther _ List.mem_cons_self))
  | pair left right ihLeft ihRight =>
      cases other with
      | leaf v =>
          exact absurd hRoot
            (hOtherLeaves v (List.mem_singleton_self v) _ (hTree _ List.mem_cons_self))
      | pair left' right' =>
          have hPair := hInj (hTree _ List.mem_cons_self) (hOther _ List.mem_cons_self) hRoot
          have hL : ∀ p ∈ left.pairs hash, p ∈ hashed := fun p hp =>
            hTree p (List.mem_cons_of_mem _ (List.mem_append_left _ hp))
          have hR : ∀ p ∈ right.pairs hash, p ∈ hashed := fun p hp =>
            hTree p (List.mem_cons_of_mem _ (List.mem_append_right _ hp))
          have hL' : ∀ p ∈ left'.pairs hash, p ∈ hashed := fun p hp =>
            hOther p (List.mem_cons_of_mem _ (List.mem_append_left _ hp))
          have hR' : ∀ p ∈ right'.pairs hash, p ∈ hashed := fun p hp =>
            hOther p (List.mem_cons_of_mem _ (List.mem_append_right _ hp))
          have hLL := fun v hv => hLeaves v (List.mem_append_left right.leaves hv)
          have hLR := fun v hv => hLeaves v (List.mem_append_right left.leaves hv)
          have hLL' := fun v hv => hOtherLeaves v (List.mem_append_left right'.leaves hv)
          have hLR' := fun v hv => hOtherLeaves v (List.mem_append_right left'.leaves hv)
          rcases Sym2.eq_iff.mp hPair with ⟨hLeft, hRight⟩ | ⟨hLeft, hRight⟩
          · exact .pair (ihLeft hL hL' hLL hLL' hLeft) (ihRight hR hR' hLR hLR' hRight)
          · -- the children changed places
            exact .swap (ihLeft hL hR' hLL hLR' hLeft) (ihRight hR hL' hLR hLL' hRight)

end Roots

end PairTree

end Prsm.Foundations
