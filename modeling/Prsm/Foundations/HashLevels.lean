import Prsm.Foundations.HashPath

/-!
# Hash trees built level by level

A level is joined neighbour by neighbour, in order.  The parent of a node is the digest of
the node and its sibling, or the node itself where it is the odd one out.  Over a power of
two of leaves the tree is perfect, and the bits of an index lead to the leaf with that
number.
-/

namespace Prsm.Foundations

universe u v

variable {α : Type u} {β : Type v}

/-- The index of the neighbour that a node is joined with. -/
def siblingIndex (idx : ℕ) : ℕ :=
  if idx % 2 = 0 then idx + 1 else idx - 1

theorem xor_one (idx : ℕ) : idx ^^^ 1 = siblingIndex idx := by
  apply Nat.eq_of_testBit_eq
  intro i
  rw [Nat.testBit_xor]
  cases i with
  | zero =>
      rw [Nat.testBit_zero, Nat.testBit_zero, Nat.testBit_zero, siblingIndex]
      split <;> rcases Nat.mod_two_eq_zero_or_one idx with h | h <;> simp [h] <;> omega
  | succ i =>
      rw [Nat.testBit_succ, Nat.testBit_succ, Nat.testBit_succ, siblingIndex]
      have hHalf : (if idx % 2 = 0 then idx + 1 else idx - 1) / 2 = idx / 2 := by
        split <;> omega
      rw [hHalf]
      simp

theorem siblingIndex_add_two (idx : ℕ) : siblingIndex (idx + 2) = siblingIndex idx + 2 := by
  unfold siblingIndex
  split <;> split <;> omega

section Levels

variable (hash : β → α) (pre : α → α → β)

/-- The digest of two nodes in order. -/
def joined (a b : α) : α := hash (pre a b)

variable {idx rounds : ℕ}
variable {layer : List α}

theorem getElem?_pairLayer_sibling {node sibling : α}
    (hNode : layer[idx]? = some node) (hSibling : layer[siblingIndex idx]? = some sibling) :
    (pairLayer (joined hash pre) layer)[idx / 2]? =
      some (hash (stepString pre node (decide (idx % 2 = 1), sibling))) := by
  fun_induction pairLayer (joined hash pre) layer generalizing idx with
  | case1 => cases hNode
  | case2 a =>
      obtain ⟨hIdx, -⟩ := List.getElem?_eq_some_iff.mp hNode
      obtain ⟨hIdx', -⟩ := List.getElem?_eq_some_iff.mp hSibling
      simp only [List.length_cons, List.length_nil, siblingIndex] at hIdx hIdx'
      split at hIdx' <;> omega
  | case3 a b rest ih =>
      obtain _ | _ | idx := idx
      · obtain rfl : a = node := by simpa using hNode
        obtain rfl : b = sibling := by simpa [siblingIndex] using hSibling
        simp [joined, stepString]
      · obtain rfl : b = node := by simpa using hNode
        obtain rfl : a = sibling := by simpa [siblingIndex] using hSibling
        simp [joined, stepString]
      · rw [siblingIndex_add_two] at hSibling
        rw [show (idx + 2) / 2 = idx / 2 + 1 by omega, show (idx + 2) % 2 = idx % 2 by omega,
          List.getElem?_cons_succ]
        exact ih (by simpa using hNode) (by simpa using hSibling)

variable (join : α → α → α)

theorem getElem?_pairLayer_last (hEven : idx % 2 = 0)
    (hLast : idx + 1 = layer.length) : (pairLayer join layer)[idx / 2]? = layer[idx]? := by
  fun_induction pairLayer join layer generalizing idx with
  | case1 => simp at hLast
  | case2 a =>
      obtain rfl : idx = 0 := by simpa using hLast
      rfl
  | case3 a b rest ih =>
      simp only [List.length_cons] at hLast
      obtain ⟨k, rfl⟩ : ∃ k, idx = k + 2 := ⟨idx - 2, by omega⟩
      rw [show (k + 2) / 2 = k / 2 + 1 by omega, List.getElem?_cons_succ, ih (by omega) (by omega)]
      rfl

theorem siblingIndex_lt {n : ℕ} (hIdx : idx < n) (hPaired : ¬(idx % 2 = 0 ∧ idx + 1 = n)) :
    siblingIndex idx < n := by
  unfold siblingIndex
  split <;> omega

theorem PairTree.ofList_digest {values : List α} (hSome : values ≠ []) :
    ∃ tree : PairTree α, ofList values = some tree ∧ tree.leaves = values ∧
      (pairLayers (joined hash pre) values.length values).head? =
        some (tree.digest hash pre) := by
  have hNonempty : values.map (@leaf α) ≠ [] := by simpa using hSome
  have hOne := @length_pairLayers _ pair values.length _ hNonempty (by simp)
  obtain ⟨tree, hTree⟩ := List.length_eq_one_iff.mp hOne
  have hOf : ofList values = some tree := by rw [ofList, hTree, List.head?_cons]
  have hRoots : (values.map leaf).map (digest hash pre) = values := by
    rw [List.map_map]
    exact List.map_id _
  have hMap := @map_pairLayers _ _ pair (joined hash pre) (digest hash pre) (fun _ _ => rfl)
    values.length (values.map leaf)
  rw [hTree, hRoots] at hMap
  refine ⟨tree, hOf, leaves_of_ofList hOf, ?_⟩
  rw [← hMap]
  rfl

/-- The strings hashed by the loop over the levels. -/
def loopStrings (rounds : ℕ) (layer : List α) : List β :=
  (loopPairs (joined hash pre) rounds layer).map fun q => pre q.1 q.2

theorem stepString_mem_loopStrings {node sibling : α}
    (hNode : layer[idx]? = some node) (hSibling : layer[siblingIndex idx]? = some sibling) :
    stepString pre node (decide (idx % 2 = 1), sibling) ∈
      loopStrings hash pre (rounds + 1) layer := by
  have hRound : (if idx % 2 = 1 then (sibling, node) else (node, sibling)) ∈ layerPairs layer := by
    fun_induction layerPairs layer generalizing idx with
    | case1 a b rest ih =>
        obtain _ | _ | idx := idx
        · obtain rfl : a = node := by simpa using hNode
          obtain rfl : b = sibling := by simpa [siblingIndex] using hSibling
          simp
        · obtain rfl : b = node := by simpa using hNode
          obtain rfl : a = sibling := by simpa [siblingIndex] using hSibling
          simp
        · rw [siblingIndex_add_two] at hSibling
          rw [show (idx + 2) % 2 = idx % 2 by omega]
          exact List.mem_cons_of_mem _ (ih (by simpa using hNode) (by simpa using hSibling))
    | case2 layer hShort =>
        obtain _ | ⟨a, _ | ⟨b, rest⟩⟩ := layer
        · cases hNode
        · obtain ⟨hIdx, -⟩ := List.getElem?_eq_some_iff.mp hNode
          obtain ⟨hIdx', -⟩ := List.getElem?_eq_some_iff.mp hSibling
          simp only [List.length_cons, List.length_nil, siblingIndex] at hIdx hIdx'
          split at hIdx' <;> omega
        · exact absurd rfl (hShort a b rest)
  have hLong : 1 < layer.length := by
    obtain ⟨hIdx, -⟩ := List.getElem?_eq_some_iff.mp hNode
    obtain ⟨hIdx', -⟩ := List.getElem?_eq_some_iff.mp hSibling
    unfold siblingIndex at hIdx'
    split at hIdx' <;> omega
  rw [loopStrings, loopPairs, if_pos hLong, List.map_append]
  apply List.mem_append_left
  have hMem := List.mem_map_of_mem (f := fun q : α × α => pre q.1 q.2) hRound
  by_cases hOdd : idx % 2 = 1 <;> simpa [stepString, hOdd] using hMem

theorem loopStrings_above (hLong : 1 < layer.length) {b : β}
    (hb : b ∈ loopStrings hash pre rounds (pairLayer (joined hash pre) layer)) :
    b ∈ loopStrings hash pre (rounds + 1) layer := by
  rw [loopStrings, loopPairs, if_pos hLong, List.map_append]
  exact List.mem_append_right _ hb

theorem PairTree.mem_strings_pairLayers {layer : List (PairTree α)}
    {tree : PairTree α} (hTree : tree ∈ pairLayers pair rounds layer) {b : β}
    (hb : b ∈ tree.strings hash pre) :
    (∃ t ∈ layer, b ∈ t.strings hash pre) ∨
      b ∈ loopStrings hash pre rounds (layer.map (digest hash pre)) := by
  -- one round adds the strings of that round
  have hRound : ∀ {layer : List (PairTree α)} {tree}, tree ∈ pairLayer pair layer →
      b ∈ tree.strings hash pre → (∃ t ∈ layer, b ∈ t.strings hash pre) ∨
        ∃ q ∈ layerPairs (layer.map (digest hash pre)), b = pre q.1 q.2 := by
    intro layer tree hTree hb
    fun_induction pairLayer pair layer with
    | case1 => cases hTree
    | case2 t => exact Or.inl ⟨tree, hTree, hb⟩
    | case3 a c rest ih =>
        rcases List.mem_cons.mp hTree with rfl | hTree
        · rcases List.mem_cons.mp hb with rfl | hb
          · exact Or.inr ⟨_, List.mem_cons_self, rfl⟩
          · rcases List.mem_append.mp hb with hb | hb
            · exact Or.inl ⟨a, by simp, hb⟩
            · exact Or.inl ⟨c, by simp, hb⟩
        · rcases ih hTree with ⟨t, ht, hb⟩ | ⟨q, hq, hEq⟩
          · exact Or.inl ⟨t, by simp [ht], hb⟩
          · exact Or.inr ⟨q, List.mem_cons_of_mem _ hq, hEq⟩
  induction rounds generalizing layer with
  | zero => exact Or.inl ⟨tree, hTree, hb⟩
  | succ rounds ih =>
      rw [pairLayers] at hTree
      split at hTree
      case isFalse => exact Or.inl ⟨tree, hTree, hb⟩
      case isTrue hLong =>
          have hLong' : 1 < (layer.map (digest hash pre)).length := by simpa using hLong
          have hMap := @map_pairLayer _ _ pair (joined hash pre) (digest hash pre)
            (fun _ _ => rfl) layer
          rcases ih hTree with ⟨t, ht, hb⟩ | hLater
          · rcases hRound ht hb with hOld | ⟨q, hq, hEq⟩
            · exact Or.inl hOld
            · right
              rw [loopStrings, loopPairs, if_pos hLong', List.map_append, hEq]
              exact List.mem_append_left _ (List.mem_map_of_mem hq)
          · right
            rw [hMap] at hLater
            exact loopStrings_above hash pre hLong' hLater

theorem PairTree.strings_of_ofList {values : List α} {tree : PairTree α}
    (hTree : ofList values = some tree) :
    ∀ b ∈ tree.strings hash pre, b ∈ loopStrings hash pre values.length values := by
  intro b hb
  have hRoots : (values.map leaf).map (digest hash pre) = values := by
    rw [List.map_map]
    exact List.map_id _
  rcases mem_strings_pairLayers hash pre (List.mem_of_mem_head? hTree) hb with
    ⟨t, ht, hb⟩ | hLoop
  · -- nothing is hashed at a leaf
    obtain ⟨value, -, rfl⟩ := List.mem_map.mp ht
    cases hb
  · rw [hRoots] at hLoop
    exact hLoop

end Levels

/-! ## Perfect trees -/

namespace PairTree

/-- All leaves are at the same depth. -/
def IsPerfect : ℕ → PairTree α → Prop
  | 0, leaf _ => True
  | k + 1, pair left right => IsPerfect k left ∧ IsPerfect k right
  | _, _ => False
variable {tree : PairTree α}

theorem IsPerfect.length_leaves {k : ℕ} (h : IsPerfect k tree) :
    tree.leaves.length = 2 ^ k := by
  induction tree generalizing k with
  | leaf value =>
      cases k with
      | zero => rfl
      | succ k => cases h
  | pair left right ihLeft ihRight =>
      cases k with
      | zero => cases h
      | succ k =>
          rw [leaves, List.length_append, ihLeft h.1, ihRight h.2]
          ring

theorem isPerfect_pairLayer {k : ℕ} {layer : List (PairTree α)}
    (hLayer : ∀ t ∈ layer, IsPerfect k t) (hEven : layer.length % 2 = 0) :
    ∀ t ∈ pairLayer pair layer, IsPerfect (k + 1) t := by
  fun_induction pairLayer pair layer with
  | case1 => simp
  | case2 a => simp at hEven
  | case3 a b rest ih =>
      intro t ht
      rcases List.mem_cons.mp ht with rfl | ht
      · exact ⟨hLayer a (by simp), hLayer b (by simp)⟩
      · apply ih (fun t ht => hLayer t (by simp [ht]))
        · simp only [List.length_cons] at hEven
          omega
        · exact ht

theorem isPerfect_pairLayers {k m rounds : ℕ} {layer : List (PairTree α)}
    (hLayer : ∀ t ∈ layer, IsPerfect k t) (hLength : layer.length = 2 ^ m)
    (hRounds : m ≤ rounds) :
    ∀ t ∈ pairLayers pair rounds layer, IsPerfect (k + m) t := by
  induction rounds generalizing k m layer with
  | zero =>
      obtain rfl : m = 0 := by omega
      exact hLayer
  | succ rounds ih =>
      rw [pairLayers]
      cases m with
      | zero =>
          rw [if_neg (by simp [hLength])]
          exact hLayer
      | succ m =>
          have hPos := Nat.two_pow_pos m
          rw [pow_succ] at hLength
          rw [if_pos (by omega)]
          have hHalf := @length_pairLayer _ pair layer
          rw [show k + (m + 1) = k + 1 + m by omega]
          exact ih (isPerfect_pairLayer hLayer (by omega)) (by omega) (by omega)

theorem isPerfect_ofList {values : List α} {k : ℕ}
    (hTree : ofList values = some tree) (hLength : values.length = 2 ^ k) :
    IsPerfect k tree := by
  have hLeaves : ∀ t ∈ values.map leaf, IsPerfect 0 t := by
    intro t ht
    obtain ⟨value, -, rfl⟩ := List.mem_map.mp ht
    trivial
  have hRounds : k ≤ values.length := by
    rw [hLength]
    exact Nat.lt_two_pow_self.le
  have hPerfect := isPerfect_pairLayers hLeaves (by simpa using hLength) hRounds
  rw [Nat.zero_add] at hPerfect
  exact hPerfect tree (List.mem_of_mem_head? hTree)

theorem bits_reverse_succ (k : ℕ) (idx : ℤ) :
    (bits (k + 1) idx).reverse = decide (idx / 2 ^ k % 2 = 1) :: (bits k idx).reverse := by
  rw [bits_add k 1, List.reverse_append]
  rfl

theorem IsPerfect.locate_inner {k len : ℕ} (h : IsPerfect k tree)
    (hLen : len < k) (idx : ℤ) :
    ∃ left right, tree.locate (bits len idx).reverse = (pair left right, 0) := by
  induction len generalizing k tree with
  | zero =>
      cases tree with
      | leaf value =>
          cases k with
          | zero => omega
          | succ k => cases h
      | pair left right => exact ⟨left, right, rfl⟩
  | succ len ih =>
      cases k with
      | zero => omega
      | succ k =>
          cases tree with
          | leaf value => cases h
          | pair left right =>
              rw [bits_reverse_succ, locate_pair_cons]
              have hChild : IsPerfect k
                  (if decide (idx / 2 ^ len % 2 = 1) = true then right else left) := by
                split
                · exact h.2
                · exact h.1
              exact ih hChild (by omega)

theorem IsPerfect.locate_leaf {k : ℕ} (h : IsPerfect k tree) {idx : ℕ}
    (hIdx : idx < 2 ^ k) :
    ∃ value, tree.leaves[idx]? = some value ∧
      tree.locate (bits k idx).reverse = (leaf value, 0) := by
  induction k generalizing tree idx with
  | zero =>
      cases tree with
      | pair left right => cases h
      | leaf value =>
          obtain rfl : idx = 0 := by simpa using hIdx
          exact ⟨value, rfl, rfl⟩
  | succ k ih =>
      cases tree with
      | leaf value => cases h
      | pair left right =>
          have hLength := h.1.length_leaves
          rw [pow_succ] at hIdx
          rw [bits_reverse_succ, locate_pair_cons, leaves]
          by_cases hSide : idx < 2 ^ k
          · have hBit : decide ((idx : ℤ) / 2 ^ k % 2 = 1) = false := by
              have hZero : (idx : ℤ) / 2 ^ k = 0 :=
                Int.ediv_eq_zero_of_lt (by omega) (by exact_mod_cast hSide)
              simp [hZero]
            rw [List.getElem?_append_left (by omega), hBit]
            exact ih h.1 hSide
          · obtain ⟨j, rfl⟩ : ∃ j, idx = j + 2 ^ k := ⟨idx - 2 ^ k, by omega⟩
            have hPow : (0 : ℤ) < 2 ^ k := by positivity
            have hZero : (j : ℤ) / 2 ^ k = 0 :=
              Int.ediv_eq_zero_of_lt (by omega) (by exact_mod_cast (by omega : j < 2 ^ k))
            have hBit : decide (((j + 2 ^ k : ℕ) : ℤ) / 2 ^ k % 2 = 1) = true := by
              push_cast
              rw [Int.add_ediv_of_dvd_right dvd_rfl, hZero, Int.ediv_self hPow.ne']
              rfl
            have hLow : bits k ((j + 2 ^ k : ℕ) : ℤ) = bits k j := by
              have hMul := bits_add_mul k (j : ℤ) 1
              rw [mul_one] at hMul
              exact_mod_cast hMul
            rw [List.getElem?_append_right (by omega), hBit, hLow, hLength,
              show j + 2 ^ k - 2 ^ k = j by omega]
            exact ih h.2 (by omega)

theorem IsPerfect.locate_below {k : ℕ} (h : IsPerfect k tree) {idx d : ℕ}
    (hIdx : idx / 2 ^ d < 2 ^ k) :
    ∃ value, tree.leaves[idx / 2 ^ d]? = some value ∧
      tree.locate (bits (d + k) idx).reverse = (leaf value, d) := by
  obtain ⟨value, hValue, hLocate⟩ := h.locate_leaf hIdx
  refine ⟨value, hValue, ?_⟩
  have hHigh : (idx : ℤ) / 2 ^ d = ((idx / 2 ^ d : ℕ) : ℤ) := by push_cast; rfl
  rw [bits_add, List.reverse_append, hHigh, locate_append hLocate, PairTree.locate_leaf,
    List.length_reverse, length_bits]

end PairTree

end Prsm.Foundations
