import Prsm.Storage.Sha256

/-!
# Merkle proofs over the chunks of a shard

The leaves are the digests of the chunks, padded with zero digests to a power of two.  An
inner node is the digest of its two children in a row.  The loops of `MerkleTree` and of
`verify_merkle_proof` are modelled as they stand, and connected to paths in a perfect hash
tree.
-/

namespace Prsm.Storage

open Foundations
open Evm (Bytes)

def emptyLeaf : Bytes := List.replicate 32 0

/-- The loop that doubles the target until it reaches the number of leaves. -/
def paddedCount : ℕ → ℕ → ℕ → ℕ
  | 0, target, _ => target
  | rounds + 1, target, count =>
      if target < count then paddedCount rounds (target * 2) count else target

structure MerkleTree where
  levels : List (List Bytes)
  leafCount : ℕ
  deriving DecidableEq

section Tree

variable (sha : Sha256)

/-- The digests of the chunks, with the padding. -/
def leafDigests (chunks : List Bytes) : List Bytes :=
  chunks.map sha.digest ++
    List.replicate (paddedCount chunks.length 1 chunks.length - chunks.length) emptyLeaf

/-- The digests of the neighbours.  The lengths are powers of two, so that no node is the
odd one out. -/
def levelAbove (level : List Bytes) : List Bytes :=
  pairLayer (joined sha.digest fun a b => a ++ b) level

/-- The loop that builds up while the last level has more than one node. -/
def buildLevels : ℕ → List Bytes → List (List Bytes)
  | 0, level => [level]
  | rounds + 1, level =>
      if 1 < level.length then level :: buildLevels rounds (levelAbove sha level) else [level]

/-- `MerkleTree(chunks)`, which raises where there is no chunk. -/
def MerkleTree.ofChunks (chunks : List Bytes) : Option MerkleTree :=
  if chunks = [] then none
  else
    let leaves := leafDigests sha chunks
    some ⟨buildLevels sha leaves.length leaves, paddedCount chunks.length 1 chunks.length⟩

def MerkleTree.root (tree : MerkleTree) : Option Bytes :=
  tree.levels.getLast?.bind List.head?

/-- The loop over the levels below the root, from a leaf up. -/
def pathFrom : List (List Bytes) → ℕ → Option (List Bytes)
  | [], _ => some []
  | level :: rest, idx => do
      let sibling ← level[idx ^^^ 1]?
      let path ← pathFrom rest (idx / 2)
      pure (sibling :: path)

def MerkleTree.proof (tree : MerkleTree) (leafIndex : ℤ) : Option (List Bytes) :=
  if leafIndex < 0 ∨ tree.leafCount ≤ leafIndex then none
  else pathFrom tree.levels.dropLast leafIndex.toNat

/-- The loop of `verify_merkle_proof` over the siblings. -/
def foldProof : Bytes → ℤ → List Bytes → Bytes
  | digest, _, [] => digest
  | digest, idx, sibling :: rest =>
      if idx % 2 = 0 then foldProof (sha.digest (digest ++ sibling)) (idx / 2) rest
      else foldProof (sha.digest (sibling ++ digest)) (idx / 2) rest

def verifyMerkleProof (leaf : Bytes) (proof : List Bytes) (leafIndex : ℤ) (root : Bytes) : Bool :=
  foldProof sha (sha.digest leaf) leafIndex proof = root

end Tree

/-! ## The loops and the tree -/

theorem paddedCount_pow (rounds k count : ℕ) : ∃ m, paddedCount rounds (2 ^ k) count = 2 ^ m := by
  induction rounds generalizing k with
  | zero => exact ⟨k, rfl⟩
  | succ rounds ih =>
      rw [paddedCount]
      split
      · rw [← pow_succ]
        exact ih (k + 1)
      · exact ⟨k, rfl⟩

variable {rounds k : ℕ} {chunks : List Bytes} {sha : Sha256}

theorem le_paddedCount {count : ℕ} (h : count ≤ 2 ^ (k + rounds)) :
    count ≤ paddedCount rounds (2 ^ k) count := by
  induction rounds generalizing k with
  | zero => exact h
  | succ rounds ih =>
      rw [paddedCount]
      split
      · rw [← pow_succ]
        apply ih
        rw [show k + 1 + rounds = k + (rounds + 1) by omega]
        exact h
      · omega

theorem length_leafDigests (sha : Sha256) (chunks : List Bytes) :
    (leafDigests sha chunks).length = paddedCount chunks.length 1 chunks.length := by
  have hLe : chunks.length ≤ paddedCount chunks.length (2 ^ 0) chunks.length := by
    apply le_paddedCount
    rw [Nat.zero_add]
    exact Nat.lt_two_pow_self.le
  rw [pow_zero] at hLe
  rw [leafDigests, List.length_append, List.length_map, List.length_replicate]
  omega

theorem exists_height (sha : Sha256) (chunks : List Bytes) :
    ∃ height, (leafDigests sha chunks).length = 2 ^ height := by
  rw [length_leafDigests]
  exact paddedCount_pow chunks.length 0 chunks.length

theorem length_le_leafDigests (sha : Sha256) (chunks : List Bytes) :
    chunks.length ≤ (leafDigests sha chunks).length := by
  rw [leafDigests, List.length_append, List.length_map]
  omega

theorem getElem?_leafDigests (sha : Sha256) {i : ℕ} {chunk : Bytes}
    (h : chunks[i]? = some chunk) : (leafDigests sha chunks)[i]? = some (sha.digest chunk) := by
  obtain ⟨hIdx, -⟩ := List.getElem?_eq_some_iff.mp h
  rw [leafDigests, List.getElem?_append_left (by simpa using hIdx), List.getElem?_map, h]
  rfl

theorem leafDigests_ne_nil (sha : Sha256) (h : chunks ≠ []) :
    leafDigests sha chunks ≠ [] := by
  intro hNil
  rw [leafDigests, List.append_eq_nil_iff, List.map_eq_nil_iff] at hNil
  exact h hNil.1

theorem length_of_mem_leafDigests :
    ∀ leaf ∈ leafDigests sha chunks, leaf.length = 32 := by
  intro leaf hLeaf
  rw [leafDigests] at hLeaf
  rcases List.mem_append.mp hLeaf with hLeaf | hLeaf
  · obtain ⟨chunk, -, rfl⟩ := List.mem_map.mp hLeaf
    exact sha.length_digest chunk
  · rw [(List.mem_replicate.mp hLeaf).2]
    rfl

theorem foldProof_eq (sha : Sha256) (digest : Bytes) (idx : ℤ) (proof : List Bytes) :
    foldProof sha digest idx proof =
      climb sha.digest (fun a b => a ++ b) (stepsAt idx proof) digest := by
  induction proof generalizing digest idx with
  | nil => rfl
  | cons sibling rest ih =>
      rw [foldProof, ih, ih, stepsAt, climb_cons]
      rcases Int.emod_two_eq_zero_or_one idx with h | h <;> simp [stepString, h]

theorem buildLevels_getLast? (sha : Sha256) (rounds : ℕ) (level : List Bytes) :
    (buildLevels sha rounds level).getLast? =
      some (pairLayers (joined sha.digest fun a b => a ++ b) rounds level) := by
  induction rounds generalizing level with
  | zero => rfl
  | succ rounds ih =>
      rw [buildLevels, pairLayers]
      split
      · rw [List.getLast?_cons, ih]
        rfl
      · rfl

theorem length_levelAbove (sha : Sha256) (level : List Bytes) :
    (levelAbove sha level).length = (level.length + 1) / 2 :=
  length_pairLayer level

theorem length_buildLevels {level : List Bytes}
    (hLength : level.length = 2 ^ k) (hRounds : k ≤ rounds) :
    (buildLevels sha rounds level).length = k + 1 := by
  induction rounds generalizing k level with
  | zero =>
      obtain rfl : k = 0 := by omega
      rfl
  | succ rounds ih =>
      rw [buildLevels]
      cases k with
      | zero =>
          rw [if_neg (by simp [hLength])]
          rfl
      | succ k =>
          have hPos := Nat.two_pow_pos k
          have hHalf := length_levelAbove sha level
          rw [pow_succ] at hLength
          rw [if_pos (by omega), List.length_cons, ih (k := k) (by omega) (by omega)]

theorem exists_pathFrom {idx : ℕ} {level : List Bytes} {node : Bytes}
    (hLength : level.length = 2 ^ k) (hRounds : k ≤ rounds) (hNode : level[idx]? = some node) :
    ∃ path, pathFrom (buildLevels sha rounds level).dropLast idx = some path ∧
      (pairLayers (joined sha.digest fun a b => a ++ b) rounds level).head? =
        some (foldProof sha node idx path) := by
  obtain ⟨hIdx, -⟩ := List.getElem?_eq_some_iff.mp hNode
  induction rounds generalizing k idx level node with
  | zero =>
      obtain rfl : k = 0 := by omega
      exact ⟨[], rfl, head?_of_length_le_one hNode hLength.le⟩
  | succ rounds ih =>
      rw [buildLevels, pairLayers]
      cases k with
      | zero =>
          rw [if_neg (by simp [hLength]), if_neg (by simp [hLength])]
          exact ⟨[], rfl, head?_of_length_le_one hNode (by simp [hLength])⟩
      | succ k =>
          have hPos := Nat.two_pow_pos k
          have hHalf := @length_pairLayer _ (joined sha.digest fun a b => a ++ b) level
          rw [pow_succ] at hLength
          rw [if_pos (by omega), if_pos (by omega)]
          have hSiblingLt : siblingIndex idx < level.length := by
            apply siblingIndex_lt hIdx
            omega
          obtain ⟨sibling, hSibling⟩ : ∃ sibling, level[siblingIndex idx]? = some sibling :=
            ⟨_, List.getElem?_eq_getElem hSiblingLt⟩
          have hParent :=
            getElem?_pairLayer_sibling sha.digest (fun a b => a ++ b) hNode hSibling
          obtain ⟨path, hPath, hRoot⟩ := ih (k := k) (by omega) (by omega) hParent (by omega)
          have hSome : buildLevels sha rounds (levelAbove sha level) ≠ [] := by
            intro hNil
            have hLast := buildLevels_getLast? sha rounds (levelAbove sha level)
            rw [hNil] at hLast
            cases hLast
          refine ⟨sibling :: path, ?_, ?_⟩
          · have hRest : pathFrom (buildLevels sha rounds (levelAbove sha level)).dropLast
                (idx / 2) = some path := hPath
            rw [List.dropLast_cons_of_ne_nil hSome, pathFrom, xor_one, hSibling, hRest]
            rfl
          · rw [hRoot, foldProof]
            congr 1
            have hCast : ((idx / 2 : ℕ) : ℤ) = (idx : ℤ) / 2 := by push_cast; rfl
            rw [hCast]
            rcases Nat.mod_two_eq_zero_or_one idx with h | h
            · rw [if_pos (by omega)]
              simp [stepString, h]
            · rw [if_neg (by omega)]
              simp [stepString, h]

theorem MerkleTree.root_ofChunks {tree : MerkleTree}
    (hTree : MerkleTree.ofChunks sha chunks = some tree) :
    ∃ hashes : PairTree Bytes, PairTree.ofList (leafDigests sha chunks) = some hashes ∧
      hashes.leaves = leafDigests sha chunks ∧
      hashes.IsPerfect (tree.levels.length - 1) ∧
      tree.root = some (hashes.digest sha.digest fun a b => a ++ b) := by
  unfold MerkleTree.ofChunks at hTree
  split at hTree
  · cases hTree
  · next hSome =>
    obtain rfl := Option.some.inj hTree
    obtain ⟨hashes, hOf, hLeaves, hHead⟩ := PairTree.ofList_digest sha.digest (fun a b => a ++ b)
      (leafDigests_ne_nil sha hSome)
    obtain ⟨height, hHeight⟩ := exists_height sha chunks
    have hRounds : height ≤ (leafDigests sha chunks).length := by
      rw [hHeight]
      exact Nat.lt_two_pow_self.le
    refine ⟨hashes, hOf, hLeaves, ?_, ?_⟩
    · rw [length_buildLevels hHeight hRounds]
      exact PairTree.isPerfect_ofList hOf hHeight
    · rw [MerkleTree.root, buildLevels_getLast?]
      exact hHead

theorem verify_proof_of_chunk {tree : MerkleTree} {i : ℕ}
    {chunk root : Bytes} (hTree : MerkleTree.ofChunks sha chunks = some tree)
    (hRoot : tree.root = some root) (hChunk : chunks[i]? = some chunk) :
    ∃ proof, tree.proof i = some proof ∧ verifyMerkleProof sha chunk proof i root = true := by
  obtain ⟨hIdx, -⟩ := List.getElem?_eq_some_iff.mp hChunk
  unfold MerkleTree.ofChunks at hTree
  split at hTree
  · cases hTree
  · obtain rfl := Option.some.inj hTree
    obtain ⟨height, hHeight⟩ := exists_height sha chunks
    have hRounds : height ≤ (leafDigests sha chunks).length := by
      rw [hHeight]
      exact Nat.lt_two_pow_self.le
    obtain ⟨proof, hProof, hHead⟩ :=
      exists_pathFrom hHeight hRounds (getElem?_leafDigests sha hChunk)
    have hCount := length_le_leafDigests sha chunks
    rw [length_leafDigests] at hCount
    have hRange : ¬((i : ℤ) < 0 ∨ (paddedCount chunks.length 1 chunks.length : ℤ) ≤ i) := by
      omega
    refine ⟨proof, ?_, ?_⟩
    · rw [MerkleTree.proof, if_neg hRange, Int.toNat_natCast]
      exact hProof
    · rw [MerkleTree.root, buildLevels_getLast?] at hRoot
      rw [verifyMerkleProof, decide_eq_true_eq]
      exact Option.some.inj (hHead.symm.trans hRoot)

end Prsm.Storage
