import Prsm.Foundations.Lists
import Prsm.Foundations.PairTree
import Prsm.Registry.Operations
import Prsm.Settlement.Receipt

/-!
# Building the Merkle root of a batch

The off-chain builder hashes its layer pairwise until one node is left.  An odd
node at the end of a layer moves up unchanged.  The proof for a leaf lists the
neighbours met on its way up, and the contracts fold them back into the root.
-/

namespace Prsm.Settlement

open Foundations Evm

variable (keccak256 : Keccak)

/-- One round of the loop of `build_merkle_root`. -/
def nextLayer : List Bytes32 → List Bytes32
  | [] => []
  | [node] => [node]
  | a :: b :: rest => MerkleProof.hashPair keccak256 a b :: nextLayer rest

/-- The loop, for at most the given number of rounds. -/
def reduceLayers : Nat → List Bytes32 → List Bytes32
  | 0, layer => layer
  | rounds + 1, layer =>
      if 1 < layer.length then reduceLayers rounds (nextLayer keccak256 layer) else layer

/-- `build_merkle_root`, with `none` where it raises.  Each round shortens the
layer, so as many rounds as there are leaves complete the loop. -/
def buildMerkleRoot (leafHashes : List Bytes32) : Option Bytes32 :=
  (reduceLayers keccak256 leafHashes.length leafHashes).head?

/-- `build_merkle_proof`, with `none` where it raises. -/
def buildMerkleProof (leafHashes : List Bytes32) (leafIndex : Int) : Option (List Bytes32) :=
  if leafHashes = [] then none
  else if leafIndex < 0 ∨ (leafHashes.length : Int) ≤ leafIndex then none
  else
    some (siblings (MerkleProof.hashPair keccak256) leafHashes.length leafHashes leafIndex.toNat)

/-- `hash_leaf(batched_receipt_to_leaf(br))`. -/
def leafHash (br : BatchedReceipt) : Option Bytes32 :=
  (batchedReceiptToLeaf keccak256 br).map (Registry.hashLeaf keccak256)

variable {keccak256}

theorem mapM_leafHash (receipts : List BatchedReceipt) :
    receipts.mapM (leafHash keccak256) =
      (receipts.mapM (batchedReceiptToLeaf keccak256)).map
        (List.map (Registry.hashLeaf keccak256)) :=
  mapM_map _ _ receipts

theorem nextLayer_eq_pairLayer (layer : List Bytes32) :
    nextLayer keccak256 layer = pairLayer (MerkleProof.hashPair keccak256) layer := by
  fun_induction nextLayer with
  | case1 => rfl
  | case2 => rfl
  | case3 a b rest ih => rw [ih, pairLayer]

theorem reduceLayers_eq_pairLayers (rounds : Nat) (layer : List Bytes32) :
    reduceLayers keccak256 rounds layer
      = pairLayers (MerkleProof.hashPair keccak256) rounds layer := by
  induction rounds generalizing layer with
  | zero => rfl
  | succ rounds ih => rw [reduceLayers, pairLayers, ih, nextLayer_eq_pairLayer]

theorem buildMerkleRoot_eq (leafHashes : List Bytes32) :
    buildMerkleRoot keccak256 leafHashes
      = (pairLayers (MerkleProof.hashPair keccak256) leafHashes.length leafHashes).head? := by
  rw [buildMerkleRoot, reduceLayers_eq_pairLayers]

theorem buildMerkleRoot_isSome_iff (leafHashes : List Bytes32) :
    (buildMerkleRoot keccak256 leafHashes).isSome ↔ leafHashes ≠ [] := by
  rw [buildMerkleRoot_eq]
  constructor
  · rintro h rfl
    simp [pairLayers] at h
  · intro hSome
    have hOne := @length_pairLayers _ (MerkleProof.hashPair keccak256) _ _ hSome (Nat.le_succ _)
    obtain ⟨root, hRoot⟩ := List.length_eq_one_iff.mp hOne
    simp [hRoot]

theorem hashPair_comm (a b : Bytes32) :
    MerkleProof.hashPair keccak256 a b = MerkleProof.hashPair keccak256 b a := by
  unfold MerkleProof.hashPair
  rcases lt_trichotomy a b with hLt | rfl | hGt
  · rw [if_pos hLt, if_neg hLt.asymm]
  · rfl
  · rw [if_neg hGt.asymm, if_pos hGt]

theorem buildMerkleProof_natCast {leafHashes : List Bytes32} {i : Nat}
    (hi : i < leafHashes.length) : buildMerkleProof keccak256 leafHashes i =
      some (siblings (MerkleProof.hashPair keccak256) leafHashes.length leafHashes i) := by
  have hSome : leafHashes ≠ [] := List.ne_nil_of_length_pos (Nat.zero_lt_of_lt hi)
  have hRange : ¬ ((i : Int) < 0 ∨ (leafHashes.length : Int) ≤ i) := by omega
  rw [buildMerkleProof, if_neg hSome, if_neg hRange, Int.toNat_natCast]

theorem verify_buildMerkleProof {leafHashes : List Bytes32} {i : Nat} {leaf root : Bytes32}
    (hLeaf : leafHashes[i]? = some leaf)
    (hRoot : buildMerkleRoot keccak256 leafHashes = some root) :
    ∃ proof, buildMerkleProof keccak256 leafHashes i = some proof ∧
      proof.length ≤ leafHashes.length ∧
      MerkleProof.verify keccak256 proof root leaf = true := by
  obtain ⟨hi, -⟩ := List.getElem?_eq_some_iff.mp hLeaf
  have hFold := foldl_siblings (@hashPair_comm keccak256) hLeaf (Nat.le_succ leafHashes.length)
  rw [← buildMerkleRoot_eq, hRoot] at hFold
  exact ⟨_, buildMerkleProof_natCast hi, length_siblings_le _ _ _,
    decide_eq_true (Option.some.inj hFold).symm⟩

end Prsm.Settlement
