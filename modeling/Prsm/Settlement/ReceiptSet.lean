import Prsm.Evm.Abi
import Prsm.Settlement.Merkle

/-!
# Receipt sets against the committed root

An observer fetches the receipts of a batch from an untrusted peer, rebuilds the
Merkle root from them and compares it with the root on the chain.  Up to
collisions of the hash function, the sets that pass are those whose tree is the
committed one with the children of some inner nodes exchanged.  In particular
they hold the committed leaves, each as often as it was committed, and every
such exchange passes.
-/

namespace Prsm.Settlement.ReceiptSet

open Foundations Evm

structure PublishedBatch where
  batchId : Bytes32
  merkleRoot : Bytes32
  commitTimestamp : Int
  receipts : List BatchedReceipt

/-- What `VerifiedBatchCache` keeps of a batch for the detectors. -/
structure VerifiedEntry where
  receipts : List BatchedReceipt
  leafHashes : List Bytes32

variable (keccak256 : Keccak)

/-- `_recompute_root`, with `none` where it raises. -/
def recomputeRoot (receipts : List BatchedReceipt) : Option Bytes32 := do
  let leafHashes ← receipts.mapM (leafHash keccak256)
  buildMerkleRoot keccak256 leafHashes

/-- `verify_receipt_set_against_root`, with `none` where it raises. -/
def verifyReceiptSetAgainstRoot (pb : PublishedBatch) (expectedRoot : Bytes32) : Option Bool :=
  if pb.receipts = [] then some false
  else (recomputeRoot keccak256 pb.receipts).map fun root => decide (root = expectedRoot)

/-- `VerifiedBatchCache.ingest`: what is cached, with `none` for a rejection.  A
check that raises is one. -/
def ingest (merkleRoot : Bytes32) (fetched : PublishedBatch) : Option VerifiedEntry := do
  guard ((verifyReceiptSetAgainstRoot keccak256 fetched merkleRoot).getD false = true)
  let leafHashes ← fetched.receipts.mapM (leafHash keccak256)
  some ⟨fetched.receipts, leafHashes⟩

/-! ## What is hashed -/

/-- The components of a leaf, in the order in which they are encoded. -/
def leafWords (leaf : Registry.ReceiptLeaf) : List Nat :=
  [leaf.jobIdHash, leaf.shardIndex, leaf.providerIdHash, leaf.providerPubkeyHash,
    leaf.outputHash, leaf.executedAtUnix, leaf.valueFtns, leaf.signatureHash,
    leaf.signingMessageHash]

/-- What `hash_leaf` hashes. -/
def leafEncoding (leaf : Registry.ReceiptLeaf) : Bytes := abiEncode (leafWords leaf)

/-- What `_hash_pair` hashes. -/
def pairEncoding (a b : Bytes32) : Bytes :=
  if a < b then abiEncode [a, b] else abiEncode [b, a]

/-- The byte strings hashed on the way from the leaves to the root. -/
def rootPreimages (leaves : List Registry.ReceiptLeaf) : List Bytes :=
  leaves.map leafEncoding ++
    (loopPairs (MerkleProof.hashPair keccak256) leaves.length
      (leaves.map (Registry.hashLeaf keccak256))).map fun q => pairEncoding q.1 q.2

/-- The trees over the two lists are equal up to exchanging the children of inner
nodes. -/
def SameUpToSwaps (leaves others : List Registry.ReceiptLeaf) : Prop :=
  ∃ tree other, PairTree.ofList leaves = some tree ∧ PairTree.ofList others = some other ∧
    tree.Swapped other

theorem SameUpToSwaps.perm {leaves others : List Registry.ReceiptLeaf}
    (h : SameUpToSwaps leaves others) : leaves.Perm others := by
  obtain ⟨tree, other, hTree, hOther, hSwapped⟩ := h
  rw [← PairTree.leaves_of_ofList hTree, ← PairTree.leaves_of_ofList hOther]
  exact hSwapped.leaves_perm

/-! ## Leaves and pairs are told apart by what is hashed for them -/

theorem leafWords_lt (leaf : Registry.ReceiptLeaf) : ∀ x ∈ leafWords leaf, x < 2 ^ 256 := by
  have hNarrow : ∀ {bits : Nat} (x : Uint bits), bits ≤ 256 → x.val < 2 ^ 256 :=
    fun x hBits => x.isLt.trans_le (Nat.pow_le_pow_right (by decide) hBits)
  intro x hMem
  simp only [leafWords, List.mem_cons, List.not_mem_nil, or_false] at hMem
  rcases hMem with rfl | rfl | rfl | rfl | rfl | rfl | rfl | rfl | rfl
  all_goals exact hNarrow _ (by decide)

theorem leafEncoding_injective : Function.Injective leafEncoding := by
  intro leaf other h
  have hWords : leafWords leaf = leafWords other :=
    abiEncode_injective rfl (leafWords_lt leaf) (leafWords_lt other) h
  cases leaf
  cases other
  simpa [leafWords, Fin.val_inj] using hWords

theorem pairEncoding_injective {a b c d : Bytes32} (h : pairEncoding a b = pairEncoding c d) :
    s(a, b) = s(c, d) := by
  have hLt : ∀ x y : Bytes32, ∀ z ∈ [x.val, y.val], z < 2 ^ 256 := by
    intro x y z hMem
    simp only [List.mem_cons, List.not_mem_nil, or_false] at hMem
    rcases hMem with rfl | rfl <;> exact Fin.isLt _
  have hWords : ∀ {x y z w : Bytes32}, abiEncode [x, y] = abiEncode [z, w] → x = z ∧ y = w := by
    intro x y z w hEncoded
    have hVals : [x.val, y.val] = [z.val, w.val] :=
      abiEncode_injective rfl (hLt x y) (hLt z w) hEncoded
    simpa [Fin.val_inj] using hVals
  unfold pairEncoding at h
  split at h <;> split at h <;> obtain ⟨hFirst, hSecond⟩ := hWords h
  · exact Sym2.eq_iff.mpr (Or.inl ⟨hFirst, hSecond⟩)
  · exact Sym2.eq_iff.mpr (Or.inr ⟨hFirst, hSecond⟩)
  · exact Sym2.eq_iff.mpr (Or.inr ⟨hSecond, hFirst⟩)
  · exact Sym2.eq_iff.mpr (Or.inl ⟨hSecond, hFirst⟩)

theorem leafEncoding_ne_pairEncoding (leaf : Registry.ReceiptLeaf) (a b : Bytes32) :
    leafEncoding leaf ≠ pairEncoding a b := by
  have hLeaf : (leafEncoding leaf).length = 288 := length_abiEncode _
  have hPair : (pairEncoding a b).length = 64 := by
    unfold pairEncoding
    split <;> exact length_abiEncode _
  intro hSame
  rw [hSame, hPair] at hLeaf
  cases hLeaf

/-! ## The tree behind a root -/

variable {keccak256}

theorem hashPair_eq (a b : Bytes32) :
    MerkleProof.hashPair keccak256 a b = keccak256 (pairEncoding a b) :=
  (apply_ite keccak256 _ _ _).symm

variable (keccak256) in
/-- `_hash_pair` on unordered pairs. -/
def pairHash : Sym2 Bytes32 → Bytes32 :=
  Sym2.lift ⟨MerkleProof.hashPair keccak256, hashPair_comm⟩

section Preimages

variable {preimages : Set Bytes}

/-- The pairs of hashes with their encoding among the byte strings. -/
def pairsAmong (preimages : Set Bytes) : Set (Sym2 Bytes32) :=
  {p | ∃ a b, p = s(a, b) ∧ pairEncoding a b ∈ preimages}

theorem pairsAmong_mono {more : Set Bytes} (hSub : preimages ⊆ more) :
    pairsAmong preimages ⊆ pairsAmong more := by
  rintro _ ⟨a, b, rfl, hab⟩
  exact ⟨a, b, rfl, hSub hab⟩

variable (hFree : Set.InjOn keccak256 preimages)

include hFree

theorem injOn_pairHash : Set.InjOn (pairHash keccak256) (pairsAmong preimages) := by
  rintro _ ⟨a, b, rfl, hab⟩ _ ⟨c, d, rfl, hcd⟩ hHash
  have hEncoded : keccak256 (pairEncoding a b) = keccak256 (pairEncoding c d) := by
    rw [← @hashPair_eq keccak256, ← @hashPair_eq keccak256]
    exact hHash
  exact pairEncoding_injective (hFree hab hcd hEncoded)

theorem pairHash_ne_hashLeaf {leaf : Registry.ReceiptLeaf} (hLeaf : leafEncoding leaf ∈ preimages) :
    ∀ p ∈ pairsAmong preimages, pairHash keccak256 p ≠ Registry.hashLeaf keccak256 leaf := by
  rintro _ ⟨a, b, rfl, hab⟩ hHash
  have hEncoded : keccak256 (leafEncoding leaf) = keccak256 (pairEncoding a b) := by
    rw [← @hashPair_eq keccak256]
    exact hHash.symm
  exact leafEncoding_ne_pairEncoding leaf a b (hFree hLeaf hab hEncoded)

end Preimages

theorem exists_tree {leaves : List Registry.ReceiptLeaf} (hSome : leaves ≠ []) :
    ∃ tree : PairTree Registry.ReceiptLeaf, PairTree.ofList leaves = some tree ∧
      buildMerkleRoot keccak256 (leaves.map (Registry.hashLeaf keccak256)) =
        some ((tree.map (Registry.hashLeaf keccak256)).root (pairHash keccak256)) ∧
      ∀ p ∈ (tree.map (Registry.hashLeaf keccak256)).pairs (pairHash keccak256),
        p ∈ pairsAmong {x | x ∈ rootPreimages keccak256 leaves} := by
  have hHashes : leaves.map (Registry.hashLeaf keccak256) ≠ [] := by simpa using hSome
  obtain ⟨hashed, hOf, -, hRoot, hPairs⟩ :=
    @PairTree.ofList_spec _ (pairHash keccak256) _ hHashes
  rw [PairTree.ofList_map, Option.map_eq_some_iff] at hOf
  obtain ⟨tree, hTree, rfl⟩ := hOf
  refine ⟨tree, hTree, ?_, ?_⟩
  · rw [buildMerkleRoot_eq]
    exact hRoot
  · intro p hp
    obtain ⟨q, hq, rfl⟩ := hPairs p hp
    rw [List.length_map] at hq
    exact ⟨q.1, q.2, rfl, List.mem_append_right _ (List.mem_map_of_mem hq)⟩

theorem leafEncoding_mem {leaf : Registry.ReceiptLeaf} {leaves : List Registry.ReceiptLeaf}
    (hMem : leaf ∈ leaves) : leafEncoding leaf ∈ rootPreimages keccak256 leaves :=
  List.mem_append_left _ (List.mem_map_of_mem hMem)

theorem buildMerkleRoot_eq_iff {leaves others : List Registry.ReceiptLeaf} (hSome : leaves ≠ [])
    (hOthers : others ≠ [])
    (hFree : Set.InjOn keccak256
      {x | x ∈ rootPreimages keccak256 leaves ∨ x ∈ rootPreimages keccak256 others}) :
    buildMerkleRoot keccak256 (others.map (Registry.hashLeaf keccak256)) =
      buildMerkleRoot keccak256 (leaves.map (Registry.hashLeaf keccak256)) ↔
      SameUpToSwaps leaves others := by
  obtain ⟨tree, hTree, hRoot, hPairs⟩ := @exists_tree keccak256 _ hSome
  obtain ⟨other, hOther, hOtherRoot, hOtherPairs⟩ := @exists_tree keccak256 _ hOthers
  have hLeaves := PairTree.leaves_of_ofList hTree
  have hOtherLeaves := PairTree.leaves_of_ofList hOther
  rw [hRoot, hOtherRoot, Option.some_inj]
  constructor
  · intro hSame
    refine ⟨tree, other, hTree, hOther, PairTree.Swapped.of_map ?_
      (PairTree.swapped_of_root_eq (injOn_pairHash hFree) ?_ ?_ ?_ ?_ hSame.symm)⟩
    · intro leaf hMem leaf' hMem' hHash
      rw [hLeaves] at hMem
      rw [hOtherLeaves] at hMem'
      exact leafEncoding_injective
        (hFree (Or.inl (leafEncoding_mem hMem)) (Or.inr (leafEncoding_mem hMem')) hHash)
    · exact fun p hp => pairsAmong_mono (fun x hx => Or.inl hx) (hPairs p hp)
    · exact fun p hp => pairsAmong_mono (fun x hx => Or.inr hx) (hOtherPairs p hp)
    · intro v hv
      rw [PairTree.leaves_map, hLeaves] at hv
      obtain ⟨leaf, hMem, rfl⟩ := List.mem_map.mp hv
      exact pairHash_ne_hashLeaf hFree (Or.inl (leafEncoding_mem hMem))
    · intro v hv
      rw [PairTree.leaves_map, hOtherLeaves] at hv
      obtain ⟨leaf, hMem, rfl⟩ := List.mem_map.mp hv
      exact pairHash_ne_hashLeaf hFree (Or.inr (leafEncoding_mem hMem))
  · rintro ⟨tree', other', hTree', hOther', hSwapped⟩
    rw [hTree, Option.some_inj] at hTree'
    rw [hOther, Option.some_inj] at hOther'
    subst hTree' hOther'
    exact ((hSwapped.map _).root_eq (pairHash keccak256)).symm

/-! ## What passes the check -/

theorem verifyReceiptSetAgainstRoot_eq_true_iff (pb : PublishedBatch) (root : Bytes32) :
    verifyReceiptSetAgainstRoot keccak256 pb root = some true ↔
      ∃ leaves, pb.receipts.mapM (batchedReceiptToLeaf keccak256) = some leaves ∧
        leaves ≠ [] ∧
        buildMerkleRoot keccak256 (leaves.map (Registry.hashLeaf keccak256)) = some root := by
  unfold verifyReceiptSetAgainstRoot recomputeRoot
  rw [mapM_leafHash]
  cases hLeaves : pb.receipts.mapM (batchedReceiptToLeaf keccak256) with
  | none => split <;> simp
  | some leaves =>
      have hNil : pb.receipts = [] ↔ leaves = [] := by
        rw [← List.length_eq_zero_iff, ← List.length_eq_zero_iff, length_of_mapM hLeaves]
      simp only [hNil, Option.map_some, Option.bind_eq_bind, Option.bind_some,
        Option.some.injEq, exists_eq_left']
      by_cases hEmpty : leaves = [] <;> simp [hEmpty]

theorem ingest_eq_some_iff (root : Bytes32) (fetched : PublishedBatch) (entry : VerifiedEntry) :
    ingest keccak256 root fetched = some entry ↔
      verifyReceiptSetAgainstRoot keccak256 fetched root = some true ∧
        entry.receipts = fetched.receipts ∧
        fetched.receipts.mapM (leafHash keccak256) = some entry.leafHashes := by
  have hGetD : (verifyReceiptSetAgainstRoot keccak256 fetched root).getD false = true ↔
      verifyReceiptSetAgainstRoot keccak256 fetched root = some true := by
    cases verifyReceiptSetAgainstRoot keccak256 fetched root <;> simp
  unfold ingest
  simp only [Option.bind_eq_bind, Option.bind_eq_some_iff, guard_eq_some_iff, hGetD]
  constructor
  · rintro ⟨-, hVerified, leafHashes, hHashes, hEntry⟩
    cases hEntry
    exact ⟨hVerified, rfl, hHashes⟩
  · rintro ⟨hVerified, hReceipts, hHashes⟩
    exact ⟨(), hVerified, entry.leafHashes, hHashes, by rw [← hReceipts]⟩

/-- The sets that pass the check, and so those that reach the cache, are the ones
whose leaves are the committed leaves up to exchanged children. -/
theorem verified_iff_sameUpToSwaps (keccak256 : Keccak) (leaves : List Registry.ReceiptLeaf)
    (root : Bytes32) (pb : PublishedBatch)
    (hRoot : buildMerkleRoot keccak256 (leaves.map (Registry.hashLeaf keccak256)) = some root)
    (hFree : ∀ others, pb.receipts.mapM (batchedReceiptToLeaf keccak256) = some others →
      Set.InjOn keccak256
        {x | x ∈ rootPreimages keccak256 leaves ∨ x ∈ rootPreimages keccak256 others}) :
    (verifyReceiptSetAgainstRoot keccak256 pb root = some true ↔
      ∃ others, pb.receipts.mapM (batchedReceiptToLeaf keccak256) = some others ∧
        leaves.Perm others ∧ SameUpToSwaps leaves others) ∧
    ((ingest keccak256 root pb).isSome ↔
      verifyReceiptSetAgainstRoot keccak256 pb root = some true) := by
  have hSome : leaves ≠ [] := by
    have hIsSome := (buildMerkleRoot_isSome_iff _).mp (Option.isSome_of_eq_some hRoot)
    simpa using hIsSome
  constructor
  · rw [verifyReceiptSetAgainstRoot_eq_true_iff]
    constructor
    · rintro ⟨others, hOthers, hNonempty, hSame⟩
      have hSwaps := (buildMerkleRoot_eq_iff hSome hNonempty (hFree others hOthers)).mp
        (hSame.trans hRoot.symm)
      exact ⟨others, hOthers, hSwaps.perm, hSwaps⟩
    · rintro ⟨others, hOthers, hPerm, hSwaps⟩
      have hNonempty : others ≠ [] := fun hNil => hSome (List.perm_nil.mp (hNil ▸ hPerm))
      refine ⟨others, hOthers, hNonempty, ?_⟩
      rw [← hRoot]
      exact (buildMerkleRoot_eq_iff hSome hNonempty (hFree others hOthers)).mpr hSwaps
  · constructor
    · intro hCached
      obtain ⟨entry, hEntry⟩ := Option.isSome_iff_exists.mp hCached
      exact ((ingest_eq_some_iff root pb entry).mp hEntry).1
    · intro hVerified
      obtain ⟨others, hOthers, -⟩ := (verifyReceiptSetAgainstRoot_eq_true_iff pb root).mp hVerified
      have hHashes := @mapM_leafHash keccak256 pb.receipts
      rw [hOthers] at hHashes
      exact Option.isSome_of_eq_some
        ((ingest_eq_some_iff root pb ⟨_, _⟩).mpr ⟨hVerified, rfl, hHashes⟩)

/-- Two receipts of one batch. -/
def receiptOf (shardIndex : Int) : BatchedReceipt where
  receipt :=
    { jobId := "j"
      shardIndex := shardIndex
      providerId := "p"
      providerPubkeyB64 := ""
      outputHash := "0000000000000000000000000000000000000000000000000000000000000000"
      executedAtUnix := 0
      signature := ""
      teeAttestation := none }
  requesterAddress := ""
  providerAddress := ""
  valueFtns := 1
  localEscrowId := ""
  tierSlashRateBps := 0
  consensusGroupId := 0

def leafOf (shardIndex : Uint 32) : Registry.ReceiptLeaf where
  jobIdHash := polynomialHash (utf8 "j")
  shardIndex := shardIndex
  providerIdHash := polynomialHash (utf8 "p")
  providerPubkeyHash := polynomialHash []
  outputHash := 0
  executedAtUnix := 0
  valueFtns := 1
  signatureHash := polynomialHash []
  signingMessageHash := polynomialHash (signingPayload (receiptOf shardIndex.val).receipt)

def committedLeaves : List Registry.ReceiptLeaf := [leafOf 0, leafOf 1]

def exchangedSet : PublishedBatch := ⟨0, 0, 0, [receiptOf 1, receiptOf 0]⟩

def committedRoot : Bytes32 :=
  MerkleProof.hashPair polynomialHash (Registry.hashLeaf polynomialHash (leafOf 0))
    (Registry.hashLeaf polynomialHash (leafOf 1))

theorem exchangedSet_leaves :
    exchangedSet.receipts.mapM (batchedReceiptToLeaf polynomialHash) =
      some [leafOf 1, leafOf 0] := by
  decide +kernel

theorem injOn_preimages :
    Set.InjOn polynomialHash {x | x ∈ rootPreimages polynomialHash committedLeaves ∨
      x ∈ rootPreimages polynomialHash [leafOf 1, leafOf 0]} := by
  have hAll : ∀ x ∈ rootPreimages polynomialHash committedLeaves ++
      rootPreimages polynomialHash [leafOf 1, leafOf 0],
      ∀ y ∈ rootPreimages polynomialHash committedLeaves ++
        rootPreimages polynomialHash [leafOf 1, leafOf 0],
      polynomialHash x = polynomialHash y → x = y := by
    decide +kernel
  intro x hx y hy hSame
  exact hAll x (List.mem_append.mpr hx) y (List.mem_append.mpr hy) hSame

theorem buildMerkleRoot_committedLeaves :
    buildMerkleRoot polynomialHash (committedLeaves.map (Registry.hashLeaf polynomialHash)) =
      some committedRoot := rfl

theorem verified_iff_sameUpToSwaps_exchangedSet :
    (verifyReceiptSetAgainstRoot polynomialHash exchangedSet committedRoot = some true ↔
      ∃ others, exchangedSet.receipts.mapM (batchedReceiptToLeaf polynomialHash) = some others ∧
        committedLeaves.Perm others ∧ SameUpToSwaps committedLeaves others) ∧
    SameUpToSwaps committedLeaves [leafOf 1, leafOf 0] := by
  refine ⟨(verified_iff_sameUpToSwaps polynomialHash committedLeaves committedRoot exchangedSet
    buildMerkleRoot_committedLeaves ?_).1, ?_⟩
  · intro others hOthers
    rw [exchangedSet_leaves] at hOthers
    cases hOthers
    exact injOn_preimages
  · exact ⟨_, _, rfl, rfl, .swap (.leaf _) (.leaf _)⟩

/-- The exchanged set passes against the committed root. -/
theorem exchangedSet_verified :
    Set.InjOn polynomialHash {x | x ∈ rootPreimages polynomialHash committedLeaves ∨
      x ∈ rootPreimages polynomialHash [leafOf 1, leafOf 0]} ∧
    buildMerkleRoot polynomialHash (committedLeaves.map (Registry.hashLeaf polynomialHash)) =
      some committedRoot ∧
    verifyReceiptSetAgainstRoot polynomialHash exchangedSet committedRoot = some true ∧
    exchangedSet.receipts.mapM (batchedReceiptToLeaf polynomialHash) ≠ some committedLeaves := by
  refine ⟨injOn_preimages, buildMerkleRoot_committedLeaves, ?_, ?_⟩
  · rw [verifyReceiptSetAgainstRoot_eq_true_iff]
    refine ⟨_, exchangedSet_leaves, by simp, ?_⟩
    exact congrArg some (hashPair_comm _ _)
  · rw [exchangedSet_leaves]
    decide +kernel

end Prsm.Settlement.ReceiptSet
