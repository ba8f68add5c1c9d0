import Prsm.Evm.Abi
import Prsm.Foundations.OrderedDict
import Prsm.Foundations.StableSort
import Prsm.Registry.World
import Prsm.Settlement.Merkle

/-!
# From a doubly committed leaf to a challenge

The detector walks the verified batches in the order of the cache and lists, for
every leaf hash that occurs twice, the places where it occurs.  The assembler
challenges the batch of the first place and cites the next place in another
batch as the conflict.

The registry lets the first committer win: it accepts a challenge only against the later of the
two batches.  Nothing in the pipeline compares commit times, so the challenge is accepted only
when the cache happens to hold the later batch first.
-/

namespace Prsm.Settlement.DoubleSpend

open Foundations Evm

/-! ## The detector -/

/-- A committed batch, with the fields the detector reads. -/
structure CommittedBatch where
  batchId : Bytes32
  providerAddress : String
  leafHashes : List Bytes32
  deriving DecidableEq

/-- One position at which a leaf hash was committed. -/
structure LeafOccurrence where
  batchId : Bytes32
  leafIndex : Nat
  providerAddress : String

structure DoubleSpendFinding where
  leafHash : Bytes32
  occurrences : List LeafOccurrence
  onChainReason : Registry.ReasonCode

/-- The occurrences that one batch contributes. -/
def batchOccurrences (batch : CommittedBatch) : List (Bytes32 × LeafOccurrence) :=
  batch.leafHashes.zipIdx.map fun (leafHash, leafIndex) =>
    (leafHash, ⟨batch.batchId, leafIndex, batch.providerAddress⟩)

def occurrencesByLeaf (batches : List CommittedBatch) : List (Bytes32 × List LeafOccurrence) :=
  groupByKey (batches.flatMap batchOccurrences)

def detectDoubleSpends (batches : List CommittedBatch) : List DoubleSpendFinding :=
  sortBy DoubleSpendFinding.leafHash
    ((occurrencesByLeaf batches).filterMap fun (leafHash, occurrences) =>
      if 2 ≤ occurrences.length then some ⟨leafHash, occurrences, .doubleSpend⟩ else none)

/-! ## The assembler -/

structure DoubleSpendChallenge where
  batchId : Bytes32
  leaf : Registry.ReceiptLeaf
  merkleProof : List Bytes32
  reasonCode : Registry.ReasonCode
  auxData : Bytes

/-- `_pick_distinct_batch_occurrences`, with `none` where it raises. -/
def pickDistinctBatchOccurrences (finding : DoubleSpendFinding) :
    Option (LeafOccurrence × LeafOccurrence) :=
  match finding.occurrences with
  | [] => none
  | first :: rest => (rest.find? fun occ => occ.batchId ≠ first.batchId).map (first, ·)

section Assembler

variable (keccak256 : Keccak)

/-- `assemble_double_spend_challenge`, with `none` where it raises. -/
def assembleDoubleSpendChallenge (targetBatchId : Bytes32)
    (targetBatchReceipts : List BatchedReceipt) (targetIndex : Int) (conflictingBatchId : Bytes32)
    (conflictingLeafHashes : List Bytes32) (conflictingIndex : Int) :
    Option DoubleSpendChallenge := do
  guard (targetBatchReceipts ≠ [])
  guard (conflictingLeafHashes ≠ [])
  guard (0 ≤ targetIndex ∧ targetIndex < targetBatchReceipts.length)
  guard (0 ≤ conflictingIndex ∧ conflictingIndex < conflictingLeafHashes.length)
  guard (targetBatchId ≠ conflictingBatchId)
  let leaves ← targetBatchReceipts.mapM (batchedReceiptToLeaf keccak256)
  let targetLeafHashes := leaves.map (Registry.hashLeaf keccak256)
  let targetLeaf ← leaves[targetIndex.toNat]?
  let targetLeafHash ← targetLeafHashes[targetIndex.toNat]?
  let expected ← conflictingLeafHashes[conflictingIndex.toNat]?
  guard (targetLeafHash = expected)
  let targetProof ← buildMerkleProof keccak256 targetLeafHashes targetIndex
  let conflictingProof ← buildMerkleProof keccak256 conflictingLeafHashes conflictingIndex
  some
    { batchId := targetBatchId
      leaf := targetLeaf
      merkleProof := targetProof
      reasonCode := .doubleSpend
      auxData := encodeWordAndArray conflictingBatchId conflictingProof }

/-- `assemble_from_double_spend_finding`, with `none` where it raises. -/
def assembleFromDoubleSpendFinding (finding : DoubleSpendFinding)
    (receiptsByBatch : Bytes32 → Option (List BatchedReceipt))
    (leafHashesByBatch : Bytes32 → Option (List Bytes32)) : Option DoubleSpendChallenge := do
  let (target, conflicting) ← pickDistinctBatchOccurrences finding
  let targetReceipts ← receiptsByBatch target.batchId
  let conflictingLeaves ← leafHashesByBatch conflicting.batchId
  assembleDoubleSpendChallenge keccak256 target.batchId targetReceipts target.leafIndex
    conflicting.batchId conflictingLeaves conflicting.leafIndex

/-- The verified cache: each batch with its receipts, oldest entry first. -/
abbrev Cache := List (CommittedBatch × List BatchedReceipt)

def Cache.receiptsFor (cache : Cache) (batchId : Bytes32) : Option (List BatchedReceipt) :=
  (cache.find? fun entry => entry.1.batchId = batchId).map Prod.snd

def Cache.leafHashesFor (cache : Cache) (batchId : Bytes32) : Option (List Bytes32) :=
  (cache.find? fun entry => entry.1.batchId = batchId).map fun entry => entry.1.leafHashes

def Cache.verifiedBatches (cache : Cache) : List CommittedBatch := cache.map Prod.fst

/-- `_try_assemble_double_spend`: the assembler on the contents of the cache. -/
def tryAssembleDoubleSpend (cache : Cache) (finding : DoubleSpendFinding) :
    Option DoubleSpendChallenge :=
  assembleFromDoubleSpendFinding keccak256 finding cache.receiptsFor cache.leafHashesFor

/-! ## Published batches and accepted challenges -/

/-- The entry stands for a committed batch, and its receipts reproduce the leaves
and the root on chain, as the cache checks.  The length is that of a list in
memory. -/
structure Published (s : Registry.State) (batch : CommittedBatch)
    (receipts : List BatchedReceipt) : Prop where
  committed : (s.batches batch.batchId).status ≠ .nonexistent
  leafHashes_eq : receipts.mapM (leafHash keccak256) = some batch.leafHashes
  root_eq : buildMerkleRoot keccak256 batch.leafHashes =
    some (s.batches batch.batchId).merkleRoot
  length_lt : batch.leafHashes.length < 2 ^ 63

/-- The target proof verifies and `_handleDoubleSpend` finds the challenge proven. -/
def HandlerAccepts (s : Registry.State) (challenge : DoubleSpendChallenge) : Prop :=
  ∀ auxData : Registry.AuxData,
    auxData.asDoubleSpend = decodeWordAndArray challenge.auxData →
      let b := s.batches challenge.batchId
      let leafHash := Registry.hashLeaf keccak256 challenge.leaf
      MerkleProof.verify keccak256 challenge.merkleProof b.merkleRoot leafHash = true ∧
        Registry.handleDoubleSpend keccak256 s challenge.batchId b leafHash auxData = .ok true

/-- The detector reports the leaf, and the challenge assembled from its finding
is accepted. -/
def ChallengeAccepted (s : Registry.State) (cache : Cache) (leafHash : Bytes32) : Prop :=
  ∃ finding ∈ detectDoubleSpends cache.verifiedBatches, finding.leafHash = leafHash ∧
    ∃ challenge, tryAssembleDoubleSpend keccak256 cache finding = some challenge ∧
      HandlerAccepts keccak256 s challenge

end Assembler

/-- The batches that hold the leaf, in the order of the cache. -/
def holders (leafHash : Bytes32) (batches : List CommittedBatch) : List CommittedBatch :=
  batches.filter fun batch => leafHash ∈ batch.leafHashes

/-- Of the batches that hold the leaf, the first is committed later than the
second. -/
def FirstHolderIsLater (s : Registry.State) (leafHash : Bytes32)
    (batches : List CommittedBatch) : Prop :=
  ∃ first second rest, holders leafHash batches = first :: second :: rest ∧
    (s.batches second.batchId).commitTimestamp < (s.batches first.batchId).commitTimestamp

/-! ## What the detector lists -/

section Detection

variable {batches : List CommittedBatch} {batch : CommittedBatch} {leafHash : Bytes32}

/-- The occurrences of the leaf in one batch. -/
def occurrencesIn (leafHash : Bytes32) (batch : CommittedBatch) : List LeafOccurrence :=
  valuesAt (batchOccurrences batch) leafHash

theorem mem_occurrencesIn {occ : LeafOccurrence} :
    occ ∈ occurrencesIn leafHash batch ↔
      batch.leafHashes[occ.leafIndex]? = some leafHash ∧ occ.batchId = batch.batchId ∧
        occ.providerAddress = batch.providerAddress := by
  rw [occurrencesIn, mem_valuesAt, batchOccurrences, List.mem_map]
  constructor
  · rintro ⟨⟨hash, i⟩, hMem, hEq⟩
    obtain ⟨rfl, rfl⟩ := Prod.mk.inj hEq
    exact ⟨(List.mem_zipIdx_iff_getElem?.mp hMem), rfl, rfl⟩
  · rintro ⟨hHash, hId, hProvider⟩
    refine ⟨(leafHash, occ.leafIndex), List.mem_zipIdx_iff_getElem?.mpr hHash, ?_⟩
    rw [← hId, ← hProvider]

theorem occurrencesIn_eq_nil_iff : occurrencesIn leafHash batch = [] ↔
    leafHash ∉ batch.leafHashes := by
  rw [List.eq_nil_iff_forall_not_mem, ← not_exists]
  refine not_congr ⟨?_, ?_⟩
  · rintro ⟨occ, hOcc⟩
    exact List.mem_of_getElem? (mem_occurrencesIn.mp hOcc).1
  · intro hMem
    obtain ⟨i, hi⟩ := List.mem_iff_getElem?.mp hMem
    exact ⟨⟨batch.batchId, i, batch.providerAddress⟩, mem_occurrencesIn.mpr ⟨hi, rfl, rfl⟩⟩

theorem valuesAt_flatMap_eq (leafHash : Bytes32) (batches : List CommittedBatch) :
    valuesAt (batches.flatMap batchOccurrences) leafHash
      = (holders leafHash batches).flatMap (occurrencesIn leafHash) := by
  induction batches with
  | nil => rfl
  | cons batch batches ih =>
      rw [List.flatMap_cons, valuesAt_append, ih, holders, holders, List.filter_cons]
      split
      case isTrue => rfl
      case isFalse hNot =>
          have hNone : occurrencesIn leafHash batch = [] :=
            occurrencesIn_eq_nil_iff.mpr (by simpa using hNot)
          rw [occurrencesIn] at hNone
          rw [hNone, List.nil_append]

theorem mem_detectDoubleSpends {finding : DoubleSpendFinding} :
    finding ∈ detectDoubleSpends batches ↔
      2 ≤ finding.occurrences.length ∧ finding.onChainReason = .doubleSpend ∧
        finding.occurrences = valuesAt (batches.flatMap batchOccurrences) finding.leafHash := by
  have hGroups := groupByKey_groups (batches.flatMap batchOccurrences)
  rw [detectDoubleSpends, mem_sortBy, List.mem_filterMap]
  constructor
  · rintro ⟨⟨hash, occurrences⟩, hMem, hSome⟩
    simp only [Option.ite_none_right_eq_some, Option.some.injEq] at hSome
    obtain ⟨hTwo, rfl⟩ := hSome
    exact ⟨hTwo, rfl, hGroups.values_eq _ hMem⟩
  · rintro ⟨hTwo, hReason, hValues⟩
    have hSome : valuesAt (batches.flatMap batchOccurrences) finding.leafHash ≠ [] := by
      rw [← hValues]
      exact List.ne_nil_of_length_pos (by omega)
    obtain ⟨⟨hash, occurrences⟩, hMem, hKey⟩ :=
      List.mem_map.mp ((hGroups.mem_keys finding.leafHash).mpr hSome)
    have hOccurrences : occurrences = finding.occurrences := by
      rw [hValues, ← hKey]
      exact hGroups.values_eq _ hMem
    refine ⟨⟨hash, occurrences⟩, hMem, ?_⟩
    show (if 2 ≤ occurrences.length then _ else none) = _
    rw [hOccurrences, if_pos hTwo, ← hReason]
    exact congrArg some (by cases finding; cases hKey; rfl)

end Detection

/-! ## What the assembler returns -/

section Assembly

variable {keccak256 : Keccak} {s : Registry.State} {cache : Cache} {leafHash : Bytes32}

theorem exists_leaves_of_leafHashes {receipts : List BatchedReceipt} {leafHashes : List Bytes32}
    (h : receipts.mapM (Settlement.leafHash keccak256) = some leafHashes) :
    ∃ leaves, receipts.mapM (batchedReceiptToLeaf keccak256) = some leaves ∧
      leaves.map (Registry.hashLeaf keccak256) = leafHashes ∧
      leaves.length = receipts.length := by
  rw [mapM_leafHash, Option.map_eq_some_iff] at h
  obtain ⟨leaves, hLeaves, hHashes⟩ := h
  exact ⟨leaves, hLeaves, hHashes, length_of_mapM hLeaves⟩

/-- A challenge for a leaf of the target that cites a proof in the conflicting
batch. -/
structure Cites (keccak256 : Keccak) (s : Registry.State) (leafHash : Bytes32)
    (targetId conflictingId : Bytes32) (challenge : DoubleSpendChallenge) : Prop where
  batchId_eq : challenge.batchId = targetId
  leaf_eq : Registry.hashLeaf keccak256 challenge.leaf = leafHash
  target_verified : MerkleProof.verify keccak256 challenge.merkleProof
    (s.batches targetId).merkleRoot leafHash = true
  conflict_verified : ∃ proof,
    decodeWordAndArray challenge.auxData = some (conflictingId, proof) ∧
      MerkleProof.verify keccak256 proof (s.batches conflictingId).merkleRoot leafHash = true

theorem exists_challenge {target conflicting : CommittedBatch × List BatchedReceipt}
    (hTarget : Published keccak256 s target.1 target.2)
    (hConflicting : Published keccak256 s conflicting.1 conflicting.2)
    (hIds : target.1.batchId ≠ conflicting.1.batchId) {i j : Nat}
    (hi : target.1.leafHashes[i]? = some leafHash)
    (hj : conflicting.1.leafHashes[j]? = some leafHash) :
    ∃ challenge, assembleDoubleSpendChallenge keccak256 target.1.batchId target.2 i
        conflicting.1.batchId conflicting.1.leafHashes j = some challenge ∧
      Cites keccak256 s leafHash target.1.batchId conflicting.1.batchId challenge := by
  obtain ⟨leaves, hLeaves, hHashes, hLength⟩ := exists_leaves_of_leafHashes hTarget.leafHashes_eq
  have hLeafAt : (leaves.map (Registry.hashLeaf keccak256))[i]? = some leafHash := by
    rw [hHashes, hi]
  obtain ⟨leaf, hLeaf, hLeafHash⟩ : ∃ leaf, leaves[i]? = some leaf ∧
      Registry.hashLeaf keccak256 leaf = leafHash := by
    rw [List.getElem?_map, Option.map_eq_some_iff] at hLeafAt
    exact hLeafAt
  obtain ⟨targetProof, hTargetProof, -, hTargetVerified⟩ :=
    verify_buildMerkleProof hi hTarget.root_eq
  obtain ⟨conflictingProof, hConflictingProof, hShort, hConflictingVerified⟩ :=
    verify_buildMerkleProof hj hConflicting.root_eq
  have hDecoded := decode_encodeWordAndArray conflicting.1.batchId
    (show conflictingProof.length < 2 ^ 64 from
      (hShort.trans_lt hConflicting.length_lt).trans (Nat.pow_lt_pow_right (by decide) (by decide)))
  obtain ⟨hiLt, hLeafGet⟩ := List.getElem?_eq_some_iff.mp hLeaf
  obtain ⟨hjLt, hjGet⟩ := List.getElem?_eq_some_iff.mp hj
  refine ⟨⟨target.1.batchId, leaf, targetProof, .doubleSpend,
    encodeWordAndArray conflicting.1.batchId conflictingProof⟩, ?_, rfl, hLeafHash,
    hTargetVerified, conflictingProof, hDecoded, hConflictingVerified⟩
  have hReceipts : target.2 ≠ [] := List.ne_nil_of_length_pos (by omega)
  have hOthers : conflicting.1.leafHashes ≠ [] := List.ne_nil_of_length_pos (by omega)
  simp [assembleDoubleSpendChallenge, guard, hReceipts, hOthers, hIds, hLeaves, hLeafGet, hjGet,
    hLeafHash, hHashes, hTargetProof, hConflictingProof, hjLt, ← hLength, hiLt]

theorem Cites.handlerAccepts_iff {targetId conflictingId : Bytes32}
    {challenge : DoubleSpendChallenge}
    (h : Cites keccak256 s leafHash targetId conflictingId challenge)
    (hIds : targetId ≠ conflictingId)
    (hCommitted : (s.batches conflictingId).status ≠ .nonexistent) :
    HandlerAccepts keccak256 s challenge ↔
      (s.batches conflictingId).commitTimestamp < (s.batches targetId).commitTimestamp := by
  obtain ⟨proof, hDecoded, hVerified⟩ := h.conflict_verified
  have hHandled : ∀ auxData : Registry.AuxData,
      auxData.asDoubleSpend = decodeWordAndArray challenge.auxData →
        Registry.handleDoubleSpend keccak256 s targetId (s.batches targetId) leafHash auxData =
          .ok (decide ((s.batches conflictingId).commitTimestamp <
            (s.batches targetId).commitTimestamp)) := by
    intro auxData hAux
    rw [hDecoded] at hAux
    unfold Registry.handleDoubleSpend
    rw [hAux]
    simp only [Registry.decode, bind, Except.bind, if_neg hIds.symm, require, if_pos hCommitted]
    by_cases hEarlier :
        (s.batches conflictingId).commitTimestamp < (s.batches targetId).commitTimestamp
    · rw [if_neg (Nat.not_le.mpr hEarlier), hVerified, decide_eq_true hEarlier]
      rfl
    · rw [if_pos (Nat.not_lt.mp hEarlier), decide_eq_false hEarlier]
      rfl
  unfold HandlerAccepts
  rw [h.batchId_eq, h.leaf_eq]
  constructor
  · intro hAll
    have hTrue := (hAll ⟨decodeWordAndArray challenge.auxData, none, none⟩ rfl).2
    rw [hHandled _ rfl] at hTrue
    exact of_decide_eq_true (Except.ok.inj hTrue)
  · intro hEarlier auxData hAux
    refine ⟨h.target_verified, ?_⟩
    rw [hHandled auxData hAux, decide_eq_true hEarlier]

theorem find?_entry {entry : CommittedBatch × List BatchedReceipt}
    (hIds : (cache.map fun e => e.1.batchId).Nodup) (hEntry : entry ∈ cache) :
    (cache.find? fun e => e.1.batchId = entry.1.batchId) = some entry := by
  induction cache with
  | nil => cases hEntry
  | cons first cache ih =>
      obtain ⟨hFirst, hRest⟩ := List.nodup_cons.mp hIds
      rcases List.mem_cons.mp hEntry with rfl | hEntry
      · exact List.find?_cons_of_pos (by simp)
      · have hNe : first.1.batchId ≠ entry.1.batchId := fun hEq => by
          refine hFirst ?_
          show first.1.batchId ∈ _
          rw [hEq]
          exact List.mem_map_of_mem hEntry
        rw [List.find?_cons_of_neg (by simpa using hNe)]
        exact ih hRest hEntry

theorem pick_eq {finding : DoubleSpendFinding} {first second : CommittedBatch}
    {rest : List CommittedBatch} {batches : List CommittedBatch}
    (hFinding : finding ∈ detectDoubleSpends batches)
    (hHolders : holders finding.leafHash batches = first :: second :: rest)
    (hIds : first.batchId ≠ second.batchId) :
    ∃ target ∈ occurrencesIn finding.leafHash first,
      ∃ conflicting ∈ occurrencesIn finding.leafHash second,
        pickDistinctBatchOccurrences finding = some (target, conflicting) := by
  have hHolds : ∀ batch ∈ holders finding.leafHash batches,
      occurrencesIn finding.leafHash batch ≠ [] := by
    intro batch hBatch
    rw [Ne, occurrencesIn_eq_nil_iff, not_not]
    simpa using (List.mem_filter.mp hBatch).2
  obtain ⟨target, targets, hTargets⟩ :=
    List.exists_cons_of_ne_nil (hHolds first (by rw [hHolders]; simp))
  obtain ⟨conflicting, conflictings, hConflictings⟩ :=
    List.exists_cons_of_ne_nil (hHolds second (by rw [hHolders]; simp))
  have hTarget : target ∈ occurrencesIn finding.leafHash first := by simp [hTargets]
  have hConflicting : conflicting ∈ occurrencesIn finding.leafHash second := by
    simp [hConflictings]
  refine ⟨target, hTarget, conflicting, hConflicting, ?_⟩
  have hOccurrences : finding.occurrences = target :: (targets ++ conflicting :: (conflictings ++
      rest.flatMap (occurrencesIn finding.leafHash))) := by
    rw [(mem_detectDoubleSpends.mp hFinding).2.2, valuesAt_flatMap_eq, hHolders,
      List.flatMap_cons, List.flatMap_cons, hTargets, hConflictings]
    rfl
  have hTargetId := (mem_occurrencesIn.mp hTarget).2.1
  have hConflictingId := (mem_occurrencesIn.mp hConflicting).2.1
  -- the further places in the first holder are passed over
  have hSkipped : (targets.find? fun occ => occ.batchId ≠ target.batchId) = none := by
    rw [List.find?_eq_none]
    intro occ hOcc
    have hMem : occ ∈ occurrencesIn finding.leafHash first := by simp [hTargets, hOcc]
    simp [(mem_occurrencesIn.mp hMem).2.1, hTargetId]
  have hNext : conflicting.batchId ≠ target.batchId := by
    rw [hTargetId, hConflictingId]
    exact hIds.symm
  rw [pickDistinctBatchOccurrences, hOccurrences]
  show ((targets ++ conflicting :: _).find? _).map _ = _
  rw [List.find?_append, hSkipped, Option.none_or, List.find?_cons_of_pos (by simpa using hNext)]
  rfl

theorem exists_holders {a b : CommittedBatch × List BatchedReceipt} (ha : a ∈ cache)
    (hb : b ∈ cache) (hNe : a.1.batchId ≠ b.1.batchId) (hLeafA : leafHash ∈ a.1.leafHashes)
    (hLeafB : leafHash ∈ b.1.leafHashes) :
    ∃ first second rest, holders leafHash cache.verifiedBatches = first :: second :: rest := by
  have hMemA : a.1 ∈ holders leafHash cache.verifiedBatches :=
    List.mem_filter.mpr ⟨List.mem_map_of_mem ha, by simpa using hLeafA⟩
  have hMemB : b.1 ∈ holders leafHash cache.verifiedBatches :=
    List.mem_filter.mpr ⟨List.mem_map_of_mem hb, by simpa using hLeafB⟩
  match hHolders : holders leafHash cache.verifiedBatches with
  | [] => simp [hHolders] at hMemA
  | [only] =>
      rw [hHolders, List.mem_singleton] at hMemA hMemB
      exact absurd (congrArg CommittedBatch.batchId (hMemA.trans hMemB.symm)) hNe
  | first :: second :: rest => exact ⟨first, second, rest, rfl⟩

section Pipeline

variable (hPublished : ∀ entry ∈ cache, Published keccak256 s entry.1 entry.2)
  (hIds : (cache.map fun entry => entry.1.batchId).Nodup)

include hPublished hIds

theorem exists_assembled {finding : DoubleSpendFinding} {first second : CommittedBatch}
    {rest : List CommittedBatch} (hFinding : finding ∈ detectDoubleSpends cache.verifiedBatches)
    (hHolders : holders finding.leafHash cache.verifiedBatches = first :: second :: rest) :
    first.batchId ≠ second.batchId ∧ (s.batches second.batchId).status ≠ .nonexistent ∧
      ∃ challenge, tryAssembleDoubleSpend keccak256 cache finding = some challenge ∧
        Cites keccak256 s finding.leafHash first.batchId second.batchId challenge := by
  have hEntry : ∀ batch ∈ holders finding.leafHash cache.verifiedBatches,
      ∃ entry ∈ cache, entry.1 = batch := by
    intro batch hBatch
    exact List.mem_map.mp (List.mem_filter.mp hBatch).1
  obtain ⟨entry, hEntryMem, rfl⟩ := hEntry first (by simp [hHolders])
  obtain ⟨other, hOtherMem, rfl⟩ := hEntry second (by simp [hHolders])
  have hSublist :
      ((holders finding.leafHash cache.verifiedBatches).map CommittedBatch.batchId).Nodup := by
    have hAll : (cache.verifiedBatches.map CommittedBatch.batchId).Nodup := by
      rw [Cache.verifiedBatches, List.map_map]
      exact hIds
    exact hAll.sublist (List.filter_sublist.map _)
  have hNe : entry.1.batchId ≠ other.1.batchId := by
    rw [hHolders, List.map_cons, List.map_cons] at hSublist
    exact fun hEq => (List.nodup_cons.mp hSublist).1 (by simp [hEq])
  obtain ⟨target, hTarget, conflicting, hConflicting, hPick⟩ := pick_eq hFinding hHolders hNe
  obtain ⟨hTargetAt, hTargetId, -⟩ := mem_occurrencesIn.mp hTarget
  obtain ⟨hConflictingAt, hConflictingId, -⟩ := mem_occurrencesIn.mp hConflicting
  obtain ⟨challenge, hChallenge, hCites⟩ := exists_challenge (hPublished entry hEntryMem)
    (hPublished other hOtherMem) hNe hTargetAt hConflictingAt
  refine ⟨hNe, (hPublished other hOtherMem).committed, challenge, ?_, hCites⟩
  rw [tryAssembleDoubleSpend, assembleFromDoubleSpendFinding, hPick]
  simp only [Option.bind_eq_bind, Option.bind_some, hTargetId, hConflictingId,
    Cache.receiptsFor, Cache.leafHashesFor, find?_entry hIds hEntryMem,
    find?_entry hIds hOtherMem, Option.map_some]
  exact hChallenge

theorem challengeAccepted_iff {first second : CommittedBatch} {rest : List CommittedBatch}
    (hHolders : holders leafHash cache.verifiedBatches = first :: second :: rest) :
    ChallengeAccepted keccak256 s cache leafHash ↔
      (s.batches second.batchId).commitTimestamp < (s.batches first.batchId).commitTimestamp := by
  constructor
  · rintro ⟨finding, hFinding, rfl, challenge, hChallenge, hAccepted⟩
    obtain ⟨hNe, hCommitted, assembled, hAssembled, hCites⟩ :=
      exists_assembled hPublished hIds hFinding hHolders
    obtain rfl : challenge = assembled := Option.some.inj (hChallenge.symm.trans hAssembled)
    exact (hCites.handlerAccepts_iff hNe hCommitted).mp hAccepted
  · intro hLater
    have hTwo :
        2 ≤ (valuesAt (cache.verifiedBatches.flatMap batchOccurrences) leafHash).length := by
      have hSome : ∀ batch ∈ holders leafHash cache.verifiedBatches,
          0 < (occurrencesIn leafHash batch).length := by
        intro batch hBatch
        refine List.length_pos_iff.mpr fun hNil => occurrencesIn_eq_nil_iff.mp hNil ?_
        simpa using (List.mem_filter.mp hBatch).2
      have hFirst := hSome first (by simp [hHolders])
      have hSecond := hSome second (by simp [hHolders])
      rw [valuesAt_flatMap_eq, hHolders, List.flatMap_cons, List.flatMap_cons,
        List.length_append, List.length_append]
      omega
    have hFinding : (⟨leafHash, _, .doubleSpend⟩ : DoubleSpendFinding) ∈
        detectDoubleSpends cache.verifiedBatches := mem_detectDoubleSpends.mpr ⟨hTwo, rfl, rfl⟩
    obtain ⟨hNe, hCommitted, challenge, hChallenge, hCites⟩ :=
      exists_assembled hPublished hIds hFinding hHolders
    exact ⟨_, hFinding, rfl, challenge, hChallenge,
      (hCites.handlerAccepts_iff hNe hCommitted).mpr hLater⟩

end Pipeline

end Assembly

/-- For published batches that share a leaf, in whatever order the cache holds
them and whatever else it holds, the challenge assembled for the leaf is
accepted exactly when the first of the leaf's holders is committed later than
the second. -/
theorem double_spend_challenge_accepted_iff (keccak256 : Keccak) (s : Registry.State)
    (cache : Cache) (hPublished : ∀ entry ∈ cache, Published keccak256 s entry.1 entry.2)
    (hIds : (cache.map fun entry => entry.1.batchId).Nodup) (leafHash : Bytes32)
    (hShared : ∃ a ∈ cache, ∃ b ∈ cache, a.1.batchId ≠ b.1.batchId ∧
      leafHash ∈ a.1.leafHashes ∧ leafHash ∈ b.1.leafHashes) :
    ChallengeAccepted keccak256 s cache leafHash ↔
      FirstHolderIsLater s leafHash cache.verifiedBatches := by
  obtain ⟨a, ha, b, hb, hNe, hLeafA, hLeafB⟩ := hShared
  obtain ⟨first, second, rest, hHolders⟩ := exists_holders ha hb hNe hLeafA hLeafB
  rw [challengeAccepted_iff hPublished hIds hHolders]
  constructor
  · exact fun hLater => ⟨first, second, rest, hHolders, hLater⟩
  · rintro ⟨_, _, _, hSame, hLater⟩
    obtain ⟨rfl, hTail⟩ := List.cons.inj (hHolders.symm.trans hSame)
    obtain ⟨rfl, -⟩ := List.cons.inj hTail
    exact hLater

/-! ## Two providers commit one receipt -/

def sharedReceipt : BatchedReceipt where
  receipt :=
    { jobId := "job-1"
      shardIndex := 0
      providerId := "provider"
      providerPubkeyB64 := "cHVia2V5"
      outputHash := "1111111111111111111111111111111111111111111111111111111111111111"
      executedAtUnix := 900
      signature := "c2lnbmF0dXJl"
      teeAttestation := none }
  requesterAddress := "0x0000000000000000000000000000000000000009"
  providerAddress := "0x0000000000000000000000000000000000000002"
  valueFtns := 10
  localEscrowId := "escrow-1"
  tierSlashRateBps := 5000
  consensusGroupId := 0

/-- Its leaf hash, written out so that what follows need not hash the receipt again. -/
def sharedLeafHash : Bytes32 :=
  0xfc709203a20b00d9df1be43538cbf18a0037ebc743c7c617251ed7d0e3c5ab9

theorem leafHash_sharedReceipt : leafHash polynomialHash sharedReceipt = some sharedLeafHash := by
  decide +kernel

def sharedCommit : Registry.CommitArgs := Registry.smallCommit sharedLeafHash 0 10

def sharedRegistry : Registry.State :=
  (Registry.smallDeployment.after polynomialHash
    [⟨Registry.smallEnv 1000 2, .commitBatch sharedCommit⟩,
      ⟨Registry.smallEnv 2000 3, .commitBatch sharedCommit⟩]).registry

def sharedEntry (timestamp : Nat) (sender : Address) : CommittedBatch × List BatchedReceipt :=
  (⟨Registry.batchIdOf polynomialHash (Registry.smallEnv timestamp sender) sharedCommit 0, "",
    [sharedLeafHash]⟩, [sharedReceipt])

theorem published_sharedEntry : ∀ entry ∈ [sharedEntry 1000 2, sharedEntry 2000 3],
    Published polynomialHash sharedRegistry entry.1 entry.2 := by
  have hLeaf : [sharedReceipt].mapM (leafHash polynomialHash) = some [sharedLeafHash] := by
    rw [List.mapM_cons, leafHash_sharedReceipt]
    rfl
  intro entry hEntry
  simp only [List.mem_cons, List.not_mem_nil, or_false] at hEntry
  rcases hEntry with rfl | rfl
  · exact ⟨by decide +kernel, hLeaf, by decide +kernel, by decide +kernel⟩
  · exact ⟨by decide +kernel, hLeaf, by decide +kernel, by decide +kernel⟩

/-- With the later batch first in the cache the challenge is accepted. -/
theorem double_spend_challenge_accepted_laterFirst :
    ChallengeAccepted polynomialHash sharedRegistry [sharedEntry 2000 3, sharedEntry 1000 2]
      sharedLeafHash := by
  have hPublished : ∀ entry ∈ [sharedEntry 2000 3, sharedEntry 1000 2],
      Published polynomialHash sharedRegistry entry.1 entry.2 :=
    fun entry hEntry => published_sharedEntry entry (by
      simp only [List.mem_cons, List.not_mem_nil, or_false] at hEntry ⊢
      exact hEntry.symm)
  refine (double_spend_challenge_accepted_iff polynomialHash sharedRegistry
    [sharedEntry 2000 3, sharedEntry 1000 2] hPublished (by decide +kernel) sharedLeafHash
    ⟨_, List.mem_cons_self, _, List.mem_cons_of_mem _ List.mem_cons_self, by decide +kernel,
      by decide +kernel, by decide +kernel⟩).mpr ?_
  exact ⟨(sharedEntry 2000 3).1, (sharedEntry 1000 2).1, [], by decide +kernel, by decide +kernel⟩

/-- With the earlier batch first, as when batches are cached as they are
committed, it is not. -/
theorem double_spend_challenge_rejected_earlierFirst :
    ¬ ∀ (keccak256 : Keccak) (s : Registry.State)
      (a b : CommittedBatch × List BatchedReceipt) (leafHash : Bytes32),
      Published keccak256 s a.1 a.2 → Published keccak256 s b.1 b.2 →
      a.1.batchId ≠ b.1.batchId →
      (s.batches a.1.batchId).commitTimestamp ≠ (s.batches b.1.batchId).commitTimestamp →
      leafHash ∈ a.1.leafHashes → leafHash ∈ b.1.leafHashes →
      ChallengeAccepted keccak256 s [a, b] leafHash := by
  intro hClaim
  have hAccepted := hClaim polynomialHash sharedRegistry (sharedEntry 1000 2)
    (sharedEntry 2000 3) sharedLeafHash (published_sharedEntry _ (by simp))
    (published_sharedEntry _ (by simp)) (by decide +kernel) (by decide +kernel)
    (by decide +kernel) (by decide +kernel)
  have hHolders : holders sharedLeafHash
      (Cache.verifiedBatches [sharedEntry 1000 2, sharedEntry 2000 3]) =
        [(sharedEntry 1000 2).1, (sharedEntry 2000 3).1] := by decide +kernel
  have hLater := (challengeAccepted_iff published_sharedEntry (by decide +kernel)
    hHolders).mp hAccepted
  revert hLater
  decide +kernel

end Prsm.Settlement.DoubleSpend
