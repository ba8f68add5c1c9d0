import Prsm.Registry.Evidence

/-!
# Consensus mismatch

The handler for a consensus mismatch compares two leaves.  It asks that another
provider of the same group has committed a different output for the same job and
shard, and it counts no votes: which of the two sides is challenged is left to
the challenger.  So a batch is exposed as soon as one other provider dissents,
also when its own output has the majority, and a batch that nobody contradicts
is safe.
-/

namespace Prsm.Registry

open Foundations Evm

variable {keccak256 : Keccak} {w w' : World} {tx : Tx}

/-- A job and shard within a consensus group. -/
structure Slot where
  consensusGroupId : Bytes32
  jobIdHash : Bytes32
  shardIndex : Uint 32
  deriving DecidableEq

/-- `provider` has committed, in the slot, a receipt with the given output. -/
def Reports (keccak256 : Keccak) (s : State) (slot : Slot) (provider : Address)
    (outputHash : Bytes32) : Prop :=
  ∃ batchId leaf, Holds keccak256 s batchId (hashLeaf keccak256 leaf) ∧
    (s.batches batchId).provider = provider ∧
    (s.batches batchId).consensusGroupId = slot.consensusGroupId ∧
    leaf.jobIdHash = slot.jobIdHash ∧ leaf.shardIndex = slot.shardIndex ∧
    leaf.outputHash = outputHash

def reporters (keccak256 : Keccak) (s : State) (slot : Slot) : Set Address :=
  {provider | ∃ outputHash, Reports keccak256 s slot provider outputHash}

def supporters (keccak256 : Keccak) (s : State) (slot : Slot) (outputHash : Bytes32) :
    Set Address :=
  {provider | Reports keccak256 s slot provider outputHash}

def HasMajority (keccak256 : Keccak) (s : State) (slot : Slot) (outputHash : Bytes32) : Prop :=
  (reporters keccak256 s slot).ncard < 2 * (supporters keccak256 s slot outputHash).ncard

/-- The slot that a leaf of the batch belongs to. -/
def State.slotOf (s : State) (batchId : Bytes32) (leaf : ReceiptLeaf) : Slot where
  consensusGroupId := (s.batches batchId).consensusGroupId
  jobIdHash := leaf.jobIdHash
  shardIndex := leaf.shardIndex

/-- Some transaction challenges the leaf of the batch and is accepted. -/
def Challengeable (keccak256 : Keccak) (w : World) (batchId : Bytes32) (leaf : ReceiptLeaf)
    (reason : ReasonCode) : Prop :=
  ∃ env merkleProof auxData outcome, w.now ≤ env.timestamp ∧
    challengeReceipt keccak256 env w.registry batchId leaf merkleProof reason auxData = .ok outcome

theorem challengeable_of_isOk {batchId : Bytes32} {leaf : ReceiptLeaf} {reason : ReasonCode}
    (env : Env) (merkleProof : List Bytes32) (auxData : AuxData) (hTime : w.now ≤ env.timestamp)
    (hOk : (challengeReceipt keccak256 env w.registry batchId leaf merkleProof reason
      auxData).isOk = true) : Challengeable keccak256 w batchId leaf reason := by
  cases hOutcome : challengeReceipt keccak256 env w.registry batchId leaf merkleProof reason
      auxData with
  | error e =>
      rw [hOutcome] at hOk
      cases hOk
  | ok outcome => exact ⟨env, merkleProof, auxData, outcome, hTime, hOutcome⟩

/-- Another provider of the same non-zero group has committed a different output
for the leaf's job and shard. -/
def Contradicted (keccak256 : Keccak) (s : State) (batchId : Bytes32) (leaf : ReceiptLeaf) :
    Prop :=
  (s.batches batchId).consensusGroupId ≠ 0 ∧
    ∃ provider outputHash, provider ≠ (s.batches batchId).provider ∧
      outputHash ≠ leaf.outputHash ∧
      Reports keccak256 s (s.slotOf batchId leaf) provider outputHash

theorem handleConsensusMismatch_eq_true {s : State} {batchId : Bytes32} {leaf : ReceiptLeaf}
    {auxData : AuxData}
    (h : handleConsensusMismatch keccak256 s batchId (s.batches batchId) leaf auxData =
      .ok true) : Contradicted keccak256 s batchId leaf := by
  simp only [handleConsensusMismatch, bind_eq_ok_iff] at h
  obtain ⟨⟨other, majorityProof, majorityLeaf⟩, -, h⟩ := h
  simp only at h
  split at h
  · cases h
  split at h
  · cases h
  case isFalse hGroup =>
    split at h
    · cases h
    case isFalse hJob =>
      split at h
      · cases h
      case isFalse hShard =>
        split at h
        · cases h
        case isFalse hOutput =>
          simp only [bind_eq_ok_iff, require_eq_ok_iff] at h
          obtain ⟨-, hCommitted, h⟩ := h
          split at h
          · cases h
          case isFalse hSameGroup =>
            split at h
            · cases h
            case isFalse hProvider =>
              simp only [pure_eq_ok_iff] at h
              refine ⟨hGroup, (s.batches other).provider, majorityLeaf.outputHash,
                fun hSame => hProvider hSame.symm, fun hSame => hOutput hSame.symm, other,
                majorityLeaf, ⟨hCommitted, majorityProof, h⟩, rfl, ?_, ?_, ?_, rfl⟩
              · exact (not_not.mp hSameGroup).symm
              · exact (not_not.mp hJob).symm
              · exact (not_not.mp hShard).symm

/-! ## Along a run -/

theorem Reports.step {slot : Slot} {provider : Address} {outputHash : Bytes32}
    (hReports : Reports keccak256 w.registry slot provider outputHash)
    (h : (machine keccak256).step w tx = some w') :
    Reports keccak256 w'.registry slot provider outputHash := by
  obtain ⟨batchId, leaf, hHolds, hProvider, hGroup, hRest⟩ := hReports
  obtain ⟨-, -, hProvider', hGroup', -⟩ := committed_step h hHolds.committed
  exact ⟨batchId, leaf, hHolds.step h, hProvider'.trans hProvider, hGroup'.trans hGroup, hRest⟩

/-- The evidence behind a logged punishment for a mismatch. -/
def ContradictedLeaf (keccak256 : Keccak) (s : State) (batchId leafHash : Bytes32) : Prop :=
  (s.batches batchId).status ≠ .nonexistent ∧
    ∃ leaf, hashLeaf keccak256 leaf = leafHash ∧ Contradicted keccak256 s batchId leaf

theorem ContradictedLeaf.step {batchId leafHash : Bytes32}
    (hLeaf : ContradictedLeaf keccak256 w.registry batchId leafHash)
    (h : (machine keccak256).step w tx = some w') :
    ContradictedLeaf keccak256 w'.registry batchId leafHash := by
  obtain ⟨hCommitted, leaf, hHash, hGroup, provider, outputHash, hOther, hOutput, hReports⟩ := hLeaf
  obtain ⟨hStays, -, hProvider, hSameGroup, -⟩ := committed_step h hCommitted
  have hSlot : w'.registry.slotOf batchId leaf = w.registry.slotOf batchId leaf := by
    simp only [State.slotOf, hSameGroup]
  refine ⟨hStays, leaf, hHash, ?_, provider, outputHash, ?_, hOutput, ?_⟩
  · rw [hSameGroup]
    exact hGroup
  · rw [hProvider]
    exact hOther
  · rw [hSlot]
    exact hReports.step h

/-- A batch that no other provider of its group contradicts cannot be challenged
for a consensus mismatch, and every punishment for one in the log is of a leaf
that another provider contradicts. -/
theorem consensus_mismatch_needs_contradiction (keccak256 : Keccak) (d : Deployment)
    (txs : List Tx) :
    let w := d.after keccak256 txs
    (∀ batchId leaf, ¬ Contradicted keccak256 w.registry batchId leaf →
        ¬ Challengeable keccak256 w batchId leaf .consensusMismatch) ∧
      ∀ e ∈ w.log, ∀ batchId leafHash,
        e.punishment? = some ⟨.consensusMismatch, batchId, leafHash⟩ →
          ∃ leaf, hashLeaf keccak256 leaf = leafHash ∧
            Contradicted keccak256 w.registry batchId leaf := by
  intro w
  constructor
  · rintro batchId leaf hNot ⟨env, merkleProof, auxData, ⟨s', effects⟩, -, hOk⟩
    have hTransition := challengeReceipt_transition hOk
    cases hTransition with
    | commit hSome => cases hSome
    | challenge hPaused hPending hWindow hNew hProof hProven hCalls =>
        exact hNot (handleConsensusMismatch_eq_true hProven)
    | reconfigure hSetter => cases hSetter
  · intro e he batchId leafHash hp
    refine (punishments_justified .consensusMismatch (ContradictedLeaf keccak256)
      (fun _ _ _ h _ _ hLeaf => hLeaf.step h) ?_ d txs e he _ _ hp).2
    intro env s challenged leaf auxData hPending hDispatch
    refine ⟨?_, leaf, rfl, handleConsensusMismatch_eq_true hDispatch⟩
    rw [hPending]
    exact BatchStatus.noConfusion

/-! ## A majority does not protect -/

theorem provider_mem_senders (d : Deployment) (txs : List Tx) (batchId : Bytes32)
    (hCommitted : ((d.after keccak256 txs).registry.batches batchId).status ≠ .nonexistent) :
    ((d.after keccak256 txs).registry.batches batchId).provider ∈
      txs.map fun tx => tx.env.sender := by
  induction txs using List.reverseRecOn with
  | nil =>
      exfalso
      apply hCommitted
      rw [Deployment.after, Machine.run_nil, d.fresh]
      rfl
  | append_singleton txs tx ih =>
      have hRun : d.after keccak256 (txs ++ [tx]) =
          (machine keccak256).exec (d.after keccak256 txs) tx :=
        (machine keccak256).run_append d.world txs [tx]
      rw [hRun] at hCommitted ⊢
      rw [List.map_append, List.mem_append]
      cases hStep : (machine keccak256).step (d.after keccak256 txs) tx with
      | none =>
          rw [Machine.exec_of_refused _ hStep] at hCommitted ⊢
          exact .inl (ih hCommitted)
      | some w =>
          rw [Machine.exec_of_step _ hStep] at hCommitted ⊢
          -- The batch is new, and the sender's, or it was there before.
          by_cases hFresh : ((d.after keccak256 txs).registry.batches batchId).status = .nonexistent
          · rw [(created_step hStep hFresh hCommitted).1]
            exact .inr (List.mem_singleton.mpr rfl)
          · rw [(committed_step hStep hFresh).2.2.1]
            exact .inl (ih hFresh)

theorem reporters_ncard_le (d : Deployment) (txs : List Tx) (slot : Slot) :
    (reporters keccak256 (d.after keccak256 txs).registry slot).ncard ≤
      (txs.map fun tx => tx.env.sender).toFinset.card := by
  rw [← Set.ncard_coe_finset]
  apply Set.ncard_le_ncard
  · rintro provider ⟨outputHash, batchId, leaf, hHolds, rfl, -⟩
    rw [List.coe_toFinset]
    exact provider_mem_senders d txs batchId hHolds.committed
  · exact Finset.finite_toSet _

def outputCommit (outputHash : Bytes32) : CommitArgs :=
  smallCommit (hashLeaf polynomialHash (smallLeaf outputHash 5)) 8 10

def outputBatchId (sender : Address) (outputHash : Bytes32) : Bytes32 :=
  batchIdOf polynomialHash (smallEnv 1000 sender) (outputCommit outputHash) 0

def dissentRun : List Tx :=
  [⟨smallEnv 1000 2, .commitBatch (outputCommit 40)⟩,
    ⟨smallEnv 1000 3, .commitBatch (outputCommit 40)⟩,
    ⟨smallEnv 1000 4, .commitBatch (outputCommit 41)⟩]

theorem dissentRun_holds :
    Holds polynomialHash (smallDeployment.after polynomialHash dissentRun).registry
        (outputBatchId 2 40) (hashLeaf polynomialHash (smallLeaf 40 5)) ∧
      Holds polynomialHash (smallDeployment.after polynomialHash dissentRun).registry
        (outputBatchId 3 40) (hashLeaf polynomialHash (smallLeaf 40 5)) :=
  ⟨⟨by decide +kernel, [], by decide +kernel⟩, ⟨by decide +kernel, [], by decide +kernel⟩⟩

theorem dissentRun_hasMajority :
    HasMajority polynomialHash (smallDeployment.after polynomialHash dissentRun).registry
      ⟨8, 1, 0⟩ 40 := by
  obtain ⟨hTwo, hThree⟩ := dissentRun_holds
  have hSupport : ({2, 3} : Set Address) ⊆
      supporters polynomialHash (smallDeployment.after polynomialHash dissentRun).registry
        ⟨8, 1, 0⟩ 40 := by
    rintro provider (rfl | rfl)
    · exact ⟨_, _, hTwo, by decide +kernel, by decide +kernel, rfl, rfl, rfl⟩
    · exact ⟨_, _, hThree, by decide +kernel, by decide +kernel, rfl, rfl, rfl⟩
  have hPair : ({2, 3} : Set Address).ncard = 2 := Set.ncard_pair (by decide)
  have hAtLeast := Set.ncard_le_ncard hSupport (Set.toFinite _)
  have hAtMost := @reporters_ncard_le polynomialHash smallDeployment dissentRun ⟨8, 1, 0⟩
  have hSenders : (dissentRun.map fun tx => tx.env.sender).toFinset.card = 3 := by decide +kernel
  unfold HasMajority
  omega

/-- A majority does not protect: output 40 has it after `dissentRun`, and the
batch of account 2 can be challenged for that output all the same. -/
theorem majority_challengeable_dissentRun :
    ¬ ∀ (d : Deployment) (txs : List Tx) (slot : Slot) (outputHash : Bytes32),
      let w := d.after polynomialHash txs
      HasMajority polynomialHash w.registry slot outputHash →
        ∀ batchId leaf, Holds polynomialHash w.registry batchId (hashLeaf polynomialHash leaf) →
          w.registry.slotOf batchId leaf = slot → leaf.outputHash = outputHash →
            ¬ Challengeable polynomialHash w batchId leaf .consensusMismatch := by
  intro hClaim
  refine hClaim smallDeployment dissentRun ⟨8, 1, 0⟩ 40 dissentRun_hasMajority
    (outputBatchId 2 40) (smallLeaf 40 5) dissentRun_holds.1 (by decide +kernel) rfl ?_
  exact challengeable_of_isOk (smallEnv 1100 4) []
    ⟨none, none, some (outputBatchId 4 41, [], smallLeaf 41 5)⟩ (by decide +kernel)
    (by decide +kernel)

end Prsm.Registry
