import Prsm.Registry.Lifecycle

/-!
# Evidence behind a punishment

A challenge invalidates a receipt and may slash its provider.  Both leave an
effect in the log, and `Effect.punishment?` reads from it the reason, the batch
and the leaf hash.

Committed batches keep their record, so evidence made of committed batches, once given, stands for
the rest of the run.
-/

namespace Prsm.Registry

open Foundations Evm

variable {keccak256 : Keccak} {w w' : World} {tx : Tx}

/-- The batch is committed and its root proves the leaf hash. -/
structure Holds (keccak256 : Keccak) (s : State) (batchId leafHash : Bytes32) : Prop where
  committed : (s.batches batchId).status ≠ .nonexistent
  proves : MerkleProof.Proves keccak256 (s.batches batchId).merkleRoot leafHash

/-- A punishment, by its reason, the batch and the leaf hash. -/
structure Punishment where
  reason : ReasonCode
  batchId : Bytes32
  leafHash : Bytes32

/-- The punishment an effect carries out: the invalidation of a receipt, or a
slash. -/
def Effect.punishment? : Effect → Option Punishment
  | .receiptChallenged batchId leafHash _ reason _ => some ⟨reason, batchId, leafHash⟩
  | .slash _ _ _ batchId reason leafHash => some ⟨reason, batchId, leafHash⟩
  | _ => none

theorem Effect.batchId?_of_punishment {e : Effect} {p : Punishment}
    (h : e.punishment? = some p) : e.batchId? = some p.batchId := by
  cases e with
  | receiptChallenged batchId leafHash challenger reason value =>
      cases h
      rfl
  | slash bond provider challenger batchId reason leafHash =>
      cases h
      rfl
  | _ => cases h

/-! ## What committed batches keep -/

theorem committed_step (h : (machine keccak256).step w tx = some w') {batchId : Bytes32}
    (hCommitted : (w.registry.batches batchId).status ≠ .nonexistent) :
    (w'.registry.batches batchId).status ≠ .nonexistent ∧
      (w'.registry.batches batchId).merkleRoot = (w.registry.batches batchId).merkleRoot ∧
      (w'.registry.batches batchId).provider = (w.registry.batches batchId).provider ∧
      (w'.registry.batches batchId).consensusGroupId =
        (w.registry.batches batchId).consensusGroupId ∧
      (w'.registry.batches batchId).commitTimestamp =
        (w.registry.batches batchId).commitTimestamp := by
  obtain ⟨hStays, hSnapshot⟩ := snapshot_step h hCommitted
  have hRoot := congrArg Batch.merkleRoot hSnapshot
  have hProvider := congrArg Batch.provider hSnapshot
  have hGroup := congrArg Batch.consensusGroupId hSnapshot
  have hTime := congrArg Batch.commitTimestamp hSnapshot
  exact ⟨hStays, hRoot, hProvider, hGroup, hTime⟩

theorem Holds.step {batchId leafHash : Bytes32}
    (hHolds : Holds keccak256 w.registry batchId leafHash)
    (h : (machine keccak256).step w tx = some w') :
    Holds keccak256 w'.registry batchId leafHash := by
  obtain ⟨hStays, hRoot, -⟩ := committed_step h hHolds.committed
  refine ⟨hStays, ?_⟩
  rw [hRoot]
  exact hHolds.proves

theorem created_step (h : (machine keccak256).step w tx = some w') {batchId : Bytes32}
    (hFresh : (w.registry.batches batchId).status = .nonexistent)
    (hCommitted : (w'.registry.batches batchId).status ≠ .nonexistent) :
    (w'.registry.batches batchId).provider = tx.env.sender ∧
      (w'.registry.batches batchId).commitTimestamp = tx.env.timestamp := by
  obtain ⟨-, effects, hTransition, -, -⟩ := step_eq_some h
  cases hTransition.batchChange batchId with
  | same hSame =>
      rw [hSame] at hCommitted
      exact absurd hFresh hCommitted
  | created hPaused hFresh hNew =>
      rw [hNew]
      exact ⟨rfl, uint64_timestamp tx.env⟩
  | finalized hPending =>
      rw [hFresh] at hPending
      cases hPending
  | invalidated hPending =>
      rw [hFresh] at hPending
      cases hPending

theorem WellFormed.commitTimestamp_le (hw : WellFormed w) {batchId : Bytes32}
    (hCommitted : (w.registry.batches batchId).status ≠ .nonexistent) :
    (w.registry.batches batchId).commitTimestamp ≤ w.now := by
  have hBatch := hw.batch batchId hCommitted
  have hOrigin := hBatch.origin_le
  have hCommit := hBatch.commit_le
  have hFrontier := hw.frontier_le
  have hPaused := hw.paused_le
  simp only [World.runningSeconds] at hCommit
  omega

/-! ## The log of punishments -/

theorem Transition.punishment {env : Env} {s s' : State} {c : Call} {effects : List Effect}
    (h : Transition keccak256 env s c s' effects) {e : Effect} (he : e ∈ effects)
    {p : Punishment} (hp : e.punishment? = some p) :
    ∃ leaf merkleProof auxData, p.leafHash = hashLeaf keccak256 leaf ∧
      c = .challengeReceipt p.batchId leaf merkleProof p.reason auxData ∧
      (s.batches p.batchId).status = .pending ∧
      dispatchChallenge keccak256 env s p.batchId leaf p.reason auxData = .ok true := by
  have hBatch := Effect.batchId?_of_punishment hp
  cases h with
  | @commit _ args committed =>
      simp only [commitEffects, List.mem_cons] at he
      rcases he with rfl | he
      · cases hp
      · split at he
        · simp only [List.mem_singleton] at he
          subst he
          cases hp
        · cases he
  | finalize hPaused hPending hWindow hValue hCalls =>
      rcases settle_eq_ok hCalls with ⟨-, rfl⟩ | ⟨-, rfl⟩ <;> simp at he
      · subst he
        cases hp
      · rcases he with rfl | rfl <;> cases hp
  | challenge hPaused hPending hWindow hNew hProof hProven hCalls =>
      simp only [List.mem_cons] at he
      rcases he with rfl | he
      · cases hp
        exact ⟨_, _, _, rfl, rfl, hPending, hProven⟩
      · rcases slashProvider_eq_ok hCalls with rfl | rfl | rfl
        · cases he
        · simp only [List.mem_singleton] at he
          subst he
          cases hp
          exact ⟨_, _, _, rfl, rfl, hPending, hProven⟩
        · simp only [List.mem_singleton] at he
          subst he
          cases hp
  | reconfigure hCall hWindow hEffects =>
      rw [hEffects e he] at hBatch
      cases hBatch
  | pause => cases he
  | unpause => cases he

theorem punishments_justified (reason : ReasonCode) (J : State → Bytes32 → Bytes32 → Prop)
    (hStable : ∀ w tx w', (machine keccak256).step w tx = some w' →
      ∀ batchId leafHash, J w.registry batchId leafHash → J w'.registry batchId leafHash)
    (hProven : ∀ env s batchId leaf auxData, (s.batches batchId).status = .pending →
      dispatchChallenge keccak256 env s batchId leaf reason auxData = .ok true →
        J s batchId (hashLeaf keccak256 leaf))
    (d : Deployment) (txs : List Tx) :
    ∀ e ∈ (d.after keccak256 txs).log, ∀ batchId leafHash,
      e.punishment? = some ⟨reason, batchId, leafHash⟩ →
        J (d.after keccak256 txs).registry batchId leafHash := by
  refine (machine keccak256).run_invariant
    (fun w => ∀ e ∈ w.log, ∀ batchId leafHash,
      e.punishment? = some ⟨reason, batchId, leafHash⟩ → J w.registry batchId leafHash) ?_ ?_ txs
  · intro w tx w' hLog h e he batchId leafHash hp
    apply hStable w tx w' h
    obtain ⟨-, effects, hTransition, -, hAppend⟩ := step_eq_some h
    rw [hAppend, List.mem_append] at he
    -- Evidence for an old effect was there before; a new one comes with its own.
    rcases he with hOld | hNew
    · exact hLog e hOld batchId leafHash hp
    · obtain ⟨leaf, merkleProof, auxData, hLeaf, -, hPending, hDispatch⟩ :=
        hTransition.punishment hNew hp
      simp only at hLeaf hPending hDispatch
      rw [hLeaf]
      exact hProven tx.env w.registry batchId leaf auxData hPending hDispatch
  · intro e he
    cases he

end Prsm.Registry
