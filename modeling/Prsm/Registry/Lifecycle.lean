import Prsm.Registry.World

/-!
# The life of a batch

A batch id moves from nonexistent to pending to finalized and nowhere else.
Its record is written once: after the commit only the status and the
invalidated value change.  The log accounts for both.  The invalidated value
is the sum of the values of the leaves that were challenged, each leaf hash
once, and the one settlement call a finalized batch may have made was for what
remained.
-/

namespace Prsm.Registry

open Foundations Evm

variable {keccak256 : Keccak} {w w' : World} {tx : Tx}

/-- The moves of a batch's status. -/
inductive StatusMove : BatchStatus → BatchStatus → Prop
  | stay (status : BatchStatus) : StatusMove status status
  | commit : StatusMove .nonexistent .pending
  | finalize : StatusMove .pending .finalized

/-- Everything a commit writes: the record with its two running fields, the
status and the invalidated value, put back to what they were at the commit. -/
def Batch.snapshot (b : Batch) : Batch :=
  { b with status := .pending, invalidatedValueFTNS := 0 }

/-- The total of the values of a list of invalidated leaves. -/
def totalValue (leaves : List Invalidation) : Nat :=
  (leaves.map Invalidation.value).sum

@[simp] theorem totalValue_append_singleton (leaves : List Invalidation) (i : Invalidation) :
    totalValue (leaves ++ [i]) = totalValue leaves + i.value := by
  simp [totalValue]

theorem status_step (h : (machine keccak256).step w tx = some w') (batchId : Bytes32) :
    StatusMove (w.registry.batches batchId).status (w'.registry.batches batchId).status := by
  obtain ⟨-, effects, hTransition, -, -⟩ := step_eq_some h
  cases hTransition.batchChange batchId with
  | same hSame =>
      rw [hSame]
      exact .stay _
  | created hPaused hFresh hNew =>
      rw [hFresh, hNew]
      exact .commit
  | finalized hPending hNew =>
      rw [hPending, hNew]
      exact .finalize
  | invalidated hPending hNew =>
      rw [hNew]
      exact .stay _
variable {batchId : Bytes32}

theorem snapshot_step (h : (machine keccak256).step w tx = some w')
    (hCommitted : (w.registry.batches batchId).status ≠ .nonexistent) :
    (w'.registry.batches batchId).status ≠ .nonexistent ∧
      (w'.registry.batches batchId).snapshot = (w.registry.batches batchId).snapshot := by
  obtain ⟨-, effects, hTransition, -, -⟩ := step_eq_some h
  cases hTransition.batchChange batchId with
  | same hSame =>
      rw [hSame]
      exact ⟨hCommitted, rfl⟩
  | created hPaused hFresh hNew => exact absurd hFresh hCommitted
  | finalized hPending hNew =>
      rw [hNew]
      exact ⟨BatchStatus.noConfusion, rfl⟩
  | invalidated hPending hNew =>
      rw [hNew]
      exact ⟨hCommitted, rfl⟩

theorem snapshot_run
    (hCommitted : (w.registry.batches batchId).status ≠ .nonexistent) (txs : List Tx) :
    (((machine keccak256).run w txs).registry.batches batchId).status ≠ .nonexistent ∧
      (((machine keccak256).run w txs).registry.batches batchId).snapshot =
        (w.registry.batches batchId).snapshot := by
  refine (machine keccak256).run_invariant
    (fun later => (later.registry.batches batchId).status ≠ .nonexistent ∧
      (later.registry.batches batchId).snapshot = (w.registry.batches batchId).snapshot)
    ?_ ⟨hCommitted, rfl⟩ txs
  intro v i v' hv hStep
  obtain ⟨hStatus, hSnapshot⟩ := snapshot_step hStep hv.1
  exact ⟨hStatus, hSnapshot.trans hv.2⟩

/-! ## The log accounts for the record -/

/-- The books of one batch: what the log says about it agrees with its record. -/
structure Accounted (w : World) (batchId : Bytes32) : Prop where
  invalidated_eq : (w.registry.batches batchId).invalidatedValueFTNS =
    totalValue (invalidations batchId w.log)
  mem_iff : ∀ leafHash, w.registry.invalidatedReceipts batchId leafHash = true ↔
    leafHash ∈ (invalidations batchId w.log).map Invalidation.receiptLeafHash
  nodup : ((invalidations batchId w.log).map Invalidation.receiptLeafHash).Nodup
  unsettled : (w.registry.batches batchId).status ≠ .finalized → settlements batchId w.log = []
  settled : settlements batchId w.log = [] ∨
    ∃ amount, amount + (w.registry.batches batchId).invalidatedValueFTNS =
        (w.registry.batches batchId).totalValueFTNS ∧
      settlements batchId w.log =
        [⟨(w.registry.batches batchId).escrowPoolAtCommit, (w.registry.batches batchId).requester,
          (w.registry.batches batchId).provider, amount⟩]
  fresh : (w.registry.batches batchId).status = .nonexistent → invalidations batchId w.log = []

theorem Deployment.accounted (d : Deployment) (batchId : Bytes32) :
    Accounted d.world batchId := by
  obtain ⟨ownable, hState, -⟩ := d.state_eq
  refine ⟨?_, ?_, List.nodup_nil, fun _ => rfl, .inl rfl, fun _ => rfl⟩
  · rw [d.fresh]
    rfl
  · intro leafHash
    have hLog : invalidations batchId d.world.log = [] := rfl
    rw [hState, hLog]
    simp [State.initial]

theorem Accounted.step (ha : Accounted w batchId)
    (h : (machine keccak256).step w tx = some w') : Accounted w' batchId := by
  obtain ⟨-, effects, hTransition, -, hLog⟩ := step_eq_some h
  obtain ⟨hInvalidated, hMem, hNodup, hUnsettled, hSettled, hFreshLog⟩ := ha
  cases hTransition.batchChange batchId with
  | same hSame hLeaves hSettlements hInvalidations =>
      -- Nothing was logged about this batch.
      have hSettledLog : settlements batchId w'.log = settlements batchId w.log := by
        rw [hLog, settlements_append, hSettlements, List.append_nil]
      have hInvalidatedLog : invalidations batchId w'.log = invalidations batchId w.log := by
        rw [hLog, invalidations_append, hInvalidations, List.append_nil]
      rw [← hSame] at hInvalidated hUnsettled hSettled hFreshLog
      rw [← hLeaves] at hMem
      rw [← hInvalidatedLog] at hInvalidated hMem hNodup hFreshLog
      rw [← hSettledLog] at hUnsettled hSettled
      exact ⟨hInvalidated, hMem, hNodup, hUnsettled, hSettled, hFreshLog⟩
  | created hPaused hFresh hNew hLeaves hSettlements hInvalidations =>
      -- The books of an id that was never committed are empty.
      have hEmpty := hFreshLog hFresh
      have hNone := hUnsettled (by rw [hFresh]; exact BatchStatus.noConfusion)
      constructor <;>
        simp [hLog, hNew, hLeaves, hSettlements, hInvalidations, hEmpty, hNone, State.newBatch,
          totalValue]
      simpa [hEmpty] using hMem
  | finalized hPending hNew hLeaves hValue hSettlements hInvalidations =>
      have hNone := hUnsettled (by rw [hPending]; exact BatchStatus.noConfusion)
      constructor
      · simpa [hLog, hNew, hInvalidations] using hInvalidated
      · simpa [hLog, hLeaves, hInvalidations] using hMem
      · simpa [hLog, hInvalidations] using hNodup
      · intro hStatus
        rw [hNew] at hStatus
        exact absurd rfl hStatus
      · rw [hLog, settlements_append, hNone, hNew]
        rcases hSettlements with hNil | hOne
        · exact .inl hNil
        · exact .inr ⟨_, Nat.sub_add_cancel hValue, hOne⟩
      · intro hStatus
        rw [hNew] at hStatus
        cases hStatus
  | @invalidated leafHash leaf _ _ _ hPending hNew hUnseen hLeaves hSettlements hInvalidations =>
      have hNone := hUnsettled (by rw [hPending]; exact BatchStatus.noConfusion)
      -- The contract refuses a leaf it has invalidated, so the new one is not on the list.
      have hNotMem : leafHash ∉
          (invalidations batchId w.log).map Invalidation.receiptLeafHash := by
        rw [← hMem, hUnseen]
        exact Bool.false_ne_true
      constructor
      · rw [hLog, hNew, invalidations_append, hInvalidations, totalValue_append_singleton,
          ← hInvalidated]
      · intro other
        rw [hLog, hLeaves, invalidations_append, hInvalidations, List.map_append, List.mem_append,
          ← hMem]
        by_cases hOther : other = leafHash
        · simp [hOther]
        · simp [hOther]
      · rw [hLog, invalidations_append, hInvalidations, List.map_append]
        exact hNodup.append (List.nodup_singleton _) (by simpa using hNotMem)
      · intro _
        rw [hLog, settlements_append, hNone, hSettlements]
        rfl
      · rw [hLog, settlements_append, hNone, hSettlements]
        exact .inl rfl
      · intro hStatus
        rw [hNew] at hStatus
        simp only [hPending] at hStatus
        cases hStatus

theorem Deployment.after_accounted (d : Deployment) (txs : List Tx) (batchId : Bytes32) :
    Accounted (d.after keccak256 txs) batchId :=
  (machine keccak256).run_invariant (Accounted · batchId) (fun _ _ _ ha h => ha.step h)
    (d.accounted batchId) txs

theorem finalized_log_run
    (hFinal : (w.registry.batches batchId).status = .finalized) (txs : List Tx) :
    let later := (machine keccak256).run w txs
    (later.registry.batches batchId).status = .finalized ∧
      invalidations batchId later.log = invalidations batchId w.log ∧
      settlements batchId later.log = settlements batchId w.log := by
  refine (machine keccak256).run_invariant
    (fun later => (later.registry.batches batchId).status = .finalized ∧
      invalidations batchId later.log = invalidations batchId w.log ∧
      settlements batchId later.log = settlements batchId w.log)
    ?_ ⟨hFinal, rfl, rfl⟩ txs
  rintro v i v' ⟨hStatus, hInvalidated, hSettled⟩ hStep
  obtain ⟨-, effects, hTransition, -, hLog⟩ := step_eq_some hStep
  cases hTransition.batchChange batchId with
  | same hSame hLeaves hSettlements hInvalidations =>
      rw [hSame, hLog]
      exact ⟨hStatus, by simp [hInvalidations, hInvalidated], by simp [hSettlements, hSettled]⟩
  | created hPaused hFresh =>
      rw [hStatus] at hFresh
      cases hFresh
  | finalized hPending =>
      rw [hStatus] at hPending
      cases hPending
  | invalidated hPending =>
      rw [hStatus] at hPending
      cases hPending

end Prsm.Registry
