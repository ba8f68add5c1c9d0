import Prsm.Registry.Evidence

/-!
# Invalidated value against declared value

A provider declares the total value of a batch at the commit, without revealing
its receipts, and each successful challenge adds the value written in the
challenged leaf.  Nothing ties the two together, so the invalidated value can
exceed the declared one.  `finalizeBatch` subtracts them in checked arithmetic
and then reverts for good, although `isFinalizable` answers yes.
-/

namespace Prsm.Registry

open Foundations Evm

variable {keccak256 : Keccak} {w w' : World} {tx : Tx}

/-- No batch has more value invalidated than declared. -/
def ValueCovered (w : World) : Prop :=
  ∀ batchId, (w.registry.batches batchId).invalidatedValueFTNS ≤
    (w.registry.batches batchId).totalValueFTNS

/-- A batch that `isFinalizable` reports is not stopped by arithmetic. -/
def FinalizesWithoutPanic (w : World) : Prop :=
  ∀ env batchId, isFinalizable w.registry env.timestamp batchId = .ok true →
    finalizeBatch env w.registry batchId ≠ .error panic

/-- A challenge is of a leaf whose value fits in what is left of the batch. -/
def ChallengeFits (w : World) (tx : Tx) : Prop :=
  ∀ batchId leaf merkleProof reason auxData,
    tx.call = .challengeReceipt batchId leaf merkleProof reason auxData →
      (w.registry.batches batchId).invalidatedValueFTNS + leaf.valueFtns ≤
        (w.registry.batches batchId).totalValueFTNS

theorem covered_step_iff (hCovered : ValueCovered w)
    (h : (machine keccak256).step w tx = some w') :
    ValueCovered w' ↔ ChallengeFits w tx := by
  obtain ⟨-, effects, hTransition, -, -⟩ := step_eq_some h
  constructor
  · intro hCovered' batchId leaf merkleProof reason auxData hCall
    have hBatch := hCovered' batchId
    rw [hCall] at hTransition
    generalize w'.registry = s' at hTransition hBatch
    cases hTransition with
    | commit hSome => cases hSome
    | challenge =>
        rw [invalidate_batches, Function.update_self] at hBatch
        exact hBatch
    | reconfigure hSetter => cases hSetter
  · intro hFits batchId
    have hBefore := hCovered batchId
    cases hTransition.batchChange batchId with
    | same hSame =>
        rw [hSame]
        exact hBefore
    | created hPaused hFresh hNew =>
        rw [hNew]
        exact Nat.zero_le _
    | finalized hPending hNew =>
        rw [hNew]
        exact hBefore
    | invalidated hPending hNew hUnseen hLeaves hSettlements hInvalidations hCall =>
        rw [hNew]
        exact hFits _ _ _ _ _ hCall

theorem checks_of_isFinalizable {env : Env} {s : State} {batchId : Bytes32}
    (h : isFinalizable s env.timestamp batchId = .ok true) :
    requirePending s batchId = .ok () ∧ requireWindowElapsed env s batchId = .ok () := by
  have hPending : (s.batches batchId).status = .pending := by
    by_contra hNot
    simp [isFinalizable, hNot] at h
  have hSkip : ¬ (s.batches batchId).status ≠ .pending := fun hNot => hNot hPending
  simp only [isFinalizable, hSkip, if_false, bind_eq_ok_iff, pure_eq_ok_iff,
    decide_eq_true_eq] at h
  obtain ⟨elapsed, hElapsed, hLe⟩ := h
  refine ⟨requirePending_eq_ok_iff.mpr hPending, ?_⟩
  simp only [requireWindowElapsed, hElapsed, ok_bind, require_eq_ok_iff]
  exact hLe

theorem panics_of_uncovered {env : Env} {s : State} {batchId : Bytes32}
    (hPaused : s.paused = false) (hFinalizable : isFinalizable s env.timestamp batchId = .ok true)
    (hValue : (s.batches batchId).totalValueFTNS < (s.batches batchId).invalidatedValueFTNS) :
    finalizeBatch env s batchId = .error panic := by
  obtain ⟨hPendingOk, hWindow⟩ := checks_of_isFinalizable hFinalizable
  have hRunning : s.whenNotPaused = .ok () := state_whenNotPaused_eq_ok_iff.mpr hPaused
  have hUnderflow : checkedSub panic (s.batches batchId).totalValueFTNS
      (s.batches batchId).invalidatedValueFTNS = .error panic := if_neg (by omega)
  simp only [finalizeBatch, hRunning, hPendingOk, hWindow, hUnderflow, ok_bind, error_bind]

theorem finalizes_of_covered (hCovered : ValueCovered w) : FinalizesWithoutPanic w := by
  intro env batchId hFinalizable hPanic
  obtain ⟨hPendingOk, hWindow⟩ := checks_of_isFinalizable hFinalizable
  have hValue := checkedSub_of_le panic (hCovered batchId)
  simp only [finalizeBatch, hPendingOk, hWindow, hValue, ok_bind, bind_eq_error_iff] at hPanic
  -- What can still fail is the pause guard or the settlement call, and neither panics.
  rcases hPanic with hPaused | ⟨-, -, hSettle | ⟨calls, -, hPure⟩⟩
  · revert hPaused
    unfold State.whenNotPaused Evm.whenNotPaused
    cases w.registry.paused <;> decide
  · revert hSettle
    unfold settle
    split
    · simp only [bind_eq_error_iff, require_eq_error_iff]
      rintro (⟨-, hError⟩ | ⟨-, -, ⟨-, hError⟩ | ⟨-, -, hError⟩⟩) <;> cases hError
    · intro hError
      cases hError
  · cases hPure

theorem Deployment.covered (d : Deployment) : ValueCovered d.world := by
  intro batchId
  rw [d.fresh]
  exact le_refl 0

/-- Throughout a run no batch has more value invalidated than declared, and no
finalizable batch is stopped by arithmetic, exactly when every challenge of the
run is of a leaf whose value fits in what is left of its batch. -/
theorem invalidated_le_total_iff (keccak256 : Keccak) (d : Deployment) (txs : List Tx) :
    (machine keccak256).EveryState (fun w => ValueCovered w ∧ FinalizesWithoutPanic w) d.world
        txs ↔
      (machine keccak256).EveryStep ChallengeFits d.world txs := by
  refine (machine keccak256).everyState_iff_everyStep (fun _ => True) _ ChallengeFits
    (fun _ _ _ _ _ => trivial) ?_ trivial ⟨d.covered, finalizes_of_covered d.covered⟩ txs
  rintro w tx w' - ⟨hCovered, -⟩ h
  rw [← covered_step_iff hCovered h]
  exact ⟨And.left, fun hCovered' => ⟨hCovered', finalizes_of_covered hCovered'⟩⟩

/-- The batch of `overvaluedRun`: it declares 10 and holds one leaf of value 50. -/
def overvaluedCommit : CommitArgs :=
  smallCommit (hashLeaf polynomialHash (smallLeaf 4 50)) 0 10

def overvaluedBatchId : Bytes32 :=
  batchIdOf polynomialHash (smallEnv 1000 2) overvaluedCommit 0

def overvaluedRun : List Tx :=
  [⟨smallEnv 1000 2, .commitBatch overvaluedCommit⟩,
    ⟨smallEnv 1100 9, .challengeReceipt overvaluedBatchId (smallLeaf 4 50) [] .noEscrow
      ⟨none, none, none⟩⟩]

/-- After `overvaluedRun` the batch is reported finalizable once its window has
passed, and finalizing it panics. -/
theorem invalidated_exceeds_total_overvaluedRun :
    ¬ (machine polynomialHash).EveryState (fun w => ValueCovered w ∧ FinalizesWithoutPanic w)
      smallDeployment.world overvaluedRun := by
  intro hEvery
  refine hEvery.last.2 (smallEnv 5000 3) overvaluedBatchId ?_ (panics_of_uncovered ?_ ?_ ?_)
  all_goals decide +kernel

end Prsm.Registry

/-!
# The first committer of a leaf

A double spend challenge needs a second batch that proves the same leaf and was
committed strictly earlier.  A batch that no other precedes can therefore not be
challenged this way, and since later commits carry later dates, it never can be.
-/

namespace Prsm.Registry

open Foundations Evm

variable {keccak256 : Keccak} {w w' : World} {tx : Tx} {batchId leafHash : Bytes32}

/-- The batch proves the leaf, and no committed batch that does is older. -/
structure FirstCommitter (keccak256 : Keccak) (s : State) (batchId leafHash : Bytes32) :
    Prop where
  holds : Holds keccak256 s batchId leafHash
  minimal : ∀ other, Holds keccak256 s other leafHash →
    (s.batches batchId).commitTimestamp ≤ (s.batches other).commitTimestamp

/-- Evidence of a double spend: an older batch that proves the same leaf. -/
def SpentEarlier (keccak256 : Keccak) (s : State) (batchId leafHash : Bytes32) : Prop :=
  (s.batches batchId).status ≠ .nonexistent ∧
    ∃ other, Holds keccak256 s other leafHash ∧
      (s.batches other).commitTimestamp < (s.batches batchId).commitTimestamp

theorem handleDoubleSpend_eq_true {s : State} {auxData : AuxData}
    (h : handleDoubleSpend keccak256 s batchId (s.batches batchId) leafHash auxData = .ok true) :
    ∃ other, Holds keccak256 s other leafHash ∧
      (s.batches other).commitTimestamp < (s.batches batchId).commitTimestamp := by
  simp only [handleDoubleSpend, bind_eq_ok_iff] at h
  obtain ⟨⟨other, conflictingProof⟩, -, h⟩ := h
  simp only at h
  split at h
  · cases h
  · simp only [bind_eq_ok_iff, require_eq_ok_iff] at h
    obtain ⟨-, hCommitted, h⟩ := h
    split at h
    · cases h
    case isFalse hEarlier =>
      simp only [pure_eq_ok_iff] at h
      exact ⟨other, ⟨hCommitted, conflictingProof, h⟩, by omega⟩

theorem FirstCommitter.not_spentEarlier {s : State}
    (hFirst : FirstCommitter keccak256 s batchId leafHash) :
    ¬ SpentEarlier keccak256 s batchId leafHash := by
  rintro ⟨-, other, hHolds, hEarlier⟩
  have hMinimal := hFirst.minimal other hHolds
  omega

/-! ## Along a run -/

theorem SpentEarlier.step (hSpent : SpentEarlier keccak256 w.registry batchId leafHash)
    (h : (machine keccak256).step w tx = some w') :
    SpentEarlier keccak256 w'.registry batchId leafHash := by
  obtain ⟨hCommitted, other, hHolds, hEarlier⟩ := hSpent
  obtain ⟨hStays, -, -, -, hTime⟩ := committed_step h hCommitted
  obtain ⟨-, -, -, -, hOtherTime⟩ := committed_step h hHolds.committed
  refine ⟨hStays, other, hHolds.step h, ?_⟩
  rw [hTime, hOtherTime]
  exact hEarlier

theorem FirstCommitter.step (hw : WellFormed w)
    (hFirst : FirstCommitter keccak256 w.registry batchId leafHash)
    (h : (machine keccak256).step w tx = some w') :
    FirstCommitter keccak256 w'.registry batchId leafHash := by
  obtain ⟨-, -, -, -, hTime⟩ := committed_step h hFirst.holds.committed
  refine ⟨hFirst.holds.step h, fun other hHolds => ?_⟩
  rw [hTime]
  by_cases hFresh : (w.registry.batches other).status = .nonexistent
  · -- A batch that this transaction commits is dated by the transaction.
    have hDated := (created_step h hFresh hHolds.committed).2
    have hPast := hw.commitTimestamp_le hFirst.holds.committed
    have hLater := (step_eq_some h).1
    omega
  · obtain ⟨-, hRoot, -, -, hOtherTime⟩ := committed_step h hFresh
    rw [hOtherTime]
    refine hFirst.minimal other ⟨hFresh, ?_⟩
    rw [← hRoot]
    exact hHolds.proves

/-- The first committer of a leaf is safe from double spend challenges on it.
However the run goes on, it stays the first committer, no effect ever invalidates
that leaf in its batch or slashes its provider for a double spend of it, and no
such challenge is accepted, whoever makes it and with whatever data. -/
theorem first_committer_protected (keccak256 : Keccak) (d : Deployment) (txs : List Tx)
    (batchId : Bytes32) (leaf : ReceiptLeaf)
    (hFirst : FirstCommitter keccak256 (d.after keccak256 txs).registry batchId
      (hashLeaf keccak256 leaf)) (more : List Tx) :
    let w := d.after keccak256 (txs ++ more)
    FirstCommitter keccak256 w.registry batchId (hashLeaf keccak256 leaf) ∧
      (∀ e ∈ w.log,
        e.punishment? ≠ some ⟨.doubleSpend, batchId, hashLeaf keccak256 leaf⟩) ∧
      ∀ env merkleProof auxData outcome,
        challengeReceipt keccak256 env w.registry batchId leaf merkleProof .doubleSpend auxData ≠
          .ok outcome := by
  intro w
  have hStill : FirstCommitter keccak256 w.registry batchId (hashLeaf keccak256 leaf) := by
    have hRun : w = (machine keccak256).run (d.after keccak256 txs) more :=
      (machine keccak256).run_append d.world txs more
    rw [hRun]
    refine ((machine keccak256).run_invariant
      (fun later => WellFormed later ∧
        FirstCommitter keccak256 later.registry batchId (hashLeaf keccak256 leaf))
      ?_ ⟨d.after_wellFormed txs, hFirst⟩ more).2
    rintro later tx later' ⟨hw, hHere⟩ h
    exact ⟨hw.step h, hHere.step hw h⟩
  refine ⟨hStill, ?_, ?_⟩
  · intro e he hp
    refine hStill.not_spentEarlier (punishments_justified .doubleSpend (SpentEarlier keccak256)
      (fun _ _ _ h _ _ hSpent => hSpent.step h) ?_ d (txs ++ more) e he _ _ hp)
    intro env s challenged challengedLeaf auxData hPending hDispatch
    refine ⟨?_, handleDoubleSpend_eq_true hDispatch⟩
    rw [hPending]
    exact BatchStatus.noConfusion
  · rintro env merkleProof auxData ⟨s', effects⟩ hOk
    have hTransition := challengeReceipt_transition hOk
    cases hTransition with
    | commit hSome => cases hSome
    | challenge hPaused hPending hWindow hNew hProof hProven hCalls =>
        refine hStill.not_spentEarlier ⟨hStill.holds.committed, ?_⟩
        exact handleDoubleSpend_eq_true hProven
    | reconfigure hSetter => cases hSetter

def copiedLeaf : ReceiptLeaf := smallLeaf 4 5

def copiedCommit : CommitArgs := smallCommit (hashLeaf polynomialHash copiedLeaf) 0 10

def copiedBatchId (timestamp : Nat) (sender : Address) : Bytes32 :=
  batchIdOf polynomialHash (smallEnv timestamp sender) copiedCommit 0

def firstRun : List Tx :=
  [⟨smallEnv 1000 2, .commitBatch copiedCommit⟩]

/-- Account 3 commits a copy in the same second and tries to have the original
punished. -/
def copyRun : List Tx :=
  [⟨smallEnv 1000 3, .commitBatch copiedCommit⟩,
    ⟨smallEnv 1001 3, .challengeReceipt (copiedBatchId 1000 2) copiedLeaf [] .doubleSpend
      ⟨some (copiedBatchId 1000 3, []), none, none⟩⟩]

theorem firstCommitter_firstRun :
    FirstCommitter polynomialHash (smallDeployment.after polynomialHash firstRun).registry
      (copiedBatchId 1000 2) (hashLeaf polynomialHash copiedLeaf) := by
  have hSome : ((machine polynomialHash).step smallDeployment.world
      ⟨smallEnv 1000 2, .commitBatch copiedCommit⟩).isSome := by decide +kernel
  obtain ⟨w, hStep⟩ := Option.isSome_iff_exists.mp hSome
  have hAfter : smallDeployment.after polynomialHash firstRun = w := by
    rw [firstRun, Deployment.after, Machine.run_cons, Machine.run_nil, Machine.exec_of_step _ hStep]
  have hDated : ∀ other, (w.registry.batches other).status ≠ .nonexistent →
      (w.registry.batches other).commitTimestamp = 1000 := by
    intro other hCommitted
    exact (created_step hStep (by rw [smallDeployment.fresh]; rfl) hCommitted).2
  have hHolds : Holds polynomialHash w.registry (copiedBatchId 1000 2)
      (hashLeaf polynomialHash copiedLeaf) := by
    rw [← hAfter]
    exact ⟨by decide +kernel, [], by decide +kernel⟩
  rw [hAfter]
  refine ⟨hHolds, fun other hOther => ?_⟩
  rw [hDated _ hHolds.committed, hDated _ hOther.committed]

/-- The copy does not displace the original, which goes unpunished. -/
theorem first_committer_protected_from_copy :
    FirstCommitter polynomialHash
        (smallDeployment.after polynomialHash (firstRun ++ copyRun)).registry
        (copiedBatchId 1000 2) (hashLeaf polynomialHash copiedLeaf) ∧
      ∀ e ∈ (smallDeployment.after polynomialHash (firstRun ++ copyRun)).log,
        e.punishment? ≠
          some ⟨.doubleSpend, copiedBatchId 1000 2, hashLeaf polynomialHash copiedLeaf⟩ := by
  have hProtected := first_committer_protected polynomialHash smallDeployment firstRun
    (copiedBatchId 1000 2) copiedLeaf firstCommitter_firstRun copyRun
  exact ⟨hProtected.1, hProtected.2.1⟩

end Prsm.Registry
