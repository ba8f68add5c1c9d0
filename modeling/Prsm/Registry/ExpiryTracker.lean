import Prsm.Registry.World

/-!
# The expiry tracker

The registry keeps one expiry and one pause baseline for each provider, and the
bond reads the pair as the time before which the provider's stake must not
leave.  It bounds the expiry of every pending batch of the provider as long as
each commit that overwrites the pair brings an expiry at least as late as those
of the pending batches, counted with the pauses since their own commits.

The contract compares the new expiry with the stored one instead, which was fixed at an earlier
commit and does not include the pauses since.  After a pause and a shortened window, a commit can
pass that comparison and still lower the bound below an older batch.
-/

namespace Prsm.Registry

open Foundations Evm

variable {keccak256 : Keccak} {w w' : World} {tx : Tx}

/-- When the challenge window of the batch closes, given the pauses completed so
far. -/
def State.batchExpiry (s : State) (b : Batch) : Nat :=
  b.commitTimestamp + b.challengeWindowSecondsAtCommit +
    (s.totalPausedSeconds - b.totalPausedAtBatchOrigin)

/-- The provider's tracked expiry, with the pauses completed since it was
written. -/
def State.trackedExpiry (s : State) (provider : Address) : Nat :=
  s.lastPendingBatchExpiry provider +
    (s.totalPausedSeconds - s.lastPendingBatchPausedAtAccrual provider)

/-- The tracker bounds the expiry of every pending batch. -/
def TrackerDominates (w : World) : Prop :=
  ∀ batchId, (w.registry.batches batchId).status = .pending →
    w.registry.batchExpiry (w.registry.batches batchId) ≤
      w.registry.trackedExpiry (w.registry.batches batchId).provider

/-- A commit leaves the stored expiry alone, or brings one that no pending batch
of the sender outlasts. -/
def CommitKeepsTracker (w : World) (tx : Tx) : Prop :=
  tx.call.commitArgs? ≠ none →
    tx.env.timestamp + w.registry.challengeWindowSeconds ≤
        w.registry.lastPendingBatchExpiry tx.env.sender ∨
      ∀ batchId, (w.registry.batches batchId).status = .pending →
        (w.registry.batches batchId).provider = tx.env.sender →
          w.registry.batchExpiry (w.registry.batches batchId) ≤
            tx.env.timestamp + w.registry.challengeWindowSeconds

/-- The baseline of the tracker is a pause total of the past. -/
structure TrackerWellFormed (w : World) : Prop extends WellFormed w where
  baseline_le : ∀ provider,
    w.registry.lastPendingBatchPausedAtAccrual provider ≤ w.registry.totalPausedSeconds

/-! ## What a commit does to the tracker -/

section Commit

variable {s : State} {env : Env} {args : CommitArgs} {committed : Bytes32}

theorem commit_of_not_later (h : s.newExpiry env ≤ s.lastPendingBatchExpiry env.sender) :
    (s.commit env args committed).lastPendingBatchExpiry = s.lastPendingBatchExpiry ∧
      (s.commit env args committed).lastPendingBatchPausedAtAccrual =
        s.lastPendingBatchPausedAtAccrual := by
  have hKept : s.trackExpiry env = s := if_neg (by omega)
  simp [State.commit, hKept]

theorem commit_of_later (h : s.lastPendingBatchExpiry env.sender < s.newExpiry env) :
    (s.commit env args committed).lastPendingBatchExpiry =
        Function.update s.lastPendingBatchExpiry env.sender (s.newExpiry env) ∧
      (s.commit env args committed).lastPendingBatchPausedAtAccrual =
        Function.update s.lastPendingBatchPausedAtAccrual env.sender
          (uint64 s.totalPausedSeconds) := by
  simp [State.commit, State.trackExpiry, h]

end Commit

variable {s' : State} {c : Call} {effects : List Effect}

theorem tracker_of_not_commit {env : Env} {s : State}
    (h : Transition keccak256 env s c s' effects) (hCall : c.commitArgs? = none) :
    s'.lastPendingBatchExpiry = s.lastPendingBatchExpiry ∧
      s'.lastPendingBatchPausedAtAccrual = s.lastPendingBatchPausedAtAccrual := by
  cases h with
  | commit hSome =>
      rw [hCall] at hSome
      cases hSome
  | finalize => exact ⟨rfl, rfl⟩
  | challenge => exact ⟨rfl, rfl⟩
  | reconfigure => exact ⟨rfl, rfl⟩
  | pause => exact ⟨rfl, rfl⟩
  | unpause => exact ⟨rfl, rfl⟩

theorem Transition.commit_inv {env : Env} {s : State}
    (h : Transition keccak256 env s c s' effects) (hCall : c.commitArgs? ≠ none) :
    ∃ args batchId, (s.batches batchId).status = .nonexistent ∧
      s' = s.commit env args batchId := by
  cases h with
  | commit hSome hPaused hRequester hRoot hId hFresh => exact ⟨_, _, hFresh, rfl⟩
  | finalize => exact absurd rfl hCall
  | challenge => exact absurd rfl hCall
  | reconfigure hSetter => exact absurd (Call.commitArgs?_of_reconfigures hSetter) hCall
  | pause => exact absurd rfl hCall
  | unpause => exact absurd rfl hCall

theorem TrackerWellFormed.step (hw : TrackerWellFormed w)
    (h : (machine keccak256).step w tx = some w') : TrackerWellFormed w' := by
  refine ⟨hw.toWellFormed.step h, fun provider => ?_⟩
  have hTotal := (hw.toClockWellFormed.step h).total_le
  have hBaseline := hw.baseline_le provider
  obtain ⟨-, effects, hTransition, -, -⟩ := step_eq_some h
  by_cases hCall : tx.call.commitArgs? = none
  · rw [(tracker_of_not_commit hTransition hCall).2]
    exact hBaseline.trans hTotal
  · obtain ⟨args, committed, -, hNew⟩ := hTransition.commit_inv hCall
    rcases Nat.lt_or_ge (w.registry.lastPendingBatchExpiry tx.env.sender)
      (w.registry.newExpiry tx.env) with hLater | hNotLater
    · rw [hNew, (commit_of_later hLater).2, commit_totalPausedSeconds]
      by_cases hSender : provider = tx.env.sender
      · subst hSender
        rw [Function.update_self]
        exact uint64_le _
      · rw [Function.update_of_ne hSender]
        exact hBaseline
    · rw [hNew, (commit_of_not_later hNotLater).2, commit_totalPausedSeconds]
      exact hBaseline

theorem Deployment.trackerWellFormed (d : Deployment) : TrackerWellFormed d.world := by
  obtain ⟨ownable, hState, -⟩ := d.state_eq
  refine ⟨d.wellFormed, fun provider => ?_⟩
  rw [hState]
  exact Nat.zero_le _

/-! ## Domination, step by step -/

theorem pending_origin {env : Env} {s : State}
    (h : Transition keccak256 env s c s' effects) (batchId : Bytes32)
    (hPending : (s'.batches batchId).status = .pending) :
    ((s.batches batchId).status = .pending ∧
        (s'.batches batchId).provider = (s.batches batchId).provider ∧
        ∀ t : State, t.batchExpiry (s'.batches batchId) = t.batchExpiry (s.batches batchId)) ∨
      ∃ args, c.commitArgs? = some args ∧ s'.batches batchId = s.newBatch env args := by
  cases h.batchChange batchId with
  | same hSame =>
      rw [hSame] at hPending ⊢
      exact .inl ⟨hPending, rfl, fun _ => rfl⟩
  | created hPaused hFresh hNew hLeaves hSettlements hInvalidations hCall =>
      exact .inr ⟨_, hCall, hNew⟩
  | finalized hWas hNew =>
      rw [hNew] at hPending
      cases hPending
  | invalidated hWas hNew =>
      rw [hNew]
      exact .inl ⟨hWas, rfl, fun _ => rfl⟩

theorem dominates_of_not_commit (hw : TrackerWellFormed w) (hDom : TrackerDominates w)
    (h : (machine keccak256).step w tx = some w') (hCall : tx.call.commitArgs? = none) :
    TrackerDominates w' := by
  intro batchId hPending
  have hTotal := (hw.toClockWellFormed.step h).total_le
  obtain ⟨-, effects, hTransition, -, -⟩ := step_eq_some h
  obtain ⟨hExpiry, hBaseline⟩ := tracker_of_not_commit hTransition hCall
  rcases pending_origin hTransition batchId hPending with
    ⟨hWas, hProvider, hSame⟩ | ⟨args, hSome, -⟩
  · have hOrigin := (hw.batch batchId (by rw [hWas]; exact BatchStatus.noConfusion)).origin_le
    have hBaselineLe := hw.baseline_le (w.registry.batches batchId).provider
    -- Both baselines lie in the past, so a completed pause moves both sides by its length.
    have hBound := hDom batchId hWas
    rw [hSame, hProvider]
    simp only [State.batchExpiry, State.trackedExpiry, hExpiry, hBaseline] at hBound ⊢
    omega
  · rw [hCall] at hSome
    cases hSome

theorem batchExpiry_newBatch (hw : WellFormed w) (env : Env) (args : CommitArgs) :
    w.registry.batchExpiry (w.registry.newBatch env args) = w.registry.newExpiry env := by
  rw [hw.newExpiry_eq]
  simp only [State.batchExpiry, State.newBatch, hw.uint64_paused, hw.uint64_window,
    uint64_timestamp]
  omega

section CommitStep

variable {env : Env} {args : CommitArgs} {committed : Bytes32}

@[simp] theorem batchExpiry_commit (s : State) (b : Batch) :
    (s.commit env args committed).batchExpiry b = s.batchExpiry b := by
  simp [State.batchExpiry]

theorem trackedExpiry_commit_of_later (hc : ClockWellFormed w)
    (h : w.registry.lastPendingBatchExpiry env.sender < w.registry.newExpiry env)
    (provider : Address) :
    (w.registry.commit env args committed).trackedExpiry provider =
      if provider = env.sender then w.registry.newExpiry env
      else w.registry.trackedExpiry provider := by
  obtain ⟨hExpiry, hBaseline⟩ := @commit_of_later w.registry env args committed h
  unfold State.trackedExpiry
  rw [hExpiry, hBaseline, commit_totalPausedSeconds, hc.uint64_paused]
  split
  · next hSender => simp [hSender]
  · next hSender => simp [hSender]

theorem trackedExpiry_commit_of_not_later {s : State}
    (h : s.newExpiry env ≤ s.lastPendingBatchExpiry env.sender) (provider : Address) :
    (s.commit env args committed).trackedExpiry provider = s.trackedExpiry provider := by
  obtain ⟨hExpiry, hBaseline⟩ := @commit_of_not_later s env args committed h
  unfold State.trackedExpiry
  rw [hExpiry, hBaseline, commit_totalPausedSeconds]

theorem dominates_commit (hw : WellFormed w)
    (hNow : w'.registry = w.registry.commit env args committed)
    (hSelf : w.registry.newExpiry env ≤ w'.registry.trackedExpiry env.sender)
    (hOthers : ∀ batchId, (w.registry.batches batchId).status = .pending →
      w.registry.batchExpiry (w.registry.batches batchId) ≤
        w'.registry.trackedExpiry (w.registry.batches batchId).provider) :
    TrackerDominates w' := by
  intro batchId hPending
  by_cases hSame : batchId = committed
  · subst hSame
    have hNew : w'.registry.batches batchId = w.registry.newBatch env args := by
      rw [hNow, commit_batches, Function.update_self]
    rw [hNew, hNow, batchExpiry_commit, batchExpiry_newBatch hw, ← hNow]
    exact hSelf
  · have hOld : w'.registry.batches batchId = w.registry.batches batchId := by
      rw [hNow, commit_batches, Function.update_of_ne hSame]
    rw [hOld] at hPending ⊢
    rw [hNow, batchExpiry_commit, ← hNow]
    exact hOthers batchId hPending

end CommitStep

theorem dominates_commit_iff (hw : TrackerWellFormed w) (hDom : TrackerDominates w)
    (h : (machine keccak256).step w tx = some w') (hCall : tx.call.commitArgs? ≠ none) :
    TrackerDominates w' ↔ CommitKeepsTracker w tx := by
  obtain ⟨-, effects, hTransition, -, -⟩ := step_eq_some h
  obtain ⟨args, committed, hFresh, hNew⟩ := hTransition.commit_inv hCall
  have hExpiryEq := hw.newExpiry_eq tx.env
  rcases Nat.lt_or_ge (w.registry.lastPendingBatchExpiry tx.env.sender)
    (w.registry.newExpiry tx.env) with hLater | hNotLater
  · -- The pair is overwritten: the bound for the sender is now the new expiry.
    have hTracked : ∀ provider, w'.registry.trackedExpiry provider =
        if provider = tx.env.sender then w.registry.newExpiry tx.env
        else w.registry.trackedExpiry provider := by
      intro provider
      rw [hNew]
      exact trackedExpiry_commit_of_later hw.toClockWellFormed hLater provider
    constructor
    · intro hDom' _
      refine .inr fun batchId hPending hSender => ?_
      have hOther : w'.registry.batches batchId = w.registry.batches batchId := by
        rw [hNew, commit_batches, Function.update_of_ne]
        rintro rfl
        rw [hFresh] at hPending
        cases hPending
      have hBound := hDom' batchId (by rwa [hOther])
      rw [hOther, hTracked, if_pos hSender, hNew, batchExpiry_commit] at hBound
      omega
    · intro hKeeps
      refine dominates_commit hw.toWellFormed hNew ?_ fun batchId hPending => ?_
      · rw [hTracked, if_pos rfl]
      · rw [hTracked]
        split
        · next hSender =>
            rcases hKeeps hCall with hStored | hAll
            · omega
            · have hBound := hAll batchId hPending hSender
              omega
        · exact hDom batchId hPending
  · -- The pair stays, and the new batch is below it already.
    have hTracked : ∀ provider, w'.registry.trackedExpiry provider =
        w.registry.trackedExpiry provider := by
      intro provider
      rw [hNew]
      exact trackedExpiry_commit_of_not_later hNotLater provider
    refine ⟨fun _ _ => .inl (by omega), fun _ => ?_⟩
    refine dominates_commit hw.toWellFormed hNew ?_ fun batchId hPending => ?_
    · rw [hTracked]
      exact hNotLater.trans (Nat.le_add_right _ _)
    · rw [hTracked]
      exact hDom batchId hPending

/-! ## Domination over runs -/

theorem dominates_step_iff (hw : TrackerWellFormed w) (hDom : TrackerDominates w)
    (h : (machine keccak256).step w tx = some w') :
    TrackerDominates w' ↔ CommitKeepsTracker w tx := by
  by_cases hCall : tx.call.commitArgs? = none
  · exact ⟨fun _ hSome => absurd hCall hSome, fun _ => dominates_of_not_commit hw hDom h hCall⟩
  · exact dominates_commit_iff hw hDom h hCall

theorem Deployment.dominates (d : Deployment) : TrackerDominates d.world := by
  intro batchId hPending
  rw [d.fresh] at hPending
  cases hPending

/-- The tracker bounds every pending batch throughout a run exactly when every
commit of the run leaves the stored expiry alone or brings one that no pending
batch of its provider outlasts. -/
theorem tracker_dominates_iff (keccak256 : Keccak) (d : Deployment) (txs : List Tx) :
    (machine keccak256).EveryState TrackerDominates d.world txs ↔
      (machine keccak256).EveryStep CommitKeepsTracker d.world txs :=
  (machine keccak256).everyState_iff_everyStep TrackerWellFormed TrackerDominates
    CommitKeepsTracker (fun _ _ _ hw h => hw.step h)
    (fun _ _ _ hw hDom h => dominates_step_iff hw hDom h) d.trackerWellFormed d.dominates txs

/-- A batch under a window of thirty days, a pause of twenty days, and a second
batch under a window of twenty-five. -/
def shortenedRun : List Tx :=
  [⟨smallEnv 100 1, .setChallengeWindowSeconds 2592000⟩,
    ⟨smallEnv 1000 2, .commitBatch (smallCommit 77 0 10)⟩,
    ⟨smallEnv 1100 1, .pause⟩, ⟨smallEnv 1729100 1, .unpause⟩,
    ⟨smallEnv 1729200 1, .setChallengeWindowSeconds 2160000⟩,
    ⟨smallEnv 1729300 2, .commitBatch (smallCommit 78 0 10)⟩]

/-- The second commit of `shortenedRun` lowers the bound below the first batch,
which is still pending. -/
theorem tracker_not_dominating_shortenedRun :
    ¬ (machine polynomialHash).EveryState TrackerDominates smallDeployment.world shortenedRun := by
  intro hEvery
  have hBound := hEvery.last (batchIdOf polynomialHash (smallEnv 1000 2) (smallCommit 77 0 10) 0)
    (by decide +kernel)
  revert hBound
  decide +kernel

end Prsm.Registry
