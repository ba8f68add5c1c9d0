import Prsm.Registry.Lifecycle

/-!
# The challenge window is exact

`unpausedSeconds` counts, over a run, the seconds during which a batch was
committed and the registry was not paused.  It reads only the times of the
transactions and the pause flag, never the contract's own accounting.

`effectiveElapsed` computes the same number from three snapshots.  Running time is the bridge:
`commitTimestamp - totalPausedAtBatchOrigin` is the running time at the commit,
`ClockWellFormed.step` says that running time grows with the clock exactly while the registry
runs, and so the difference is the count.
-/

namespace Prsm.Registry

open Foundations Evm

variable {keccak256 : Keccak} {w w' : World} {tx : Tx} {batchId : Bytes32}

/-- The batch is committed and the registry is running. -/
def World.Counting (w : World) (batchId : Bytes32) : Prop :=
  (w.registry.batches batchId).status ≠ .nonexistent ∧ w.registry.paused = false

instance (w : World) (batchId : Bytes32) : Decidable (w.Counting batchId) :=
  inferInstanceAs (Decidable (_ ∧ _))

/-- Seconds, up to the instant `t`, during which the batch was committed and the
registry was not paused.  Between two transactions nothing changes, so each
stretch counts in full or not at all. -/
def unpausedSeconds (keccak256 : Keccak) (batchId : Bytes32) (t : Nat) :
    World → List Tx → Nat
  | w, [] => if w.Counting batchId then t - w.now else 0
  | w, tx :: txs =>
      (if w.Counting batchId then ((machine keccak256).exec w tx).now - w.now else 0) +
        unpausedSeconds keccak256 batchId t ((machine keccak256).exec w tx) txs

/-! ## Running time along a run -/

/-- Running time at an instant `t` after the latest transaction. -/
def World.runningSecondsAt (w : World) (t : Nat) : Nat :=
  w.runningSeconds + (if w.registry.paused then 0 else t - w.now)

theorem WellFormed.exec (hw : WellFormed w) (tx : Tx) :
    WellFormed ((machine keccak256).exec w tx) := by
  cases hStep : (machine keccak256).step w tx with
  | none => rwa [Machine.exec_of_refused _ hStep]
  | some v =>
      rw [Machine.exec_of_step _ hStep]
      exact hw.step hStep

theorem runningSeconds_exec (hw : WellFormed w) (tx : Tx) :
    ((machine keccak256).exec w tx).runningSeconds =
      w.runningSecondsAt ((machine keccak256).exec w tx).now := by
  cases hStep : (machine keccak256).step w tx with
  | none =>
      rw [Machine.exec_of_refused _ hStep]
      simp [World.runningSecondsAt]
  | some v =>
      rw [Machine.exec_of_step _ hStep]
      exact (hw.toClockWellFormed.step hStep).running_eq

theorem runningSecondsAt_of_committed
    (hCommitted : (w.registry.batches batchId).status ≠ .nonexistent) (t : Nat) :
    w.runningSecondsAt t =
      w.runningSeconds + (if w.Counting batchId then t - w.now else 0) := by
  cases hPaused : w.registry.paused with
  | false => simp [World.runningSecondsAt, World.Counting, hCommitted, hPaused]
  | true => simp [World.runningSecondsAt, World.Counting, hPaused]

theorem unpausedSeconds_of_committed (hw : WellFormed w)
    (hCommitted : (w.registry.batches batchId).status ≠ .nonexistent) (t : Nat) (txs : List Tx) :
    w.runningSeconds + unpausedSeconds keccak256 batchId t w txs =
      ((machine keccak256).run w txs).runningSecondsAt t := by
  induction txs generalizing w with
  | nil =>
      rw [Machine.run_nil, runningSecondsAt_of_committed hCommitted]
      rfl
  | cons tx txs ih =>
      -- The batch stays committed, so this stretch and the rest count as running time.
      have hStays : (((machine keccak256).exec w tx).registry.batches batchId).status ≠
          .nonexistent := (snapshot_run hCommitted [tx]).1
      have hRest := ih (hw.exec tx) hStays
      have hHere : ((machine keccak256).exec w tx).runningSeconds = _ := runningSeconds_exec hw tx
      rw [runningSecondsAt_of_committed hCommitted] at hHere
      rw [Machine.run_cons, ← hRest, hHere, unpausedSeconds]
      omega

theorem runningSeconds_of_created (hw : WellFormed w)
    (h : (machine keccak256).step w tx = some w')
    (hFresh : (w.registry.batches batchId).status = .nonexistent)
    (hCommitted : (w'.registry.batches batchId).status ≠ .nonexistent) :
    w.registry.paused = false ∧
      (w'.registry.batches batchId).challengeWindowSecondsAtCommit =
        w.registry.challengeWindowSeconds ∧
      (w'.registry.batches batchId).commitTimestamp =
        w'.runningSeconds + (w'.registry.batches batchId).totalPausedAtBatchOrigin := by
  obtain ⟨hTime, effects, hTransition, hNow, -⟩ := step_eq_some h
  have hRunning := (hw.toClockWellFormed.step h).running_eq
  cases hTransition.batchChange batchId with
  | same hSame =>
      rw [hSame] at hCommitted
      exact absurd hFresh hCommitted
  | created hPaused hFresh hNew =>
      have hFrontier := World.frontier_of_running hPaused
      have hPausedLe := hw.paused_le
      rw [hPaused] at hRunning
      simp only [World.runningSeconds, Bool.false_eq_true, if_false] at hRunning ⊢
      rw [hNew]
      refine ⟨hPaused, hw.uint64_window, ?_⟩
      simp only [State.newBatch, hw.uint64_paused, uint64_timestamp]
      omega
  | finalized hPending =>
      rw [hFresh] at hPending
      cases hPending
  | invalidated hPending =>
      rw [hFresh] at hPending
      cases hPending

theorem unpausedSeconds_of_fresh (hw : WellFormed w)
    (hFresh : (w.registry.batches batchId).status = .nonexistent) (t : Nat) (txs : List Tx)
    (hCommitted :
      (((machine keccak256).run w txs).registry.batches batchId).status ≠ .nonexistent) :
    (((machine keccak256).run w txs).registry.batches batchId).commitTimestamp +
        unpausedSeconds keccak256 batchId t w txs =
      ((machine keccak256).run w txs).runningSecondsAt t +
        (((machine keccak256).run w txs).registry.batches batchId).totalPausedAtBatchOrigin := by
  induction txs generalizing w with
  | nil => exact absurd hFresh hCommitted
  | cons tx txs ih =>
      have hNotCounting : ¬ w.Counting batchId := fun hCounting => hCounting.1 hFresh
      simp only [unpausedSeconds, hNotCounting, if_false, Nat.zero_add, Machine.run_cons]
      rw [Machine.run_cons] at hCommitted
      cases hStep : (machine keccak256).step w tx with
      | none =>
          rw [Machine.exec_of_refused _ hStep] at hCommitted ⊢
          exact ih hw hFresh hCommitted
      | some v =>
          rw [Machine.exec_of_step _ hStep] at hCommitted ⊢
          have hv : WellFormed v := hw.step hStep
          by_cases hHere : (v.registry.batches batchId).status = .nonexistent
          · exact ih hv hHere hCommitted
          · -- This transaction is the commit; the rest of the run keeps the snapshot.
            obtain ⟨-, -, hStart⟩ := runningSeconds_of_created hw hStep hFresh hHere
            have hRest : _ + unpausedSeconds keccak256 batchId t v txs = _ :=
              unpausedSeconds_of_committed hv hHere t txs
            have hSnapshot : (((machine keccak256).run v txs).registry.batches batchId).snapshot =
                _ := (snapshot_run hHere txs).2
            have hCommit := congrArg Batch.commitTimestamp hSnapshot
            have hOrigin := congrArg Batch.totalPausedAtBatchOrigin hSnapshot
            simp only [Batch.snapshot] at hCommit hOrigin
            rw [hCommit, hOrigin]
            omega

/-! ## The four comparisons -/

theorem effectiveElapsed_eq (hw : WellFormed w) (hPaused : w.registry.paused = false)
    (hCommitted : (w.registry.batches batchId).status ≠ .nonexistent) {t : Nat}
    (hTime : w.now ≤ t) :
    effectiveElapsed w.registry t (w.registry.batches batchId) =
      .ok (w.runningSecondsAt t + (w.registry.batches batchId).totalPausedAtBatchOrigin -
        (w.registry.batches batchId).commitTimestamp) := by
  have hBatch := hw.batch batchId hCommitted
  have hOrigin := hBatch.origin_le
  have hCommit := hBatch.commit_le
  have hOriginCommit := hBatch.origin_le_commit
  have hFrontier := World.frontier_of_running hPaused
  have hPausedLe := hw.paused_le
  simp only [World.runningSecondsAt, World.runningSeconds, hPaused, Bool.false_eq_true,
    if_false] at hCommit ⊢
  simp only [effectiveElapsed, bind_eq_ok_iff, checkedSub_eq_ok_iff, pure_eq_ok_iff]
  refine ⟨_, ⟨by omega, rfl⟩, _, ⟨by omega, rfl⟩, ?_⟩
  split <;> omega

theorem requireWindow_iff {env : Env} {s : State} {elapsed : Nat}
    (hElapsed : effectiveElapsed s env.timestamp (s.batches batchId) = .ok elapsed) :
    (requireWindowOpen env s batchId = .ok () ↔
        elapsed < (s.batches batchId).challengeWindowSecondsAtCommit) ∧
      (requireWindowElapsed env s batchId = .ok () ↔
        (s.batches batchId).challengeWindowSecondsAtCommit ≤ elapsed) := by
  simp [requireWindowOpen, requireWindowElapsed, hElapsed]

theorem window_at_commit (hw : WellFormed w)
    (hFresh : (w.registry.batches batchId).status = .nonexistent) (txs : List Tx)
    (hCommitted :
      (((machine keccak256).run w txs).registry.batches batchId).status ≠ .nonexistent) :
    ∃ before tx after, txs = before ++ tx :: after ∧
      (((machine keccak256).run w before).registry.batches batchId).status = .nonexistent ∧
      (((machine keccak256).run w (before ++ [tx])).registry.batches batchId).status ≠
        .nonexistent ∧
      (((machine keccak256).run w txs).registry.batches batchId).challengeWindowSecondsAtCommit =
        ((machine keccak256).run w before).registry.challengeWindowSeconds := by
  induction txs generalizing w with
  | nil => exact absurd hFresh hCommitted
  | cons tx txs ih =>
      by_cases hHere : (((machine keccak256).exec w tx).registry.batches batchId).status =
          .nonexistent
      · obtain ⟨before, commit, after, rfl, hBefore, hAfter, hWindow⟩ :=
          ih (hw.exec tx) hHere hCommitted
        exact ⟨tx :: before, commit, after, rfl, hBefore, hAfter, hWindow⟩
      · refine ⟨[], tx, txs, rfl, hFresh, hHere, ?_⟩
        have hSnapshot := (@snapshot_run keccak256 _ _ hHere txs).2
        have hKept := congrArg Batch.challengeWindowSecondsAtCommit hSnapshot
        simp only [Batch.snapshot] at hKept
        rw [Machine.run_cons, hKept, Machine.run_nil]
        cases hStep : (machine keccak256).step w tx with
        | none =>
            rw [Machine.exec_of_refused _ hStep] at hHere
            exact absurd hFresh hHere
        | some v =>
            rw [Machine.exec_of_step _ hStep] at hHere ⊢
            exact (runningSeconds_of_created hw hStep hFresh hHere).2.1

/-- The challenge window of every pending batch is exact whenever the registry
runs.  `effectiveElapsed` is the number of unpaused seconds since the commit.
The challenge check passes while that number is below the window in force at
the commit and the finalize check passes from then on, so exactly one of them
passes at each instant, and the two views agree with the finalize check. -/
theorem challenge_window_exact (keccak256 : Keccak) (d : Deployment) (txs : List Tx)
    (batchId : Bytes32) (env : Env)
    (hPending : ((d.after keccak256 txs).registry.batches batchId).status = .pending)
    (hRunning : (d.after keccak256 txs).registry.paused = false)
    (hTime : (d.after keccak256 txs).now ≤ env.timestamp) :
    let s := (d.after keccak256 txs).registry
    let seconds := unpausedSeconds keccak256 batchId env.timestamp d.world txs
    effectiveElapsed s env.timestamp (s.batches batchId) = .ok seconds ∧
      (requireWindowOpen env s batchId = .ok () ↔
        seconds < (s.batches batchId).challengeWindowSecondsAtCommit) ∧
      Xor (requireWindowOpen env s batchId = .ok ())
        (requireWindowElapsed env s batchId = .ok ()) ∧
      (∃ before tx after, txs = before ++ tx :: after ∧
        ((d.after keccak256 before).registry.batches batchId).status = .nonexistent ∧
        ((d.after keccak256 (before ++ [tx])).registry.batches batchId).status ≠ .nonexistent ∧
        (s.batches batchId).challengeWindowSecondsAtCommit =
          (d.after keccak256 before).registry.challengeWindowSeconds) ∧
      (isFinalizable s env.timestamp batchId = .ok true ↔
        requireWindowElapsed env s batchId = .ok ()) ∧
      secondsUntilFinalizable s env.timestamp batchId =
        .ok ((s.batches batchId).challengeWindowSecondsAtCommit - seconds) := by
  intro s seconds
  have hw : WellFormed (d.after keccak256 txs) := d.after_wellFormed txs
  have hCommitted : (s.batches batchId).status ≠ .nonexistent := by
    rw [hPending]
    exact BatchStatus.noConfusion
  have hFresh : (d.world.registry.batches batchId).status = .nonexistent := by
    rw [d.fresh]
    rfl
  have hElapsed : effectiveElapsed s env.timestamp (s.batches batchId) = .ok seconds := by
    have hCount : (s.batches batchId).commitTimestamp + seconds =
        (d.after keccak256 txs).runningSecondsAt env.timestamp +
          (s.batches batchId).totalPausedAtBatchOrigin :=
      unpausedSeconds_of_fresh d.wellFormed hFresh env.timestamp txs hCommitted
    rw [effectiveElapsed_eq hw hRunning hCommitted hTime]
    congr 1
    show (d.after keccak256 txs).runningSecondsAt env.timestamp +
      (s.batches batchId).totalPausedAtBatchOrigin - (s.batches batchId).commitTimestamp = seconds
    omega
  obtain ⟨hOpen, hElapsedCheck⟩ := requireWindow_iff hElapsed
  refine ⟨hElapsed, hOpen, ?_, ?_, ?_, ?_⟩
  · rw [hOpen, hElapsedCheck]
    by_cases hLt : seconds < (s.batches batchId).challengeWindowSecondsAtCommit
    · exact .inl ⟨hLt, by omega⟩
    · exact .inr ⟨by omega, hLt⟩
  · exact window_at_commit d.wellFormed hFresh txs hCommitted
  · rw [hElapsedCheck]
    simp [isFinalizable, s, hPending, hElapsed]
  · have hNotSkipped : ¬ (s.batches batchId).status ≠ .pending := fun h => h hPending
    simp only [secondsUntilFinalizable, hNotSkipped, if_false, hElapsed, ok_bind, pure_eq_ok_iff]
    split <;> omega

def pausedRun : List Tx :=
  [⟨smallEnv 1000 2, .commitBatch (smallCommit 77 0 10)⟩,
    ⟨smallEnv 1100 1, .pause⟩, ⟨smallEnv 1500 1, .unpause⟩]

/-- At 1700 the batch of `pausedRun` has been challengeable for 300 seconds. -/
theorem challenge_window_exact_pausedRun :
    let s := (smallDeployment.after polynomialHash pausedRun).registry
    let batchId := batchIdOf polynomialHash (smallEnv 1000 2) (smallCommit 77 0 10) 0
    unpausedSeconds polynomialHash batchId 1700 smallDeployment.world pausedRun = 300 ∧
      effectiveElapsed s 1700 (s.batches batchId) =
        .ok (unpausedSeconds polynomialHash batchId 1700 smallDeployment.world pausedRun) :=
  ⟨by decide +kernel,
    (challenge_window_exact polynomialHash smallDeployment pausedRun _ (smallEnv 1700 3)
      (by decide +kernel) (by decide +kernel) (by decide +kernel)).1⟩

end Prsm.Registry
