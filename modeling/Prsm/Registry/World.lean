import Prsm.Registry.Transitions

/-!
# Runs of the registry

A `World` is the registry with the time of its latest transaction and the log
of everything it has emitted and called.  Transactions arrive in any order and
with any arguments.  One that reverts, or whose block would be older than the
latest, changes nothing, so a run is any list of transactions.

`WellFormed` collects what holds in every world of every run: the clock and
the pause accounting agree, every batch carries a commit time and a pause
baseline from its own past, and an id that was never committed holds the zero
record.
-/

namespace Prsm.Registry

open Foundations Evm

structure World where
  now : Nat
  registry : State
  log : List Effect

structure Tx where
  env : Env
  call : Call

/-- One transaction. -/
def step (keccak256 : Keccak) (w : World) (tx : Tx) : Option World :=
  if w.now ≤ tx.env.timestamp then
    match call keccak256 tx.env w.registry tx.call with
    | .ok (s, effects) => some ⟨tx.env.timestamp, s, w.log ++ effects⟩
    | .error _ => none
  else none

def machine (keccak256 : Keccak) : Machine World Tx where
  step := step keccak256

/-- A deployed registry: the constructor's arguments, with the proof that it
accepted them. -/
structure Deployment where
  block : Block
  initialOwner : Address
  initialChallengeWindow : Nat
  state : State
  constructed : construct initialOwner initialChallengeWindow = .ok state

def Deployment.world (d : Deployment) : World where
  now := d.block.timestamp
  registry := d.state
  log := []

/-- The world after the transactions `txs`. -/
def Deployment.after (d : Deployment) (keccak256 : Keccak) (txs : List Tx) : World :=
  (machine keccak256).run d.world txs

variable {keccak256 : Keccak} {w w' : World} {tx : Tx}

theorem step_eq_some (h : (machine keccak256).step w tx = some w') :
    w.now ≤ tx.env.timestamp ∧ ∃ effects,
      Transition keccak256 tx.env w.registry tx.call w'.registry effects ∧
        w'.now = tx.env.timestamp ∧ w'.log = w.log ++ effects := by
  simp only [machine, step] at h
  split at h
  case isTrue hTime =>
    split at h
    case h_1 s effects hCall =>
      cases h
      exact ⟨hTime, effects, call_transition hCall, rfl, rfl⟩
    case h_2 => cases h
  case isFalse => cases h

/-! ## The clock -/

/-- The last instant that counts as running time: the start of the pause in
progress, or now. -/
def World.frontier (w : World) : Nat :=
  if w.registry.paused then w.registry.pauseStartedAt else w.now

/-- Seconds of running time up to now, counted from the origin of the clock. -/
def World.runningSeconds (w : World) : Nat :=
  w.frontier - w.registry.totalPausedSeconds

theorem World.frontier_of_running (h : w.registry.paused = false) : w.frontier = w.now := by
  simp [World.frontier, h]

theorem World.frontier_of_paused (h : w.registry.paused = true) :
    w.frontier = w.registry.pauseStartedAt := by
  simp [World.frontier, h]

/-- The pause accounting of a world is consistent with its clock. -/
structure ClockWellFormed (w : World) : Prop where
  now_lt : w.now < 2 ^ 63
  frontier_le : w.frontier ≤ w.now
  paused_le : w.registry.totalPausedSeconds ≤ w.frontier

variable {s : State} {env : Env} {args : CommitArgs} {batchId : Bytes32}

@[simp] theorem commit_paused :
    (s.commit env args batchId).paused = s.paused := by
  simp only [State.commit, State.trackExpiry]
  split <;> rfl

@[simp] theorem commit_totalPausedSeconds :
    (s.commit env args batchId).totalPausedSeconds = s.totalPausedSeconds := by
  simp only [State.commit, State.trackExpiry]
  split <;> rfl

@[simp] theorem commit_challengeWindowSeconds :
    (s.commit env args batchId).challengeWindowSeconds = s.challengeWindowSeconds := by
  simp only [State.commit, State.trackExpiry]
  split <;> rfl

/-- What one transaction does to the clock: the pause total never falls, and
running time grows by the time passed exactly when the registry was running. -/
structure ClockStep (w w' : World) : Prop where
  wellFormed : ClockWellFormed w'
  total_le : w.registry.totalPausedSeconds ≤ w'.registry.totalPausedSeconds
  running_eq : w'.runningSeconds =
    w.runningSeconds + (if w.registry.paused then 0 else w'.now - w.now)

section ClockStep

variable (hc : ClockWellFormed w) (hTime : w.now ≤ w'.now) (hLt : w'.now < 2 ^ 63)
include hc hTime hLt

theorem ClockStep.of_running (hPaused : w.registry.paused = false)
    (hPaused' : w'.registry.paused = false)
    (hTotal : w'.registry.totalPausedSeconds = w.registry.totalPausedSeconds) :
    ClockStep w w' := by
  have hFrontier := World.frontier_of_running hPaused
  have hFrontier' := World.frontier_of_running hPaused'
  have hPausedLe := hc.paused_le
  refine ⟨⟨hLt, hFrontier'.le, by omega⟩, hTotal.ge, ?_⟩
  simp only [World.runningSeconds, hPaused, Bool.false_eq_true, if_false]
  omega

theorem ClockStep.of_paused (hPaused : w.registry.paused = true)
    (hPaused' : w'.registry.paused = true)
    (hStart : w'.registry.pauseStartedAt = w.registry.pauseStartedAt)
    (hTotal : w'.registry.totalPausedSeconds = w.registry.totalPausedSeconds) :
    ClockStep w w' := by
  have hFrontier := World.frontier_of_paused hPaused
  have hFrontier' := World.frontier_of_paused hPaused'
  have hFrontierLe := hc.frontier_le
  have hPausedLe := hc.paused_le
  refine ⟨⟨hLt, by omega, by omega⟩, hTotal.ge, ?_⟩
  simp only [World.runningSeconds, hPaused, if_true]
  omega

theorem ClockStep.of_pausing (hPaused : w.registry.paused = false)
    (hPaused' : w'.registry.paused = true) (hStart : w'.registry.pauseStartedAt = w'.now)
    (hTotal : w'.registry.totalPausedSeconds = w.registry.totalPausedSeconds) :
    ClockStep w w' := by
  have hFrontier := World.frontier_of_running hPaused
  have hFrontier' := World.frontier_of_paused hPaused'
  have hPausedLe := hc.paused_le
  refine ⟨⟨hLt, by omega, by omega⟩, hTotal.ge, ?_⟩
  simp only [World.runningSeconds, hPaused, Bool.false_eq_true, if_false]
  omega

theorem ClockStep.of_unpausing (hPaused : w.registry.paused = true)
    (hPaused' : w'.registry.paused = false)
    (hTotal : w'.registry.totalPausedSeconds =
      w.registry.totalPausedSeconds + (w'.now - w.registry.pauseStartedAt)) :
    ClockStep w w' := by
  have hFrontier := World.frontier_of_paused hPaused
  have hFrontier' := World.frontier_of_running hPaused'
  have hFrontierLe := hc.frontier_le
  have hPausedLe := hc.paused_le
  refine ⟨⟨hLt, hFrontier'.le, by omega⟩, by omega, ?_⟩
  simp only [World.runningSeconds, hPaused, if_true]
  omega

end ClockStep

theorem ClockWellFormed.step (hc : ClockWellFormed w)
    (h : (machine keccak256).step w tx = some w') : ClockStep w w' := by
  obtain ⟨hTime, effects, hTransition, hNow, -⟩ := step_eq_some h
  obtain ⟨now', s', log'⟩ := w'
  obtain ⟨env, c⟩ := tx
  simp only at hTransition hNow hTime
  subst hNow
  have hLt := env.timestamp_lt
  cases hTransition with
  | commit hCall hPaused hRequester hRoot hId hFresh =>
      exact .of_running hc hTime hLt hPaused (by simpa using hPaused) (by simp)
  | finalize hPaused hPending hWindow hValue hCalls =>
      exact .of_running hc hTime hLt hPaused hPaused rfl
  | challenge hPaused hPending hWindow hNew hProof hProven hCalls =>
      exact .of_running hc hTime hLt hPaused hPaused rfl
  | reconfigure hCall hWindow hEffects =>
      -- The setters work during a pause as well.
      cases hPaused : w.registry.paused with
      | false => exact .of_running hc hTime hLt hPaused hPaused rfl
      | true => exact .of_paused hc hTime hLt hPaused hPaused rfl rfl
  | pause hPaused => exact .of_pausing hc hTime hLt hPaused rfl rfl rfl
  | unpause hPaused hStart => exact .of_unpausing hc hTime hLt hPaused rfl rfl

/-- A committed batch lies in the past of the world.  `commitTimestamp` less the
pause baseline is the running time at its commit. -/
structure BatchWellFormed (w : World) (b : Batch) : Prop where
  origin_le : b.totalPausedAtBatchOrigin ≤ w.registry.totalPausedSeconds
  origin_le_commit : b.totalPausedAtBatchOrigin ≤ b.commitTimestamp
  commit_le : b.commitTimestamp - b.totalPausedAtBatchOrigin ≤ w.runningSeconds
  window_valid : validWindow b.challengeWindowSecondsAtCommit
  not_voided : b.status ≠ .voided

structure WellFormed (w : World) : Prop extends ClockWellFormed w where
  window_valid : validWindow w.registry.challengeWindowSeconds
  batch : ∀ batchId, (w.registry.batches batchId).status ≠ .nonexistent →
    BatchWellFormed w (w.registry.batches batchId)
  fresh : ∀ batchId, (w.registry.batches batchId).status = .nonexistent →
    w.registry.batches batchId = Batch.zero

theorem Deployment.state_eq (d : Deployment) :
    ∃ ownable, d.world.registry = State.initial ownable d.initialChallengeWindow ∧
      validWindow d.initialChallengeWindow := by
  have hConstructed := d.constructed
  simp only [construct, bind_eq_ok_iff, require_eq_ok_iff, pure_eq_ok_iff] at hConstructed
  obtain ⟨ownable, -, -, hWindow, hState⟩ := hConstructed
  exact ⟨ownable, hState.symm, hWindow⟩

theorem Deployment.fresh (d : Deployment) (batchId : Bytes32) :
    d.world.registry.batches batchId = Batch.zero := by
  obtain ⟨ownable, hState, -⟩ := d.state_eq
  rw [hState]
  rfl

theorem Deployment.wellFormed (d : Deployment) : WellFormed d.world := by
  obtain ⟨ownable, hState, hWindow⟩ := d.state_eq
  have hFrontier : d.world.frontier = d.block.timestamp := by
    rw [World.frontier_of_running (by rw [hState]; rfl)]
    rfl
  refine ⟨⟨d.block.timestamp_lt, hFrontier.le, ?_⟩, ?_, ?_, ?_⟩
  · rw [hState]
    exact Nat.zero_le _
  · rw [hState]
    exact hWindow
  · intro batchId hStatus
    rw [d.fresh] at hStatus
    exact absurd rfl hStatus
  · intro batchId _
    exact d.fresh batchId

theorem WellFormed.uint64_window (hw : WellFormed w) :
    uint64 w.registry.challengeWindowSeconds = w.registry.challengeWindowSeconds := by
  apply uint64_of_lt
  have hMax := hw.window_valid.2
  simp only [maxChallengeWindowSeconds] at hMax
  omega

theorem ClockWellFormed.uint64_paused (hc : ClockWellFormed w) :
    uint64 w.registry.totalPausedSeconds = w.registry.totalPausedSeconds := by
  apply uint64_of_lt
  have hPaused := hc.paused_le
  have hFrontier := hc.frontier_le
  have hNow := hc.now_lt
  omega

theorem uint64_timestamp (env : Env) : uint64 env.timestamp = env.timestamp := by
  apply uint64_of_lt
  have hTime := env.timestamp_lt
  omega

theorem WellFormed.newExpiry_eq (hw : WellFormed w) (env : Env) :
    w.registry.newExpiry env = env.timestamp + w.registry.challengeWindowSeconds := by
  unfold State.newExpiry
  rw [hw.uint64_window]
  apply uint64_of_lt
  have hTime := env.timestamp_lt
  have hMax := hw.window_valid.2
  simp only [maxChallengeWindowSeconds] at hMax
  omega

theorem BatchWellFormed.mono {b : Batch} (hb : BatchWellFormed w b)
    (hTotal : w.registry.totalPausedSeconds ≤ w'.registry.totalPausedSeconds)
    (hRunning : w.runningSeconds ≤ w'.runningSeconds) : BatchWellFormed w' b :=
  ⟨hb.origin_le.trans hTotal, hb.origin_le_commit, hb.commit_le.trans hRunning,
    hb.window_valid, hb.not_voided⟩

theorem Transition.window_valid {env : Env} {s s' : State} {c : Call} {effects : List Effect}
    (h : Transition keccak256 env s c s' effects) (hs : validWindow s.challengeWindowSeconds) :
    validWindow s'.challengeWindowSeconds := by
  cases h with
  | commit => simpa using hs
  | finalize => exact hs
  | challenge => exact hs
  | reconfigure hCall hWindow hEffects =>
      rcases hWindow with hSame | hValid
      · simp only [State.withSettings, hSame]
        exact hs
      · exact hValid
  | pause => exact hs
  | unpause => exact hs

theorem WellFormed.step (hw : WellFormed w)
    (h : (machine keccak256).step w tx = some w') : WellFormed w' := by
  obtain ⟨hClock, hTotal, hRunning⟩ := hw.toClockWellFormed.step h
  obtain ⟨hTime, effects, hTransition, hNow, -⟩ := step_eq_some h
  have hMono : ∀ {b : Batch}, BatchWellFormed w b → BatchWellFormed w' b :=
    fun hb => hb.mono hTotal (by omega)
  refine ⟨hClock, hTransition.window_valid hw.window_valid, ?_, ?_⟩
  · intro batchId hStatus
    cases hTransition.batchChange batchId with
    | same hSame =>
        rw [hSame] at hStatus ⊢
        exact hMono (hw.batch batchId hStatus)
    | created hPaused hFresh hNew =>
        -- A commit runs unpaused, so its time less its baseline is the running time.
        have hFrontier := World.frontier_of_running hPaused
        have hPausedLe := hw.paused_le
        rw [hPaused] at hRunning
        simp only [Bool.false_eq_true, if_false, World.runningSeconds] at hRunning
        rw [hNew]
        refine ⟨?_, ?_, ?_, ?_, BatchStatus.noConfusion⟩
        · exact (uint64_le _).trans hTotal
        · simp only [State.newBatch, hw.uint64_paused, uint64_timestamp]
          omega
        · simp only [State.newBatch, hw.uint64_paused, uint64_timestamp, World.runningSeconds]
          omega
        · simpa [State.newBatch, hw.uint64_window] using hw.window_valid
    | finalized hPending hNew =>
        have hBatch := hMono (hw.batch batchId (by simp [hPending]))
        rw [hNew]
        exact ⟨hBatch.origin_le, hBatch.origin_le_commit, hBatch.commit_le, hBatch.window_valid,
          BatchStatus.noConfusion⟩
    | invalidated hPending hNew =>
        have hBatch := hMono (hw.batch batchId (by simp [hPending]))
        rw [hNew]
        exact ⟨hBatch.origin_le, hBatch.origin_le_commit, hBatch.commit_le, hBatch.window_valid,
          hBatch.not_voided⟩
  · intro batchId hStatus
    cases hTransition.batchChange batchId with
    | same hSame =>
        rw [hSame] at hStatus ⊢
        exact hw.fresh batchId hStatus
    | created hPaused hFresh hNew =>
        rw [hNew] at hStatus
        cases hStatus
    | finalized hPending hNew =>
        rw [hNew] at hStatus
        cases hStatus
    | invalidated hPending hNew =>
        rw [hNew] at hStatus
        simp only [hPending] at hStatus
        cases hStatus

theorem Deployment.after_wellFormed (d : Deployment) (txs : List Tx) :
    WellFormed (d.after keccak256 txs) :=
  (machine keccak256).run_invariant WellFormed (fun _ _ _ hw h => hw.step h) d.wellFormed txs

/-! ## A small deployment

A concrete registry for the statements about single runs. -/

def smallDeployment : Deployment where
  block := smallBlock 1
  initialOwner := 1
  initialChallengeWindow := 3600
  state := State.initial ⟨1, 0⟩ 3600
  constructed := by rfl

def smallEnv (timestamp : Nat) (sender : Address) : Env where
  block := smallBlock timestamp
  sender := sender
  gasleft := 1000000
  codeLength := fun _ => 1
  verify := fun _ _ _ _ => some true
  settleFromRequester := fun _ _ _ _ => true
  slash := fun _ _ _ _ => true

def smallLeaf (outputHash : Bytes32) (valueFtns : Uint 128) : ReceiptLeaf where
  jobIdHash := 1
  shardIndex := 0
  providerIdHash := 2
  providerPubkeyHash := 3
  outputHash := outputHash
  executedAtUnix := 900
  valueFtns := valueFtns
  signatureHash := 5
  signingMessageHash := 6

def smallCommit (merkleRoot consensusGroupId : Bytes32) (totalValueFTNS : Uint 256) :
    CommitArgs where
  requester := 9
  merkleRoot := merkleRoot
  receiptCount := 1
  totalValueFTNS := totalValueFTNS
  tierSlashRateBps := 5000
  consensusGroupId := consensusGroupId
  metadataURI := ""
  attestationCommitment := 0

end Prsm.Registry
