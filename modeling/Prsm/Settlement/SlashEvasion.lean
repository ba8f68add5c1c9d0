import Prsm.Registry.ExpiryTracker
import Prsm.StakeBond.Solvency

/-!
# The registry and the bond together

A provider's stake backs the batches it commits, so it must not leave the bond
while one of them can still be challenged.  The bond enforces this at each
`withdraw` by reading the registry's tracker.

The two contracts see each other as they do on chain: a challenge slashes the bond, and the bond
reads the registry's views. `FloorHolds` is what the guard needs.  Every commit must keep the
tracker above the pending batches, and a withdrawal made while the registry is paused must come
from a provider whose batches had closed when the pause began: the tracker does not know of a
pause in progress, whose seconds do not count against the window.
-/

namespace Prsm.Settlement

open Foundations Evm

structure World where
  /-- The registry with its clock and log. -/
  chain : Registry.World
  bond : StakeBond.State
  token : Token
  /-- The provider's stake was slashable when this batch was committed. -/
  backed : Bytes32 → Bool

inductive Input
  | registry (env : Registry.Env) (call : Registry.Call)
  | bond (env : StakeBond.Env) (call : StakeBond.Call)
  | token (env : StakeBond.Env) (call : Token.Call)

/-! ## What the contracts see of each other -/

/-- The registry's answers to the bond. -/
def slasherView (s : Registry.State) : StakeBond.SlasherView where
  challengeWindowSeconds := some s.challengeWindowSeconds
  lastPendingBatchExpiry := fun provider => some (s.lastPendingBatchExpiry provider)
  lastPendingBatchPausedAtAccrual := fun provider =>
    some (s.lastPendingBatchPausedAtAccrual provider)
  totalPausedSeconds := some s.totalPausedSeconds

/-- A transaction as the bond sees it: its slasher is this registry, which has
code. -/
def World.bondEnv (w : World) (env : StakeBond.Env) : StakeBond.Env :=
  { env with
    codeLength := Function.update env.codeLength w.bond.slasher 1
    slasherView := slasherView w.chain.registry }

/-- The call `slash` that the registry makes on the bond. -/
def World.slashCall (w : World) (env : Registry.Env) (bond : StakeBond.State)
    (provider challenger : Address) (batchId : Bytes32) : StakeBond.Outcome :=
  StakeBond.slash
    { block := env.block
      sender := w.bond.slasher
      codeLength := env.codeLength
      slasherView := slasherView w.chain.registry
      tokenDeclines := false }
    bond w.token provider challenger batchId

/-- A transaction as the registry sees it: a slash on this bond is answered by
the bond. -/
def World.registryEnv (w : World) (env : Registry.Env) : Registry.Env :=
  { env with
    slash := fun target provider challenger batchId =>
      if target = w.bond.self then (w.slashCall env w.bond provider challenger batchId).isOk
      else env.slash target provider challenger batchId }

/-- The bond after one effect of a registry transaction. -/
def World.applyEffect (w : World) (env : Registry.Env) (bond : StakeBond.State) :
    Registry.Effect → StakeBond.State
  | .slash target provider challenger batchId _ _ =>
      if target = w.bond.self then
        match w.slashCall env bond provider challenger batchId with
        | .ok (bond', _, _) => bond'
        | .error _ => bond
      else bond
  | _ => bond

/-- Which batches were committed under a slashable stake, after a transaction that
led to `s`. -/
def World.backedAfter (w : World) (env : Registry.Env) (s : Registry.State) : Bytes32 → Bool :=
  fun batchId =>
    if (w.chain.registry.batches batchId).status = .nonexistent ∧
        (s.batches batchId).status ≠ .nonexistent then
      (w.bond.stakes env.sender).status.slashable
    else w.backed batchId

def step (keccak256 : Keccak) (w : World) : Input → Option World
  | .registry env c =>
      if w.chain.now ≤ env.timestamp then
        match Registry.call keccak256 (w.registryEnv env) w.chain.registry c with
        | .ok (s, effects) =>
            some
              { chain := ⟨env.timestamp, s, w.chain.log ++ effects⟩
                bond := effects.foldl (w.applyEffect env) w.bond
                token := w.token
                backed := w.backedAfter env s }
        | .error _ => none
      else none
  | .bond env c =>
      if w.chain.now ≤ env.timestamp then
        match StakeBond.call (w.bondEnv env) w.bond w.token c with
        | .ok (bond, token, _) =>
            some { w with chain := { w.chain with now := env.timestamp }, bond, token }
        | .error _ => none
      else none
  | .token env c =>
      if w.chain.now ≤ env.timestamp ∧ env.sender ≠ w.bond.self then
        match w.token.call env.sender c with
        | .ok token => some { w with chain := { w.chain with now := env.timestamp }, token }
        | .error _ => none
      else none

def machine (keccak256 : Keccak) : Machine World Input where
  step := step keccak256

/-- The two contracts, deployed.  The bond's slasher is the registry. -/
structure Deployment where
  registry : Registry.Deployment
  bond : StakeBond.Deployment

def Deployment.world (d : Deployment) : World where
  chain := d.registry.world
  bond := d.bond.state
  token := d.bond.token
  backed := fun _ => false

/-- The last instant up to `t` that counts against a challenge window: the start
of the pause in progress, or `t` itself. -/
def frontierAt (s : Registry.State) (t : Nat) : Nat :=
  if s.paused then s.pauseStartedAt else t

/-- At `t` the challenge window of the batch is still open, where a pause in
progress does not count as elapsing. -/
def WindowOpen (s : Registry.State) (t : Nat) (b : Registry.Batch) : Prop :=
  ∃ elapsed, Registry.effectiveElapsed s (frontierAt s t) b = .ok elapsed ∧
    elapsed < b.challengeWindowSecondsAtCommit

/-- A withdrawal is not made while a batch that the stake backs is pending with
its window open. -/
def NoSlashEvasion (w : World) (i : Input) : Prop :=
  ∀ env, i = .bond env .withdraw → ∀ batchId,
    (w.chain.registry.batches batchId).provider = env.sender → w.backed batchId = true →
      (w.chain.registry.batches batchId).status = .pending →
        ¬ WindowOpen w.chain.registry env.timestamp (w.chain.registry.batches batchId)

/-- What each step must respect.  A commit keeps the tracker above the sender's
pending batches.  A withdrawal finds the registry running, or only batches whose
window had closed when the pause in progress began. -/
def FloorHolds (w : World) : Input → Prop
  | .registry env c => Registry.CommitKeepsTracker w.chain ⟨env, c⟩
  | .bond env .withdraw =>
      w.chain.registry.paused = false ∨
        ∀ batchId, (w.chain.registry.batches batchId).provider = env.sender →
          w.backed batchId = true → (w.chain.registry.batches batchId).status = .pending →
            w.chain.registry.batchExpiry (w.chain.registry.batches batchId) ≤
              w.chain.registry.pauseStartedAt
  | _ => True

variable {keccak256 : Keccak} {w w' : World} {i : Input}

theorem wellFormed_advance {chain : Registry.World} {t : Nat}
    (hw : Registry.TrackerWellFormed chain) (hTime : chain.now ≤ t) (hLt : t < 2 ^ 63) :
    Registry.TrackerWellFormed { chain with now := t } := by
  have hFrontierLe := hw.frontier_le
  have hPausedLe := hw.paused_le
  have hFrontier : chain.frontier ≤ Registry.World.frontier { chain with now := t } ∧
      Registry.World.frontier { chain with now := t } ≤ t := by
    cases hPaused : chain.registry.paused with
    | false =>
        rw [Registry.World.frontier_of_running hPaused]
        have hSame : Registry.World.frontier { chain with now := t } = t :=
          Registry.World.frontier_of_running hPaused
        omega
    | true =>
        have hOld := Registry.World.frontier_of_paused hPaused
        have hSame : Registry.World.frontier { chain with now := t } =
            chain.registry.pauseStartedAt := Registry.World.frontier_of_paused hPaused
        omega
  have hRunning : chain.runningSeconds ≤
      Registry.World.runningSeconds { chain with now := t } :=
    Nat.sub_le_sub_right hFrontier.1 _
  refine ⟨⟨⟨hLt, hFrontier.2, hPausedLe.trans hFrontier.1⟩, hw.window_valid, ?_, hw.fresh⟩,
    hw.baseline_le⟩
  intro batchId hStatus
  exact (hw.batch batchId hStatus).mono (le_refl _) hRunning

/-- What holds along a run that respects the floor. -/
structure Guarded (w : World) : Prop where
  wellFormed : Registry.TrackerWellFormed w.chain
  dominates : Registry.TrackerDominates w.chain
  slasher : w.bond.slasher ≠ 0

theorem applyEffects_immutables (w : World) (env : Registry.Env) (effects : List Registry.Effect)
    (bond : StakeBond.State) :
    (effects.foldl (w.applyEffect env) bond).immutables = bond.immutables := by
  induction effects generalizing bond with
  | nil => rfl
  | cons e effects ih =>
      rw [List.foldl_cons, ih]
      cases e with
      | slash target provider challenger batchId reason leafHash =>
          simp only [World.applyEffect]
          split
          · split
            case h_1 hSlash =>
              obtain ⟨bounty, reserve, hOutcome⟩ := StakeBond.slash_eq_ok hSlash
              rw [hOutcome.state_eq]
              rfl
            case h_2 => rfl
          · rfl
      | _ => rfl

theorem chain_step (h : (machine keccak256).step w i = some w') :
    (∃ env c, i = .registry env c ∧
        (Registry.machine keccak256).step w.chain ⟨w.registryEnv env, c⟩ = some w'.chain ∧
        w'.bond.immutables = w.bond.immutables) ∨
      (∃ t, w.chain.now ≤ t ∧ t < 2 ^ 63 ∧ w'.chain = { w.chain with now := t } ∧
        w'.bond.immutables = w.bond.immutables) := by
  cases i with
  | registry env c =>
      simp only [machine, step] at h
      split at h
      case isTrue hTime =>
        split at h
        case h_1 s effects hCall =>
          cases h
          refine .inl ⟨env, c, rfl, ?_, applyEffects_immutables w env effects w.bond⟩
          have hTime' : w.chain.now ≤ (w.registryEnv env).timestamp := hTime
          simp only [Registry.machine, Registry.step, hTime', if_true, hCall]
          rfl
        case h_2 => cases h
      case isFalse => cases h
  | bond env c =>
      simp only [machine, step] at h
      split at h
      case isTrue hTime =>
        split at h
        case h_1 bond token events hCall =>
          cases h
          exact .inr ⟨env.timestamp, hTime, env.block.timestamp_lt, rfl,
            (StakeBond.call_ledgerMove hCall).2⟩
        case h_2 => cases h
      case isFalse => cases h
  | token env c =>
      simp only [machine, step] at h
      split at h
      case isTrue hTime =>
        split at h
        case h_1 token hCall =>
          cases h
          exact .inr ⟨env.timestamp, hTime.1, env.block.timestamp_lt, rfl, rfl⟩
        case h_2 => cases h
      case isFalse => cases h

theorem Guarded.step (hw : Guarded w) (hFloor : FloorHolds w i)
    (h : (machine keccak256).step w i = some w') : Guarded w' := by
  rcases chain_step h with ⟨env, c, rfl, hChain, hFixed⟩ | ⟨t, hTime, hLt, hChain, hFixed⟩
  · have hSlasher : w'.bond.slasher = w.bond.slasher := congrArg Prod.snd hFixed
    refine ⟨hw.wellFormed.step hChain, ?_, by rw [hSlasher]; exact hw.slasher⟩
    exact (Registry.dominates_step_iff hw.wellFormed hw.dominates hChain).mpr hFloor
  · have hSlasher : w'.bond.slasher = w.bond.slasher := congrArg Prod.snd hFixed
    refine ⟨?_, ?_, by rw [hSlasher]; exact hw.slasher⟩
    · rw [hChain]
      exact wellFormed_advance hw.wellFormed hTime hLt
    · rw [hChain]
      exact hw.dominates

theorem Deployment.guarded (d : Deployment) : Guarded d.world := by
  refine ⟨d.registry.trackerWellFormed, d.registry.dominates, ?_⟩
  have hConstructed := d.bond.constructed
  simp only [StakeBond.construct, bind_eq_ok_iff, require_eq_ok_iff, pure_eq_ok_iff] at hConstructed
  obtain ⟨ownable, -, -, -, -, -, -, hSlasher, hState⟩ := hConstructed
  have hBond : d.world.bond = d.bond.state := rfl
  rw [hBond, ← hState]
  exact hSlasher

/-! ## The guard at withdrawal -/

theorem pendingExpiryFloor_eq {env : StakeBond.Env} {provider : Address} {floor : Nat}
    (hSlasher : w.bond.slasher ≠ 0)
    (h : StakeBond.pendingExpiryFloor (w.bondEnv env) w.bond provider = .ok floor) :
    floor = w.chain.registry.trackedExpiry provider := by
  have hReadable : ¬ (w.bond.slasher = 0 ∨ (w.bondEnv env).codeLength w.bond.slasher = 0) := by
    rintro (hZero | hCode)
    · exact hSlasher hZero
    · simp [World.bondEnv] at hCode
  unfold StakeBond.pendingExpiryFloor at h
  rw [if_neg hReadable] at h
  simp only [World.bondEnv, slasherView] at h
  unfold Registry.State.trackedExpiry
  split at h
  · simp only [checkedAdd_eq_ok_iff] at h
    exact h.2
  · simp only [pure_eq_ok_iff] at h
    omega

theorem withdraw_floor {env : StakeBond.Env} (hSlasher : w.bond.slasher ≠ 0)
    (h : (machine keccak256).step w (.bond env .withdraw) = some w') :
    w.chain.registry.trackedExpiry env.sender ≤ env.timestamp := by
  simp only [machine, step] at h
  split at h
  case isTrue hTime =>
    split at h
    case h_1 bond token events hCall =>
      simp only [StakeBond.call, StakeBond.withdraw, bind_eq_ok_iff, require_eq_ok_iff] at hCall
      obtain ⟨-, -, -, -, -, -, floor, hFloor, -, hLe, -⟩ := hCall
      have hEq : floor = w.chain.registry.trackedExpiry env.sender :=
        pendingExpiryFloor_eq hSlasher hFloor
      rw [← hEq]
      exact hLe
    case h_2 => cases h
  case isFalse => cases h

theorem elapsed_of_expiry_le {s : Registry.State} {b : Registry.Batch} {t elapsed : Nat}
    (hElapsed : Registry.effectiveElapsed s t b = .ok elapsed) (hExpiry : s.batchExpiry b ≤ t) :
    b.challengeWindowSecondsAtCommit ≤ elapsed := by
  simp only [Registry.effectiveElapsed, bind_eq_ok_iff, checkedSub_eq_ok_iff,
    pure_eq_ok_iff] at hElapsed
  obtain ⟨wall, ⟨hWall, rfl⟩, paused, ⟨hPaused, rfl⟩, rfl⟩ := hElapsed
  simp only [Registry.State.batchExpiry] at hExpiry
  split <;> omega

theorem Guarded.no_evasion (hw : Guarded w) (hFloor : FloorHolds w i)
    (h : (machine keccak256).step w i = some w') : NoSlashEvasion w i := by
  rintro env rfl batchId hProvider hBacked hPending ⟨elapsed, hElapsed, hOpen⟩
  have hTracked := withdraw_floor hw.slasher h
  have hBound := hw.dominates batchId hPending
  rw [hProvider] at hBound
  -- The tracker speaks of the clock; only a pause in progress separates it from the frontier.
  have hClosed : w.chain.registry.batchExpiry (w.chain.registry.batches batchId) ≤
      frontierAt w.chain.registry env.timestamp := by
    cases hPaused : w.chain.registry.paused with
    | false =>
        simp only [frontierAt, hPaused, Bool.false_eq_true, if_false]
        omega
    | true =>
        simp only [frontierAt, hPaused, if_true]
        rcases hFloor with hRunning | hBefore
        · rw [hPaused] at hRunning
          cases hRunning
        · exact hBefore batchId hProvider hBacked hPending
  have hEnough := elapsed_of_expiry_le hElapsed hClosed
  omega

/-- In every run whose steps respect the floor, no withdrawal is ever made while
a batch that the stake backs is pending with its challenge window open. -/
theorem no_slash_evasion (keccak256 : Keccak) (d : Deployment) (inputs : List Input)
    (hFloor : (machine keccak256).EveryStep FloorHolds d.world inputs) :
    (machine keccak256).EveryStep NoSlashEvasion d.world inputs := by
  intro before i hPrefix hSome
  obtain ⟨w', hStep⟩ := Option.isSome_iff_exists.mp hSome
  have hBefore : (machine keccak256).EveryStep FloorHolds d.world before :=
    hFloor.of_prefix ((List.prefix_append _ _).trans hPrefix)
  have hGuarded : Guarded ((machine keccak256).run d.world before) :=
    ((machine keccak256).everyState_of_everyStep Guarded FloorHolds
      (fun _ _ _ hw hHere h => hw.step hHere h) d.guarded hBefore).last
  exact hGuarded.no_evasion (hFloor before i hPrefix hSome) hStep

/-- The small registry with a bond at address 50.  Account 2 holds tokens and has
approved the bond. -/
def smallDeployment : Deployment where
  registry := Registry.smallDeployment
  bond :=
    { self := 50
      initialOwner := 1
      ftnsAddress := 60
      initialUnbondDelay := 86400
      initialSlasher := 70
      state := StakeBond.State.initial 50 ⟨1, 0⟩ 86400 70
      constructed := by rfl
      token :=
        { balanceOf := fun account => if account = 2 then 1000 else 0
          allowance := fun owner spender => if owner = 2 ∧ spender = 50 then 1000 else 0 }
      unspendable := by
        intro spender
        have hOther : (50 : Address) ≠ 2 := by decide
        simp [hOther] }

def smallBondEnv (timestamp : Nat) (sender : Address) : StakeBond.Env where
  block := smallBlock timestamp
  sender := sender
  codeLength := fun _ => 1
  slasherView := ⟨none, fun _ => none, fun _ => none, none⟩
  tokenDeclines := false

def backedCommit : Registry.Tx :=
  ⟨Registry.smallEnv 1000 2, .commitBatch (Registry.smallCommit 77 0 10)⟩

def backedBatchId : Bytes32 :=
  Registry.batchIdOf polynomialHash (Registry.smallEnv 1000 2)
    (Registry.smallCommit 77 0 10) 0

def unbondingRun : List Input :=
  [.bond (smallBondEnv 900 2) (.bond 1000 5000), .registry backedCommit.env backedCommit.call,
    .bond (smallBondEnv 1001 2) .requestUnbond]

def pausedRun : List Input :=
  unbondingRun ++ [.registry (Registry.smallEnv 1100 1) .pause]

/-- During the pause account 2 withdraws, once the hour of the window has gone by
on the clock. -/
def evasionRun : List Input :=
  pausedRun ++ [.bond (smallBondEnv 90000 2) .withdraw]

/-- The last step of `evasionRun` is an evasion: only 100 seconds of the window
have elapsed. -/
theorem slash_evasion_evasionRun :
    ¬ (machine polynomialHash).EveryStep NoSlashEvasion smallDeployment.world
      evasionRun := by
  intro hEvery
  exact hEvery pausedRun (.bond (smallBondEnv 90000 2) .withdraw) (List.prefix_refl _)
    (by decide +kernel) (smallBondEnv 90000 2) rfl backedBatchId (by decide +kernel)
    (by decide +kernel) (by decide +kernel) ⟨100, by decide +kernel, by decide +kernel⟩

theorem exec_bond_registry (w : World) (env : StakeBond.Env) (c : StakeBond.Call) :
    ((machine keccak256).exec w (.bond env c)).chain.registry = w.chain.registry := by
  cases hStep : (machine keccak256).step w (.bond env c) with
  | none => rw [Machine.exec_of_refused _ hStep]
  | some w' =>
      rw [Machine.exec_of_step _ hStep]
      rcases chain_step hStep with ⟨_, _, hInput, -⟩ | ⟨t, -, -, hChain, -⟩
      · cases hInput
      · rw [hChain]

/-- Without the pause, account 2 withdraws after its batch has closed. -/
theorem no_slash_evasion_unbondingRun :
    (machine polynomialHash).EveryStep NoSlashEvasion smallDeployment.world
        (unbondingRun ++ [.bond (smallBondEnv 90000 2) .withdraw]) ∧
      ((machine polynomialHash).step
        ((machine polynomialHash).run smallDeployment.world unbondingRun)
        (.bond (smallBondEnv 90000 2) .withdraw)).isSome = true := by
  refine ⟨no_slash_evasion _ _ _ ?_, by decide +kernel⟩
  refine (Machine.everyStep_cons _).mpr ⟨fun _ => trivial, ?_⟩
  refine (Machine.everyStep_cons _).mpr ⟨fun _ _ => .inr ?_, ?_⟩
  · -- Nothing is pending before the first commit.
    intro batchId hPending
    rw [exec_bond_registry] at hPending
    have hFresh : smallDeployment.world.chain.registry.batches batchId = Registry.Batch.zero :=
      Registry.smallDeployment.fresh batchId
    rw [hFresh] at hPending
    cases hPending
  · refine (Machine.everyStep_cons _).mpr ⟨fun _ => trivial, ?_⟩
    refine (Machine.everyStep_cons _).mpr ⟨fun _ => .inl ?_, Machine.everyStep_nil _⟩
    decide +kernel

end Prsm.Settlement
