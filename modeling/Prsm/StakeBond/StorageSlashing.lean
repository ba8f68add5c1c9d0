import Prsm.Evm.Contracts
import Prsm.StakeBond.Solvency

/-!
# `StorageSlashing`, and how young a bond a missed heartbeat can reach

Anyone may slash a provider that has recorded no heartbeat for some grace windows.  The
heartbeats are kept here and the bonds in `StakeBond`.  A heartbeat stays recorded when its
provider withdraws, and may be recorded before there is a bond, so that a new bond can be
slashed for it at once.
-/

namespace Prsm.StorageSlashing

open Foundations Evm
open StakeBond (Env)

structure State where
  ownable : Ownable2Step
  /-- `address(this)`. -/
  self : Address
  heartbeatGraceSeconds : Nat
  slashGraceMultiplier : Nat
  authorizedVerifier : Address
  /-- Zero for an account that never recorded one. -/
  lastHeartbeat : Address → Nat
  slashRecorded : Bytes32 → Bool

def minHeartbeatGrace : Nat := 3600
def maxHeartbeatGrace : Nat := 30 * 86400
def minSlashGraceMultiplier : Nat := 1
def maxSlashGraceMultiplier : Nat := 10

inductive Event
  | heartbeatRecorded (provider : Address) (timestamp : Nat)
  | proofFailureSlashed (provider challenger : Address) (shardId evidenceHash slashId : Bytes32)
  | heartbeatMissingSlashed (provider challenger : Address) (lastHeartbeatAt : Nat)
      (slashId : Bytes32)
  | heartbeatGraceUpdated (oldGrace newGrace : Nat)
  | slashGraceMultiplierUpdated (oldMultiplier newMultiplier : Nat)
  | authorizedVerifierUpdated (oldVerifier newVerifier : Address)

inductive Error
  | platform (e : PlatformError)
  | stakeBond (e : StakeBond.Error)
  | invalidAddress
  | graceOutOfRange (grace minAllowed maxAllowed : Nat)
  | multiplierOutOfRange (multiplier minAllowed maxAllowed : Nat)
  | notAuthorizedVerifier
  | alreadySlashed (slashId : Bytes32)
  | heartbeatNotRecorded
  | heartbeatNotExpired (nowTs expiryTs : Nat)

abbrev Outcome := Except Error (State × StakeBond.World × List Event)

/-- The grace that counts from a heartbeat until the slash. -/
def State.grace (s : State) : Nat := s.heartbeatGraceSeconds * s.slashGraceMultiplier

def State.onlyOwner (s : State) (env : Env) : Except Error Unit :=
  raise .platform (s.ownable.onlyOwner env.sender)

def construct (self stakeBond authorizedVerifier : Address) (heartbeatGraceSeconds : Nat)
    (initialOwner : Address) : Except Error State := do
  let ownable ← raise .platform (Ownable2Step.construct initialOwner)
  require (stakeBond ≠ 0) .invalidAddress
  require (authorizedVerifier ≠ 0) .invalidAddress
  require (minHeartbeatGrace ≤ heartbeatGraceSeconds ∧ heartbeatGraceSeconds ≤ maxHeartbeatGrace)
    (.graceOutOfRange heartbeatGraceSeconds minHeartbeatGrace maxHeartbeatGrace)
  pure
    { ownable := ownable
      self := self
      heartbeatGraceSeconds := heartbeatGraceSeconds
      slashGraceMultiplier := 2
      authorizedVerifier := authorizedVerifier
      lastHeartbeat := fun _ => 0
      slashRecorded := fun _ => false }

variable (keccak256 : Keccak)

/-- The word of a string of at most 32 bytes in `abi.encode`. -/
def stringWord (literal : String) : Bytes :=
  literalBytes literal ++ List.replicate (32 - literal.length) 0

/-- `keccak256(abi.encode("proof", provider, shardId, evidenceHash))`. -/
def proofSlashId (provider : Address) (shardId evidenceHash : Bytes32) : Bytes32 :=
  keccak256 (abiEncode [128, provider, shardId, evidenceHash, 5] ++ stringWord "proof")

/-- `keccak256(abi.encode("heartbeat", provider, last))`. -/
def heartbeatSlashId (provider : Address) (last : Nat) : Bytes32 :=
  keccak256 (abiEncode [96, provider, last, 9] ++ stringWord "heartbeat")

/-- `slashRecorded[slashId] = true` and `stakeBond.slash(provider, challenger, slashId)`, once
for each id. -/
def slashOnce (env : Env) (s : State) (bond : StakeBond.World) (provider challenger : Address)
    (slashId : Bytes32) : Except Error (State × StakeBond.World) := do
  require (s.slashRecorded slashId = false) (.alreadySlashed slashId)
  let (bond', token, _) ← raise .stakeBond (StakeBond.slash { env with sender := s.self }
    bond.bond bond.token provider challenger slashId)
  pure ({ s with slashRecorded := Function.update s.slashRecorded slashId true }, ⟨bond', token⟩)

def recordHeartbeat (env : Env) (s : State) (bond : StakeBond.World) : Outcome :=
  pure ({ s with
      lastHeartbeat := Function.update s.lastHeartbeat env.sender (uint64 env.timestamp) },
    bond, [.heartbeatRecorded env.sender (uint64 env.timestamp)])

def submitProofFailure (env : Env) (s : State) (bond : StakeBond.World) (provider : Address)
    (shardId evidenceHash : Bytes32) (challenger : Address) : Outcome := do
  require (env.sender = s.authorizedVerifier) .notAuthorizedVerifier
  require (provider ≠ 0) .invalidAddress
  let slashId := proofSlashId keccak256 provider shardId evidenceHash
  let (s', bond') ← slashOnce env s bond provider challenger slashId
  pure (s', bond', [.proofFailureSlashed provider challenger shardId evidenceHash slashId])

def slashForMissingHeartbeat (env : Env) (s : State) (bond : StakeBond.World)
    (provider : Address) : Outcome := do
  require (provider ≠ 0) .invalidAddress
  let last := s.lastHeartbeat provider
  require (last ≠ 0) .heartbeatNotRecorded
  let grace ← checkedMul 256 (.platform .panicArithmetic) s.heartbeatGraceSeconds
    s.slashGraceMultiplier
  let expiry ← checkedAdd 256 (.platform .panicArithmetic) last grace
  require (expiry < env.timestamp) (.heartbeatNotExpired env.timestamp expiry)
  let slashId := heartbeatSlashId keccak256 provider last
  let (s', bond') ← slashOnce env s bond provider env.sender slashId
  pure (s', bond', [.heartbeatMissingSlashed provider env.sender last slashId])

def setAuthorizedVerifier (env : Env) (s : State) (bond : StakeBond.World)
    (newVerifier : Address) : Outcome := do
  s.onlyOwner env
  require (newVerifier ≠ 0) .invalidAddress
  pure ({ s with authorizedVerifier := newVerifier }, bond,
    [.authorizedVerifierUpdated s.authorizedVerifier newVerifier])

def setHeartbeatGrace (env : Env) (s : State) (bond : StakeBond.World) (newGrace : Nat) :
    Outcome := do
  s.onlyOwner env
  require (minHeartbeatGrace ≤ newGrace ∧ newGrace ≤ maxHeartbeatGrace)
    (.graceOutOfRange newGrace minHeartbeatGrace maxHeartbeatGrace)
  pure ({ s with heartbeatGraceSeconds := newGrace }, bond,
    [.heartbeatGraceUpdated s.heartbeatGraceSeconds newGrace])

def setSlashGraceMultiplier (env : Env) (s : State) (bond : StakeBond.World)
    (newMultiplier : Nat) : Outcome := do
  s.onlyOwner env
  require (minSlashGraceMultiplier ≤ newMultiplier ∧ newMultiplier ≤ maxSlashGraceMultiplier)
    (.multiplierOutOfRange newMultiplier minSlashGraceMultiplier maxSlashGraceMultiplier)
  pure ({ s with slashGraceMultiplier := newMultiplier }, bond,
    [.slashGraceMultiplierUpdated s.slashGraceMultiplier newMultiplier])

inductive Call
  | recordHeartbeat
  | submitProofFailure (provider : Address) (shardId evidenceHash : Bytes32)
      (challenger : Address)
  | slashForMissingHeartbeat (provider : Address)
  | setAuthorizedVerifier (newVerifier : Address)
  | setHeartbeatGrace (newGrace : Nat)
  | setSlashGraceMultiplier (newMultiplier : Nat)
  | ownership (call : Ownable2Step.Call)

def call (env : Env) (s : State) (bond : StakeBond.World) : Call → Outcome
  | .recordHeartbeat => recordHeartbeat env s bond
  | .submitProofFailure provider shardId evidenceHash challenger =>
      submitProofFailure keccak256 env s bond provider shardId evidenceHash challenger
  | .slashForMissingHeartbeat provider => slashForMissingHeartbeat keccak256 env s bond provider
  | .setAuthorizedVerifier newVerifier => setAuthorizedVerifier env s bond newVerifier
  | .setHeartbeatGrace newGrace => setHeartbeatGrace env s bond newGrace
  | .setSlashGraceMultiplier newMultiplier => setSlashGraceMultiplier env s bond newMultiplier
  | .ownership c => do
      let ownable ← raise .platform (s.ownable.call env.sender c)
      pure ({ s with ownable := ownable }, bond, [])

/-! ## Runs of both contracts -/

/-- A slash for a missed heartbeat: what was slashed, when, and the grace of that time. -/
structure HeartbeatSlash where
  provider : Address
  lastHeartbeatAt : Nat
  bondedAt : Nat
  grace : Nat
  slashedAt : Nat
  deriving DecidableEq

/-- The two contracts and the token.  `slashes` is for specification. -/
structure World where
  bond : StakeBond.World
  storage : State
  now : Nat
  slashes : List HeartbeatSlash

def World.bondedAt (w : World) (provider : Address) : Nat :=
  (w.bond.bond.stakes provider).bondedAtUnix

def World.slashOf (w : World) (env : Env) (provider : Address) : HeartbeatSlash where
  provider := provider
  lastHeartbeatAt := w.storage.lastHeartbeat provider
  bondedAt := w.bondedAt provider
  grace := w.storage.grace
  slashedAt := env.timestamp

/-- The slashes after a call. -/
def World.slashesAfter (w : World) (env : Env) : Call → List HeartbeatSlash
  | .slashForMissingHeartbeat provider => w.slashes ++ [w.slashOf env provider]
  | _ => w.slashes

inductive Input
  | bond (env : Env) (call : StakeBond.Call)
  | token (sender : Address) (call : Token.Call)
  | storage (env : Env) (call : Call)

/-- One transaction, in a block that is not earlier than the last one. -/
def step (w : World) : Input → Option World
  | .bond env c =>
      if w.now ≤ env.timestamp then
        (StakeBond.step w.bond (.bond env c)).map fun bond =>
          { w with bond := bond, now := env.timestamp }
      else none
  | .token sender c =>
      (StakeBond.step w.bond (.token sender c)).map fun bond => { w with bond := bond }
  | .storage env c =>
      if w.now ≤ env.timestamp then
        (call keccak256 env w.storage w.bond c).toOption.map fun (s, bond, _) =>
          ⟨bond, s, env.timestamp, w.slashesAfter env c⟩
      else none

def machine : Machine World Input where
  step := step keccak256

/-- Both contracts, just deployed. -/
structure Deployment where
  bond : StakeBond.Deployment
  self : Address
  authorizedVerifier : Address
  heartbeatGraceSeconds : Nat
  initialOwner : Address
  state : State
  constructed : construct self bond.self authorizedVerifier heartbeatGraceSeconds initialOwner =
    .ok state
  now : Nat

def Deployment.world (d : Deployment) : World := ⟨d.bond.world, d.state, d.now, []⟩

/-- No bond was slashed for a missed heartbeat before it was as old as the grace. -/
def RespectsGrace (w : World) : Prop :=
  ∀ slash ∈ w.slashes, slash.bondedAt + slash.grace ≤ slash.slashedAt

/-- A slash for a heartbeat from before the bond waits for the grace of the bond. -/
def WaitsForBond (w : World) : Input → Prop
  | .storage env (.slashForMissingHeartbeat provider) =>
      w.storage.lastHeartbeat provider < w.bondedAt provider →
        w.bondedAt provider + w.storage.grace ≤ env.timestamp
  | _ => True

/-- An account that bonds has recorded no heartbeat in an earlier block. -/
def BondsFresh (w : World) : Input → Prop
  | .bond env (.bond _ _) =>
      w.storage.lastHeartbeat env.sender = 0 ∨ env.timestamp ≤ w.storage.lastHeartbeat env.sender
  | _ => True

/-! ## What one call does -/

section Calls

variable {keccak256 : Keccak} {env : Env} {s s' : State} {bond bond' : StakeBond.World}
  {events : List Event}

/-- What a call of either contract leaves of the bonds: each was posted when it was. -/
def SameBonds (before after : StakeBond.State) : Prop :=
  ∀ provider, (after.stakes provider).bondedAtUnix = (before.stakes provider).bondedAtUnix

variable {b : StakeBond.State} {provider challenger : Address}

theorem sameBonds_setStake {stake : StakeBond.Stake}
    (h : stake.bondedAtUnix = (b.stakes provider).bondedAtUnix) :
    SameBonds b (b.setStake provider stake) := by
  intro other
  by_cases hOther : other = provider
  · subst hOther
    simpa [StakeBond.State.setStake] using h
  · simp [StakeBond.State.setStake, hOther]

theorem sameBonds_slash {b' : StakeBond.State} {t t' : Token}
    {reasonId : Bytes32} {slashed : List StakeBond.Event}
    (h : StakeBond.slash env b t provider challenger reasonId = .ok (b', t', slashed)) :
    SameBonds b b' := by
  obtain ⟨bounty, reserve, hOutcome⟩ := StakeBond.slash_eq_ok h
  rw [hOutcome.state_eq]
  exact sameBonds_setStake rfl

theorem bonds_of_call {b' : StakeBond.State} {t t' : Token} {c : StakeBond.Call}
    {done : List StakeBond.Event} (h : StakeBond.call env b t c = .ok (b', t', done)) :
    SameBonds b b' ∨ ((∃ amount rate, c = .bond amount rate) ∧
      ∃ stake, stake.bondedAtUnix = env.timestamp ∧ b' = b.setStake env.sender stake) := by
  cases c with
  | bond amount rate =>
      simp only [StakeBond.call, StakeBond.bond, bind_eq_ok_iff, pure_eq_ok_iff,
        Prod.mk.injEq] at h
      obtain ⟨-, -, -, -, -, -, -, -, -, -, paid, -, rfl, -, -⟩ := h
      refine Or.inr ⟨⟨amount, rate, rfl⟩, _, uint64_of_lt ?_, rfl⟩
      exact env.block.timestamp_lt.trans (by norm_num)
  | requestUnbond =>
      simp only [StakeBond.call, StakeBond.requestUnbond, bind_eq_ok_iff, pure_eq_ok_iff,
        Prod.mk.injEq] at h
      obtain ⟨-, -, -, -, eligibleAt, -, rfl, -, -⟩ := h
      exact Or.inl (sameBonds_setStake rfl)
  | withdraw =>
      simp only [StakeBond.call, StakeBond.withdraw, bind_eq_ok_iff, pure_eq_ok_iff,
        Prod.mk.injEq] at h
      obtain ⟨-, -, -, -, -, -, -, -, -, -, paid, -, rfl, -, -⟩ := h
      exact Or.inl (sameBonds_setStake rfl)
  | slash provider challenger reasonId => exact Or.inl (sameBonds_slash h)
  | claimBounty =>
      simp only [StakeBond.call, StakeBond.claimBounty, bind_eq_ok_iff, pure_eq_ok_iff,
        Prod.mk.injEq] at h
      obtain ⟨-, -, -, -, paid, -, rfl, -, -⟩ := h
      exact Or.inl fun _ => rfl
  | drainFoundationReserve =>
      simp only [StakeBond.call, StakeBond.drainFoundationReserve, bind_eq_ok_iff,
        pure_eq_ok_iff, Prod.mk.injEq] at h
      obtain ⟨-, -, -, -, -, -, -, -, paid, -, rfl, -, -⟩ := h
      exact Or.inl fun _ => rfl
  | setUnbondDelay newDelay =>
      simp only [StakeBond.call, StakeBond.setUnbondDelay, bind_eq_ok_iff, pure_eq_ok_iff,
        Prod.mk.injEq] at h
      obtain ⟨-, -, -, -, rfl, -, -⟩ := h
      exact Or.inl fun _ => rfl
  | setStorageSlasherOnce newStorageSlasher =>
      simp only [StakeBond.call, StakeBond.setStorageSlasherOnce, bind_eq_ok_iff,
        pure_eq_ok_iff, Prod.mk.injEq] at h
      obtain ⟨-, -, -, -, -, -, rfl, -, -⟩ := h
      exact Or.inl fun _ => rfl
  | setFoundationReserveWallet newWallet =>
      simp only [StakeBond.call, StakeBond.setFoundationReserveWallet, bind_eq_ok_iff,
        pure_eq_ok_iff, Prod.mk.injEq] at h
      obtain ⟨-, -, -, -, -, -, -, -, rfl, -, -⟩ := h
      exact Or.inl fun _ => rfl
  | pause =>
      simp only [StakeBond.call, StakeBond.pause, bind_eq_ok_iff, pure_eq_ok_iff,
        Prod.mk.injEq] at h
      obtain ⟨-, -, -, -, rfl, -, -⟩ := h
      exact Or.inl fun _ => rfl
  | unpause =>
      simp only [StakeBond.call, StakeBond.unpause, bind_eq_ok_iff, pure_eq_ok_iff,
        Prod.mk.injEq] at h
      obtain ⟨-, -, -, -, rfl, -, -⟩ := h
      exact Or.inl fun _ => rfl
  | ownership ownershipCall =>
      simp only [StakeBond.call, bind_eq_ok_iff, pure_eq_ok_iff, Prod.mk.injEq] at h
      obtain ⟨ownable, -, rfl, -, -⟩ := h
      exact Or.inl fun _ => rfl

theorem slashOnce_eq_ok {slashId : Bytes32}
    (h : slashOnce env s bond provider challenger slashId = .ok (s', bond')) :
    s.slashRecorded slashId = false ∧
      s' = { s with slashRecorded := Function.update s.slashRecorded slashId true } ∧
      SameBonds bond.bond bond'.bond := by
  simp only [slashOnce, bind_eq_ok_iff, require_eq_ok_iff, raise_eq_ok_iff, pure_eq_ok_iff,
    Prod.mk.injEq] at h
  obtain ⟨-, hNew, ⟨b, t, slashed⟩, hSlash, rfl, rfl⟩ := h
  exact ⟨hNew, rfl, sameBonds_slash hSlash⟩

theorem slashForMissingHeartbeat_eq_ok
    (h : slashForMissingHeartbeat keccak256 env s bond provider = .ok (s', bond', events)) :
    s.lastHeartbeat provider ≠ 0 ∧ s.lastHeartbeat provider + s.grace < env.timestamp ∧
      slashOnce env s bond provider env.sender
        (heartbeatSlashId keccak256 provider (s.lastHeartbeat provider)) = .ok (s', bond') := by
  simp only [slashForMissingHeartbeat, bind_eq_ok_iff, require_eq_ok_iff, checkedMul_eq_ok_iff,
    checkedAdd_eq_ok_iff, pure_eq_ok_iff, Prod.mk.injEq] at h
  obtain ⟨-, -, -, hSome, grace, ⟨-, rfl⟩, expiry, ⟨-, rfl⟩, -, hExpired, ⟨s₁, bond₁⟩, hOnce, rfl,
    rfl, -⟩ := h
  exact ⟨hSome, hExpired, hOnce⟩

/-- What every call keeps. -/
structure Keeps (env : Env) (s s' : State) (bond bond' : StakeBond.World) : Prop where
  recorded : ∀ slashId, s.slashRecorded slashId = true → s'.slashRecorded slashId = true
  heartbeat : ∀ provider, s'.lastHeartbeat provider = s.lastHeartbeat provider ∨
    s'.lastHeartbeat provider = env.timestamp
  bonds : SameBonds bond.bond bond'.bond

theorem keeps_slashOnce {slashId : Bytes32}
    (h : slashOnce env s bond provider challenger slashId = .ok (s', bond')) :
    Keeps env s s' bond bond' := by
  obtain ⟨-, rfl, hBonds⟩ := slashOnce_eq_ok h
  refine ⟨fun id hId => ?_, fun _ => Or.inl rfl, hBonds⟩
  show Function.update s.slashRecorded slashId true id = true
  rw [Function.update_apply]
  split
  · rfl
  · exact hId

theorem keeps_call {c : Call} (h : call keccak256 env s bond c = .ok (s', bond', events)) :
    Keeps env s s' bond bond' := by
  cases c with
  | recordHeartbeat =>
      simp only [call, recordHeartbeat, pure_eq_ok_iff, Prod.mk.injEq] at h
      obtain ⟨rfl, rfl, -⟩ := h
      refine ⟨fun _ hId => hId, fun provider => ?_, fun _ => rfl⟩
      by_cases hSender : provider = env.sender
      · subst hSender
        have hLt : env.timestamp < 2 ^ 64 := env.block.timestamp_lt.trans (by norm_num)
        exact Or.inr (by simp [uint64_of_lt hLt])
      · exact Or.inl (Function.update_of_ne hSender _ _)
  | submitProofFailure provider shardId evidenceHash challenger =>
      simp only [call, submitProofFailure, bind_eq_ok_iff, pure_eq_ok_iff, Prod.mk.injEq] at h
      obtain ⟨-, -, -, -, ⟨s₁, bond₁⟩, hOnce, rfl, rfl, -⟩ := h
      exact keeps_slashOnce hOnce
  | slashForMissingHeartbeat provider =>
      exact keeps_slashOnce (slashForMissingHeartbeat_eq_ok h).2.2
  | setAuthorizedVerifier newVerifier =>
      simp only [call, setAuthorizedVerifier, bind_eq_ok_iff, pure_eq_ok_iff,
        Prod.mk.injEq] at h
      obtain ⟨-, -, -, -, rfl, rfl, -⟩ := h
      exact ⟨fun _ hId => hId, fun _ => Or.inl rfl, fun _ => rfl⟩
  | setHeartbeatGrace newGrace =>
      simp only [call, setHeartbeatGrace, bind_eq_ok_iff, pure_eq_ok_iff, Prod.mk.injEq] at h
      obtain ⟨-, -, -, -, rfl, rfl, -⟩ := h
      exact ⟨fun _ hId => hId, fun _ => Or.inl rfl, fun _ => rfl⟩
  | setSlashGraceMultiplier newMultiplier =>
      simp only [call, setSlashGraceMultiplier, bind_eq_ok_iff, pure_eq_ok_iff,
        Prod.mk.injEq] at h
      obtain ⟨-, -, -, -, rfl, rfl, -⟩ := h
      exact ⟨fun _ hId => hId, fun _ => Or.inl rfl, fun _ => rfl⟩
  | ownership ownershipCall =>
      simp only [call, bind_eq_ok_iff, pure_eq_ok_iff, Prod.mk.injEq] at h
      obtain ⟨ownable, -, rfl, rfl, -⟩ := h
      exact ⟨fun _ hId => hId, fun _ => Or.inl rfl, fun _ => rfl⟩

end Calls

section Steps

variable {keccak256 : Keccak} {w w' : World} {i : Input}

theorem step_cases (h : (machine keccak256).step w i = some w') :
    (∃ env c bond, i = .bond env c ∧ w.now ≤ env.timestamp ∧
      StakeBond.step w.bond (.bond env c) = some bond ∧
      w' = { w with bond := bond, now := env.timestamp }) ∨
    (∃ sender c bond, i = .token sender c ∧ bond.bond = w.bond.bond ∧
      w' = { w with bond := bond }) ∨
    ∃ env c s bond events, i = .storage env c ∧ w.now ≤ env.timestamp ∧
      call keccak256 env w.storage w.bond c = .ok (s, bond, events) ∧
      w' = ⟨bond, s, env.timestamp, w.slashesAfter env c⟩ := by
  cases i with
  | bond env c =>
      change (if _ then _ else none) = _ at h
      split at h
      case isFalse => cases h
      case isTrue hNow =>
        obtain ⟨bond, hBond, rfl⟩ := Option.map_eq_some_iff.mp h
        exact Or.inl ⟨env, c, bond, rfl, hNow, hBond, rfl⟩
  | token sender c =>
      obtain ⟨bond, hBond, rfl⟩ := Option.map_eq_some_iff.mp h
      refine Or.inr (Or.inl ⟨sender, c, bond, rfl, ?_, rfl⟩)
      simp only [StakeBond.step] at hBond
      split at hBond
      · cases hBond
      · split at hBond
        · cases hBond
          rfl
        · cases hBond
  | storage env c =>
      change (if _ then _ else none) = _ at h
      split at h
      case isFalse => cases h
      case isTrue hNow =>
        obtain ⟨⟨s, bond, events⟩, hCall, rfl⟩ := Option.map_eq_some_iff.mp h
        cases hOk : call keccak256 env w.storage w.bond c with
        | error e =>
            rw [hOk] at hCall
            cases hCall
        | ok result =>
            rw [hOk] at hCall
            cases hCall
            exact Or.inr (Or.inr ⟨env, c, s, bond, events, rfl, hNow, hOk, rfl⟩)

/-- Every slash is recorded under its id, and no heartbeat has two. -/
structure OncePerHeartbeat (keccak256 : Keccak) (w : World) : Prop where
  recorded : ∀ slash ∈ w.slashes,
    w.storage.slashRecorded (heartbeatSlashId keccak256 slash.provider slash.lastHeartbeatAt) = true
  nodup : (w.slashes.map fun slash => (slash.provider, slash.lastHeartbeatAt)).Nodup

theorem OncePerHeartbeat.step (hw : OncePerHeartbeat keccak256 w)
    (h : (machine keccak256).step w i = some w') : OncePerHeartbeat keccak256 w' := by
  rcases step_cases h with ⟨env, c, bond, rfl, -, -, rfl⟩ | ⟨sender, c, bond, rfl, -, rfl⟩ |
    ⟨env, c, s, bond, events, rfl, -, hCall, rfl⟩
  · exact ⟨hw.recorded, hw.nodup⟩
  · exact ⟨hw.recorded, hw.nodup⟩
  · have hKept : ∀ slash ∈ w.slashes, s.slashRecorded
        (heartbeatSlashId keccak256 slash.provider slash.lastHeartbeatAt) = true :=
      fun slash hSlash => (keeps_call hCall).recorded _ (hw.recorded slash hSlash)
    cases c with
    | slashForMissingHeartbeat provider =>
        obtain ⟨-, -, hOnce⟩ := slashForMissingHeartbeat_eq_ok hCall
        obtain ⟨hNew, rfl, -⟩ := slashOnce_eq_ok hOnce
        refine ⟨fun slash hSlash => ?_, ?_⟩
        · rcases List.mem_append.mp hSlash with hOld | hLast
          · exact hKept slash hOld
          · rw [List.mem_singleton.mp hLast]
            exact Function.update_self ..
        · show ((w.slashes ++ [w.slashOf env provider]).map _).Nodup
          rw [List.map_append, List.nodup_append_comm]
          refine List.nodup_cons.mpr ⟨fun hOld => ?_, hw.nodup⟩
          -- A slash for this heartbeat would have been recorded under its id.
          obtain ⟨slash, hSlash, hSame⟩ := List.mem_map.mp hOld
          have hRecorded := hw.recorded slash hSlash
          rw [(Prod.mk.inj hSame).1, (Prod.mk.inj hSame).2] at hRecorded
          exact absurd (hNew.symm.trans hRecorded) (by simp)
    | _ => exact ⟨hKept, hw.nodup⟩

theorem respectsGrace_step_iff (hw : RespectsGrace w)
    (h : (machine keccak256).step w i = some w') : RespectsGrace w' ↔ WaitsForBond w i := by
  rcases step_cases h with ⟨env, c, bond, rfl, -, -, rfl⟩ | ⟨sender, c, bond, rfl, -, rfl⟩ |
    ⟨env, c, s, bond, events, rfl, -, hCall, rfl⟩
  · exact iff_of_true hw trivial
  · exact iff_of_true hw trivial
  · cases c with
    | slashForMissingHeartbeat provider =>
        obtain ⟨-, hExpired, -⟩ := slashForMissingHeartbeat_eq_ok hCall
        constructor
        · intro hAll _
          exact hAll (w.slashOf env provider)
            (List.mem_append_right _ (List.mem_singleton_self _))
        · intro hWaits slash hSlash
          rcases List.mem_append.mp hSlash with hOld | hLast
          · exact hw slash hOld
          · rw [List.mem_singleton.mp hLast]
            by_cases hStale : w.storage.lastHeartbeat provider < w.bondedAt provider
            · exact hWaits hStale
            · have hFresh : w.bondedAt provider ≤ w.storage.lastHeartbeat provider :=
                Nat.le_of_not_lt hStale
              exact (Nat.add_le_add_right hFresh _).trans hExpired.le
    | _ => exact iff_of_true hw trivial

/-- No bond is from the future, and no recorded heartbeat is from before the bond. -/
def NoStaleHeartbeat (w : World) : Prop :=
  ∀ provider, w.bondedAt provider ≤ w.now ∧
    (w.storage.lastHeartbeat provider = 0 ∨
      w.bondedAt provider ≤ w.storage.lastHeartbeat provider)

theorem NoStaleHeartbeat.step (hw : NoStaleHeartbeat w) (hFresh : BondsFresh w i)
    (h : (machine keccak256).step w i = some w') : NoStaleHeartbeat w' := by
  rcases step_cases h with ⟨env, c, bond, rfl, hNow, hBond, rfl⟩ |
    ⟨sender, c, bond, rfl, hBond, rfl⟩ | ⟨env, c, s, bond, events, rfl, hNow, hCall, rfl⟩
  · simp only [StakeBond.step] at hBond
    split at hBond
    case h_2 => cases hBond
    case h_1 b t done hOk =>
      cases hBond
      intro provider
      obtain ⟨hPast, hLast⟩ := hw provider
      rcases bonds_of_call hOk with hSame | ⟨⟨amount, rate, rfl⟩, stake, hStake, rfl⟩
      · have hDate := hSame provider
        exact ⟨hDate.le.trans (hPast.trans hNow), hLast.imp_right fun h => hDate.le.trans h⟩
      · by_cases hSender : provider = env.sender
        · subst hSender
          have hDate : ((w.bond.bond.setStake env.sender stake).stakes env.sender).bondedAtUnix =
              env.timestamp := by
            simpa [StakeBond.State.setStake] using hStake
          exact ⟨hDate.le, hFresh.imp_right fun h => hDate.le.trans h⟩
        · have hDate : ((w.bond.bond.setStake env.sender stake).stakes provider).bondedAtUnix =
              w.bondedAt provider := by
            simp [StakeBond.State.setStake, hSender, World.bondedAt]
          exact ⟨hDate.le.trans (hPast.trans hNow), hLast.imp_right fun h => hDate.le.trans h⟩
  · intro provider
    simpa only [World.bondedAt, hBond] using hw provider
  · intro provider
    obtain ⟨hPast, hLast⟩ := hw provider
    have hKeeps := keeps_call hCall
    have hDate : (bond.bond.stakes provider).bondedAtUnix ≤ env.timestamp :=
      (hKeeps.bonds provider).le.trans (hPast.trans hNow)
    refine ⟨hDate, ?_⟩
    rcases hKeeps.heartbeat provider with hSame | hBeat
    · rw [hSame]
      exact hLast.imp_right fun h => (hKeeps.bonds provider).le.trans h
    · exact Or.inr (hDate.trans hBeat.ge)

theorem NoStaleHeartbeat.waitsForBond (hw : NoStaleHeartbeat w)
    (h : (machine keccak256).step w i = some w') : WaitsForBond w i := by
  rcases step_cases h with ⟨env, c, bond, rfl, -, -, rfl⟩ | ⟨sender, c, bond, rfl, -, rfl⟩ |
    ⟨env, c, s, bond, events, rfl, -, hCall, rfl⟩
  · trivial
  · trivial
  · cases c with
    | slashForMissingHeartbeat provider =>
        intro hStale
        obtain ⟨hSome, -, -⟩ := slashForMissingHeartbeat_eq_ok hCall
        exact absurd ((hw provider).2.resolve_left hSome) (Nat.not_le_of_lt hStale)
    | _ => trivial

end Steps

theorem Deployment.noStaleHeartbeat (d : Deployment) : NoStaleHeartbeat d.world := by
  intro provider
  have hBond := d.bond.constructed
  simp only [StakeBond.construct, bind_eq_ok_iff, pure_eq_ok_iff] at hBond
  obtain ⟨ownable, -, -, -, -, -, -, -, hState⟩ := hBond
  have hZero : d.world.bondedAt provider = 0 := by
    show (d.bond.state.stakes provider).bondedAtUnix = 0
    rw [← hState]
    rfl
  rw [hZero]
  exact ⟨Nat.zero_le _, Or.inr (Nat.zero_le _)⟩

/-- No heartbeat is slashed for twice.  A run never slashes a bond for a missed heartbeat before
it is as old as the grace exactly when each slash for a heartbeat from before the bond waits for
it, and so in every run in which no account bonds with an earlier heartbeat on record. -/
theorem heartbeat_slashes (d : Deployment) (inputs : List Input) :
    ((((machine keccak256).run d.world inputs).slashes).map fun slash =>
      (slash.provider, slash.lastHeartbeatAt)).Nodup ∧
    ((machine keccak256).EveryState RespectsGrace d.world inputs ↔
      (machine keccak256).EveryStep WaitsForBond d.world inputs) ∧
    ((machine keccak256).EveryStep BondsFresh d.world inputs →
      (machine keccak256).EveryState RespectsGrace d.world inputs) := by
  have hStart : RespectsGrace d.world := fun _ h => absurd h List.not_mem_nil
  have hNone : OncePerHeartbeat keccak256 d.world :=
    ⟨fun _ h => absurd h List.not_mem_nil, List.nodup_nil⟩
  refine ⟨?_, ?_, fun hFresh => ?_⟩
  · exact ((machine keccak256).run_invariant (OncePerHeartbeat keccak256)
      (fun _ _ _ hw h => hw.step h) hNone inputs).nodup
  · exact (machine keccak256).everyState_iff_everyStep (fun _ => True) RespectsGrace WaitsForBond
      (fun _ _ _ _ _ => trivial) (fun _ _ _ _ hw h => respectsGrace_step_iff hw h) trivial
      hStart inputs
  · have hBoth := (machine keccak256).everyState_of_everyStep
      (fun w => NoStaleHeartbeat w ∧ RespectsGrace w) BondsFresh
      (fun _ _ _ hw hCall h =>
        ⟨hw.1.step hCall h, (respectsGrace_step_iff hw.2 h).mpr (hw.1.waitsForBond h)⟩)
      ⟨d.noStaleHeartbeat, hStart⟩ hFresh
    exact fun visited hVisited => (hBoth visited hVisited).2

theorem slashingBond_constructed : StakeBond.construct 50 1 60 86400 70 =
    .ok (StakeBond.State.initial 50 ⟨1, 0⟩ 86400 70) := rfl

/-- Account 2 has tokens and has approved the bond.  The slashing contract is at 80. -/
def slashingDeployment : Deployment where
  bond :=
    { self := 50
      initialOwner := 1
      ftnsAddress := 60
      initialUnbondDelay := 86400
      initialSlasher := 70
      state := StakeBond.State.initial 50 ⟨1, 0⟩ 86400 70
      constructed := slashingBond_constructed
      token :=
        { balanceOf := Pi.single 2 (60000 * 10 ^ 18)
          allowance := Pi.single 2 (Pi.single 50 (60000 * 10 ^ 18)) }
      unspendable := by
        intro spender
        have hOther : (50 : Address) ≠ 2 := by decide
        simp [hOther] }
  self := 80
  authorizedVerifier := 90
  heartbeatGraceSeconds := 3600
  initialOwner := 1
  state := ⟨⟨1, 0⟩, 80, 3600, 2, 90, fun _ => 0, fun _ => false⟩
  constructed := rfl
  now := 500

def slashingEnv (timestamp : Nat) (sender : Address) : Env where
  block := smallBlock timestamp
  sender := sender
  codeLength := fun _ => 0
  slasherView := ⟨none, fun _ => none, fun _ => none, none⟩
  tokenDeclines := false

/-- Account 2 bonds and records a heartbeat, withdraws, bonds again and is slashed by account 9
in the next block. -/
def rebondedRun : List Input :=
  [.bond (slashingEnv 500 1) (.setStorageSlasherOnce 80),
    .bond (slashingEnv 900 2) (.bond (Fin.ofNat _ (30000 * 10 ^ 18)) 5000),
    .storage (slashingEnv 900 2) .recordHeartbeat,
    .bond (slashingEnv 1000 2) .requestUnbond,
    .bond (slashingEnv 87400 2) .withdraw,
    .bond (slashingEnv 87401 2) (.bond (Fin.ofNat _ (30000 * 10 ^ 18)) 5000),
    .storage (slashingEnv 87402 9) (.slashForMissingHeartbeat 2)]

theorem rebonded_slashed :
    ¬ RespectsGrace ((machine polynomialHash).run slashingDeployment.world rebondedRun) := by
  intro h
  have hSlashes : ((machine polynomialHash).run slashingDeployment.world rebondedRun).slashes =
      [⟨2, 900, 87401, 7200, 87402⟩] := by decide +kernel
  have hOld := h _ (hSlashes ▸ List.mem_singleton_self _)
  exact absurd hOld (by decide)

end Prsm.StorageSlashing
