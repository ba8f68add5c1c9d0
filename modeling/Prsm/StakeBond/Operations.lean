import Prsm.Evm.Token

/-!
# `StakeBond`: storage and functions

Providers post a stake, successful challenges slash it, and what is slashed is
owed to the challenger and to the foundation until they collect it.  All of it
sits in the contract's one token balance.

The functions that pay do so last and are guarded against re-entry, so the token is passed
through them as a value.
-/

namespace Prsm.StakeBond

open Foundations Evm

inductive StakeStatus
  | none
  | bonded
  | unbonding
  | withdrawn
  deriving DecidableEq

structure Stake where
  amount : Uint 128
  bondedAtUnix : Nat
  /-- Zero while bonded, set by `requestUnbond`. -/
  unbondEligibleAt : Nat
  status : StakeStatus
  tierSlashRateBps : Nat

/-- The record of an account that never bonded. -/
def Stake.zero : Stake where
  amount := 0
  bondedAtUnix := 0
  unbondEligibleAt := 0
  status := .none
  tierSlashRateBps := 0

/-- The stake can be slashed. -/
def StakeStatus.slashable : StakeStatus → Bool
  | .bonded | .unbonding => true
  | .none | .withdrawn => false

structure State where
  ownable : Ownable2Step
  paused : Bool
  /-- `address(this)`. -/
  self : Address
  unbondDelaySeconds : Nat
  /-- Immutable.  The settlement registry in production. -/
  slasher : Address
  /-- Set once by the owner, for storage faults. -/
  storageSlasher : Address
  stakes : Address → Stake
  slashedBountyPayable : Address → Nat
  foundationReserveBalance : Nat
  foundationReserveWallet : Address

def minUnbondDelaySeconds : Nat := 86400
def maxUnbondDelaySeconds : Nat := 30 * 86400
def challengerBountyBps : Nat := 7000

inductive Event
  | storageSlasherSet (storageSlasher : Address)
  | bonded (provider : Address) (amount tierSlashRateBps bondedAt : Nat)
  | unbondRequested (provider : Address) (eligibleAt : Nat)
  | withdrawn (provider : Address) (amount : Nat)
  | unbondDelayUpdated (oldDelay newDelay : Nat)
  | foundationReserveWalletUpdated (oldWallet newWallet : Address)
  | slashed (provider challenger : Address) (reasonId : Bytes32)
      (slashAmount challengerBounty foundationShare : Nat)
  | bountyClaimed (challenger : Address) (amount : Nat)
  | foundationReserveDrained (recipient : Address) (amount : Nat)

inductive Error
  | platform (e : PlatformError)
  | token (e : TokenError)
  | zeroAmount
  | zeroAddress
  | invalidUnbondDelay (provided : Nat)
  | alreadyBonded (provider : Address) (status : StakeStatus)
  | notBonded (provider : Address) (status : StakeStatus)
  | notUnbonding (provider : Address) (status : StakeStatus)
  | unbondDelayNotElapsed (eligibleAt : Nat)
  | invalidSlashRateBps (provided : Nat)
  | slashRateBelowTierFloor (provided floor : Nat)
  | storageSlasherAlreadySet (current : Address)
  | transferFailed
  | callerNotSlasher (caller expectedSlasher : Address)
  | notSlashable (provider : Address) (status : StakeStatus)
  | nothingToSlash (provider : Address)
  | nothingToClaim (challenger : Address)
  | foundationReserveEmpty
  | foundationReserveWalletNotSet
  | walletNotContract (provided : Address)

/-- The answers of the slasher's view functions, with `none` for a call that
reverts.  The contract reads them inside `try` blocks. -/
structure SlasherView where
  challengeWindowSeconds : Option Nat
  lastPendingBatchExpiry : Address → Option Nat
  lastPendingBatchPausedAtAccrual : Address → Option Nat
  totalPausedSeconds : Option Nat

structure Env where
  block : Block
  sender : Address
  codeLength : Address → Nat
  slasherView : SlasherView
  /-- The token returns `false` on a transfer. -/
  tokenDeclines : Bool

def Env.timestamp (env : Env) : Nat := env.block.timestamp

abbrev Outcome := Except Error (State × Token × List Event)

def panic : Error := .platform .panicArithmetic

def State.whenNotPaused (s : State) : Except Error Unit :=
  raise .platform (Evm.whenNotPaused s.paused)

def State.onlyOwner (s : State) (env : Env) : Except Error Unit :=
  raise .platform (s.ownable.onlyOwner env.sender)

def State.setStake (s : State) (provider : Address) (stake : Stake) : State :=
  { s with stakes := Function.update s.stakes provider stake }

def State.initial (self : Address) (ownable : Ownable2Step) (initialUnbondDelay : Nat)
    (initialSlasher : Address) : State where
  ownable := ownable
  paused := false
  self := self
  unbondDelaySeconds := initialUnbondDelay
  slasher := initialSlasher
  storageSlasher := 0
  stakes := fun _ => Stake.zero
  slashedBountyPayable := fun _ => 0
  foundationReserveBalance := 0
  foundationReserveWallet := 0

def construct (self initialOwner ftnsAddress : Address) (initialUnbondDelay : Nat)
    (initialSlasher : Address) : Except Error State := do
  let ownable ← raise .platform (Ownable2Step.construct initialOwner)
  require (ftnsAddress ≠ 0) .zeroAddress
  require (minUnbondDelaySeconds ≤ initialUnbondDelay ∧
      initialUnbondDelay ≤ maxUnbondDelaySeconds) (.invalidUnbondDelay initialUnbondDelay)
  require (initialSlasher ≠ 0) .zeroAddress
  pure (State.initial self ownable initialUnbondDelay initialSlasher)

/-! ## Token calls -/

/-- `ftns.transfer(recipient, amount)`, reverting when it returns `false`. -/
def pay (env : Env) (s : State) (t : Token) (recipient : Address) (amount : Nat) :
    Except Error Token := do
  let (ok, t') ← raise .token (t.transfer env.tokenDeclines s.self recipient amount)
  require (ok = true) .transferFailed
  pure t'

/-- The payout of a withdrawal, skipped when nothing is left. -/
def payIfAny (env : Env) (s : State) (t : Token) (recipient : Address) (amount : Nat) :
    Except Error Token :=
  if 0 < amount then pay env s t recipient amount else pure t

/-- `ftns.transferFrom(msg.sender, address(this), amount)`, reverting when it
returns `false`. -/
def collect (env : Env) (s : State) (t : Token) (amount : Nat) : Except Error Token := do
  let (ok, t') ← raise .token (t.transferFrom env.tokenDeclines s.self env.sender s.self amount)
  require (ok = true) .transferFailed
  pure t'

/-! ## The life of a stake -/

def minSlashRateForAmount (amount : Nat) : Nat :=
  if 50000 * 10 ^ 18 ≤ amount then 10000
  else if 5000 * 10 ^ 18 ≤ amount then 5000
  else 0

/-- The tier that the marketplace reads, by the string the source returns.  A stake
that is being unbonded backs no tier. -/
def effectiveTier (s : State) (provider : Address) : String :=
  let stake := s.stakes provider
  if stake.status ≠ .bonded then "open"
  else if 50000 * 10 ^ 18 ≤ stake.amount.val then "critical"
  else if 25000 * 10 ^ 18 ≤ stake.amount.val then "premium"
  else if 5000 * 10 ^ 18 ≤ stake.amount.val then "standard"
  else "open"

def bond (env : Env) (s : State) (t : Token) (amount : Uint 128) (tierSlashRateBps : Uint 16) :
    Outcome := do
  s.whenNotPaused
  require (amount ≠ 0) .zeroAmount
  require (tierSlashRateBps.val ≤ 10000) (.invalidSlashRateBps tierSlashRateBps)
  require (minSlashRateForAmount amount ≤ tierSlashRateBps.val)
    (.slashRateBelowTierFloor tierSlashRateBps (minSlashRateForAmount amount))
  let status := (s.stakes env.sender).status
  require (status.slashable = false) (.alreadyBonded env.sender status)
  let t' ← collect env s t amount
  pure (s.setStake env.sender
      { amount := amount
        bondedAtUnix := uint64 env.timestamp
        unbondEligibleAt := 0
        status := .bonded
        tierSlashRateBps := tierSlashRateBps },
    t', [.bonded env.sender amount tierSlashRateBps (uint64 env.timestamp)])

/-- `_pendingExpiryFloor`: the provider's tracked expiry with the pauses since,
as the slasher reports them, or zero when it reports none. -/
def pendingExpiryFloor (env : Env) (s : State) (provider : Address) : Except Error Nat :=
  if s.slasher = 0 ∨ env.codeLength s.slasher = 0 then
    pure 0
  else
    match env.slasherView.lastPendingBatchExpiry provider with
    | none => pure 0
    | some maxExpiry =>
        match env.slasherView.lastPendingBatchPausedAtAccrual provider,
            env.slasherView.totalPausedSeconds with
        | some pausedAtAccrual, some currentPaused =>
            if pausedAtAccrual < currentPaused then
              checkedAdd 256 panic maxExpiry (currentPaused - pausedAtAccrual)
            else pure maxExpiry
        | _, _ => pure maxExpiry

/-- The floor that `requestUnbond` takes from the slasher's current window. -/
def windowFloor (env : Env) (floor : Nat) : Except Error Nat :=
  match env.slasherView.challengeWindowSeconds with
  | none => pure floor
  | some windowSecs => do
      let slasherFloor ← checkedAdd 256 panic env.timestamp windowSecs
      pure (max floor slasherFloor)

/-- When a stake unbonded now may be withdrawn. -/
def effectiveEligibleAt (env : Env) (s : State) : Except Error Nat := do
  let localFloor ← checkedAdd 256 panic env.timestamp s.unbondDelaySeconds
  if s.slasher ≠ 0 ∧ env.codeLength s.slasher ≠ 0 then
    let floor ← windowFloor env localFloor
    let pendingFloor ← pendingExpiryFloor env s env.sender
    pure (max floor pendingFloor)
  else
    pure localFloor

def requestUnbond (env : Env) (s : State) (t : Token) : Outcome := do
  s.whenNotPaused
  let stake := s.stakes env.sender
  require (stake.status = .bonded) (.notBonded env.sender stake.status)
  let eligibleAt ← effectiveEligibleAt env s
  pure (s.setStake env.sender
      { stake with status := .unbonding, unbondEligibleAt := uint64 eligibleAt },
    t, [.unbondRequested env.sender (uint64 eligibleAt)])

def withdraw (env : Env) (s : State) (t : Token) : Outcome := do
  s.whenNotPaused
  let stake := s.stakes env.sender
  require (stake.status = .unbonding) (.notUnbonding env.sender stake.status)
  require (stake.unbondEligibleAt ≤ env.timestamp)
    (.unbondDelayNotElapsed stake.unbondEligibleAt)
  let pendingFloor ← pendingExpiryFloor env s env.sender
  require (pendingFloor ≤ env.timestamp) (.unbondDelayNotElapsed (uint64 pendingFloor))
  let t' ← payIfAny env s t env.sender stake.amount
  pure (s.setStake env.sender { stake with amount := 0, status := .withdrawn },
    t', [.withdrawn env.sender stake.amount])

/-! ## Slashing -/

/-- The amount a slash takes: the stake's rate, and never more than the stake. -/
def Stake.slashAmount (stake : Stake) : Nat :=
  min (stake.amount * stake.tierSlashRateBps / 10000) stake.amount

/-- The stake less `amount`, which is at most the whole, so that the narrowing to
128 bits loses nothing. -/
def Stake.reduce (stake : Stake) (amount : Nat) : Stake :=
  { stake with amount := ⟨stake.amount - amount, by omega⟩ }

/-- The share of a slash that the challenger gets: none for the provider itself
or the zero address. -/
def challengerShare (provider challenger : Address) (slashAmount : Nat) : Nat :=
  if challenger = provider ∨ challenger = 0 then 0 else slashAmount * challengerBountyBps / 10000

/-- The bounty ledger after the challenger's share has been credited. -/
def State.creditBounty (s : State) (provider challenger : Address) (bounty : Nat) :
    Except Error (Address → Nat) :=
  if challenger = provider ∨ challenger = 0 then
    pure s.slashedBountyPayable
  else do
    let payable ← checkedAdd 256 panic (s.slashedBountyPayable challenger) bounty
    pure (Function.update s.slashedBountyPayable challenger payable)

def slash (env : Env) (s : State) (t : Token) (provider challenger : Address)
    (reasonId : Bytes32) : Outcome := do
  s.whenNotPaused
  require (env.sender = s.slasher ∨ env.sender = s.storageSlasher)
    (.callerNotSlasher env.sender s.slasher)
  let stake := s.stakes provider
  require (stake.status.slashable = true) (.notSlashable provider stake.status)
  require (stake.amount ≠ 0) (.nothingToSlash provider)
  require (stake.amount * stake.tierSlashRateBps / 10000 ≠ 0) (.nothingToSlash provider)
  let bounty := challengerShare provider challenger stake.slashAmount
  let reserve := stake.slashAmount - bounty
  let slashedBountyPayable ← s.creditBounty provider challenger bounty
  let reserveBalance ← checkedAdd 256 panic s.foundationReserveBalance reserve
  pure ({ s.setStake provider (stake.reduce stake.slashAmount) with
      slashedBountyPayable := slashedBountyPayable
      foundationReserveBalance := reserveBalance },
    t, [.slashed provider challenger reasonId stake.slashAmount bounty reserve])

def claimBounty (env : Env) (s : State) (t : Token) : Outcome := do
  s.whenNotPaused
  let amount := s.slashedBountyPayable env.sender
  require (amount ≠ 0) (.nothingToClaim env.sender)
  let t' ← pay env s t env.sender amount
  pure ({ s with slashedBountyPayable := Function.update s.slashedBountyPayable env.sender 0 },
    t', [.bountyClaimed env.sender amount])

def drainFoundationReserve (env : Env) (s : State) (t : Token) : Outcome := do
  s.onlyOwner env
  s.whenNotPaused
  require (s.foundationReserveWallet ≠ 0) .foundationReserveWalletNotSet
  let amount := s.foundationReserveBalance
  require (amount ≠ 0) .foundationReserveEmpty
  let t' ← pay env s t s.foundationReserveWallet amount
  pure ({ s with foundationReserveBalance := 0 },
    t', [.foundationReserveDrained s.foundationReserveWallet amount])

def setUnbondDelay (env : Env) (s : State) (t : Token) (newDelay : Nat) : Outcome := do
  s.onlyOwner env
  require (minUnbondDelaySeconds ≤ newDelay ∧ newDelay ≤ maxUnbondDelaySeconds)
    (.invalidUnbondDelay newDelay)
  pure ({ s with unbondDelaySeconds := newDelay },
    t, [.unbondDelayUpdated s.unbondDelaySeconds newDelay])

def setStorageSlasherOnce (env : Env) (s : State) (t : Token) (newStorageSlasher : Address) :
    Outcome := do
  s.onlyOwner env
  require (s.storageSlasher = 0) (.storageSlasherAlreadySet s.storageSlasher)
  require (newStorageSlasher ≠ 0) .zeroAddress
  pure ({ s with storageSlasher := newStorageSlasher },
    t, [.storageSlasherSet newStorageSlasher])

def setFoundationReserveWallet (env : Env) (s : State) (t : Token) (newWallet : Address) :
    Outcome := do
  s.onlyOwner env
  s.whenNotPaused
  require (newWallet ≠ 0) .zeroAddress
  require (env.codeLength newWallet ≠ 0) (.walletNotContract newWallet)
  pure ({ s with foundationReserveWallet := newWallet },
    t, [.foundationReserveWalletUpdated s.foundationReserveWallet newWallet])

def pause (env : Env) (s : State) (t : Token) : Outcome := do
  s.onlyOwner env
  s.whenNotPaused
  pure ({ s with paused := true }, t, [])

def unpause (env : Env) (s : State) (t : Token) : Outcome := do
  s.onlyOwner env
  raise .platform (whenPaused s.paused)
  pure ({ s with paused := false }, t, [])

inductive Call
  | bond (amount : Uint 128) (tierSlashRateBps : Uint 16)
  | requestUnbond
  | withdraw
  | slash (provider challenger : Address) (reasonId : Bytes32)
  | claimBounty
  | drainFoundationReserve
  | setUnbondDelay (newDelay : Nat)
  | setStorageSlasherOnce (newStorageSlasher : Address)
  | setFoundationReserveWallet (newWallet : Address)
  | pause
  | unpause
  | ownership (call : Ownable2Step.Call)

def call (env : Env) (s : State) (t : Token) : Call → Outcome
  | .bond amount tierSlashRateBps => bond env s t amount tierSlashRateBps
  | .requestUnbond => requestUnbond env s t
  | .withdraw => withdraw env s t
  | .slash provider challenger reasonId => slash env s t provider challenger reasonId
  | .claimBounty => claimBounty env s t
  | .drainFoundationReserve => drainFoundationReserve env s t
  | .setUnbondDelay newDelay => setUnbondDelay env s t newDelay
  | .setStorageSlasherOnce newStorageSlasher => setStorageSlasherOnce env s t newStorageSlasher
  | .setFoundationReserveWallet newWallet => setFoundationReserveWallet env s t newWallet
  | .pause => pause env s t
  | .unpause => unpause env s t
  | .ownership c => do
      let ownable ← raise .platform (s.ownable.call env.sender c)
      pure ({ s with ownable := ownable }, t, [])

end Prsm.StakeBond
