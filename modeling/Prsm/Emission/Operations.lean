import Prsm.FtnsToken.Operations

/-!
# `EmissionController`: storage and functions

The controller mints new tokens to one authorised distributor.  Its rate is a fixed
number of tokens for each second, halved after each epoch by a right shift, and each
mint may take what has accrued at the current rate since the last one.

`mintAuthorized` calls the token last but for an event and is guarded against re-entry, so the
token is passed through it as a value.
-/

namespace Prsm.Emission

open Foundations Evm

structure State where
  ownable : Ownable2Step
  /-- `address(this)`. -/
  self : Address
  /-- Immutable, as are the next three. -/
  epochZeroStartTimestamp : Uint 64
  baselineRatePerSecond : Uint 256
  mintCap : Uint 256
  epochDurationSeconds : Uint 256
  authorizedDistributor : Address
  mintedToDate : Nat
  lastMintTimestamp : Nat
  paused : Bool

def minEpochDurationSeconds : Nat := 3600
def mainnetEpochDurationSeconds : Nat := 4 * 365 * 86400
def baseMainnetChainId : Nat := 8453

inductive Event
  | minted (recipient : Address) (amount epoch epochRate : Nat)
  | distributorUpdated (oldDistributor newDistributor : Address)
  | mintingPaused (caller : Address)
  | mintingResumed (caller : Address)

inductive Error
  | platform (e : PlatformError)
  | token (e : FtnsToken.Error)
  | notDistributor
  | mintingIsPaused
  | notPaused
  | alreadyPaused
  | exceedsRateLimit (requested allowed : Nat)
  | exceedsMintCap (requested remaining : Nat)
  | invalidAddress
  | zeroAmount
  | invalidEpochDuration (provided minimum : Nat)

structure Env where
  block : Block
  sender : Address

def Env.timestamp (env : Env) : Nat := env.block.timestamp

abbrev Outcome := Except Error (State × FtnsToken.State × List Event)

def panic : Error := .platform .panicArithmetic

def State.onlyOwner (s : State) (env : Env) : Except Error Unit :=
  raise .platform (s.ownable.onlyOwner env.sender)

/-- The shortest epoch that the chain accepts. -/
def effectiveFloor (chainId : Nat) : Nat :=
  if chainId = baseMainnetChainId then mainnetEpochDurationSeconds else minEpochDurationSeconds

def State.initial (self : Address) (ownable : Ownable2Step) (epochZeroStartTimestamp : Uint 64)
    (baselineRatePerSecond mintCap epochDurationSeconds : Uint 256) : State where
  ownable := ownable
  self := self
  epochZeroStartTimestamp := epochZeroStartTimestamp
  baselineRatePerSecond := baselineRatePerSecond
  mintCap := mintCap
  epochDurationSeconds := epochDurationSeconds
  authorizedDistributor := 0
  mintedToDate := 0
  lastMintTimestamp := epochZeroStartTimestamp
  paused := false

def construct (chainId : Nat) (self ftnsToken : Address) (epochZeroStartTimestamp : Uint 64)
    (baselineRatePerSecond mintCap epochDurationSeconds : Uint 256) (initialOwner : Address) :
    Except Error State := do
  let ownable ← raise .platform (Ownable2Step.construct initialOwner)
  require (ftnsToken ≠ 0) .invalidAddress
  require (baselineRatePerSecond ≠ 0) .zeroAmount
  require (mintCap ≠ 0) .zeroAmount
  require (effectiveFloor chainId ≤ epochDurationSeconds.val)
    (.invalidEpochDuration epochDurationSeconds (effectiveFloor chainId))
  -- The main network takes the canonical length and no other.
  require (¬ (chainId = baseMainnetChainId ∧
      epochDurationSeconds.val ≠ mainnetEpochDurationSeconds))
    (.invalidEpochDuration epochDurationSeconds mainnetEpochDurationSeconds)
  pure (State.initial self ownable epochZeroStartTimestamp baselineRatePerSecond mintCap
    epochDurationSeconds)

/-! ## Views -/

/-- The epoch number, narrowed to 32 bits. -/
def State.currentEpoch (s : State) (timestamp : Nat) : Nat :=
  if timestamp ≤ s.epochZeroStartTimestamp then 0
  else ((timestamp - s.epochZeroStartTimestamp) / s.epochDurationSeconds) % 2 ^ 32

def State.currentEpochRate (s : State) (timestamp : Nat) : Nat :=
  if 256 ≤ s.currentEpoch timestamp then 0
  else s.baselineRatePerSecond.val >>> s.currentEpoch timestamp

/-! ## Minting -/

/-- The time since the last mint, or zero before the first epoch. -/
def State.elapsed (s : State) (timestamp : Nat) : Nat :=
  if s.lastMintTimestamp < timestamp then timestamp - s.lastMintTimestamp else 0

def mintAuthorized (env : Env) (s : State) (t : FtnsToken.State) (amount : Nat) : Outcome := do
  require (env.sender = s.authorizedDistributor) .notDistributor
  require (s.paused = false) .mintingIsPaused
  require (amount ≠ 0) .zeroAmount
  -- The whole time since the last mint counts at the rate of the current epoch.
  let allowed ← checkedMul 256 panic (s.currentEpochRate env.timestamp) (s.elapsed env.timestamp)
  require (amount ≤ allowed) (.exceedsRateLimit amount allowed)
  let remaining ← checkedSub panic s.mintCap s.mintedToDate
  require (amount ≤ remaining) (.exceedsMintCap amount remaining)
  let mintedToDate ← checkedAdd 256 panic s.mintedToDate amount
  let t' ← raise .token (FtnsToken.mintReward s.self t s.authorizedDistributor amount)
  pure ({ s with
      mintedToDate := mintedToDate
      lastMintTimestamp := uint64 env.timestamp },
    t', [.minted s.authorizedDistributor amount (s.currentEpoch env.timestamp)
      (s.currentEpochRate env.timestamp)])

def setAuthorizedDistributor (env : Env) (s : State) (t : FtnsToken.State)
    (newDistributor : Address) : Outcome := do
  s.onlyOwner env
  require (newDistributor ≠ 0) .invalidAddress
  pure ({ s with authorizedDistributor := newDistributor },
    t, [.distributorUpdated s.authorizedDistributor newDistributor])

def pauseMinting (env : Env) (s : State) (t : FtnsToken.State) : Outcome := do
  s.onlyOwner env
  require (s.paused = false) .alreadyPaused
  pure ({ s with paused := true }, t, [.mintingPaused env.sender])

def resumeMinting (env : Env) (s : State) (t : FtnsToken.State) : Outcome := do
  s.onlyOwner env
  require (s.paused = true) .notPaused
  pure ({ s with paused := false }, t, [.mintingResumed env.sender])

inductive Call
  | mintAuthorized (amount : Uint 256)
  | setAuthorizedDistributor (newDistributor : Address)
  | pauseMinting
  | resumeMinting
  | ownership (call : Ownable2Step.Call)

def call (env : Env) (s : State) (t : FtnsToken.State) : Call → Outcome
  | .mintAuthorized amount => mintAuthorized env s t amount
  | .setAuthorizedDistributor newDistributor => setAuthorizedDistributor env s t newDistributor
  | .pauseMinting => pauseMinting env s t
  | .resumeMinting => resumeMinting env s t
  | .ownership c => do
      let ownable ← raise .platform (s.ownable.call env.sender c)
      pure ({ s with ownable := ownable }, t, [])

end Prsm.Emission
