import Prsm.Evm.Contracts

/-!
# `OperatorRewardPool`: storage and functions

The pool holds reward tokens.  A publisher commits to the entitlements of an
epoch by a Merkle root and a total, which the pool's free balance must cover,
and each earner claims with a proof.  One counter, `totalReserved`, stands for
what all published epochs still owe.
-/

namespace Prsm.RewardPool

open Foundations Evm

structure Epoch where
  merkleRoot : Bytes32
  totalAmount : Nat
  claimedAmount : Nat
  /-- Zero for an epoch that was never published. -/
  publishedAt : Nat
  reclaimed : Bool

def Epoch.zero : Epoch where
  merkleRoot := 0
  totalAmount := 0
  claimedAmount := 0
  publishedAt := 0
  reclaimed := false

structure State where
  ownable : Ownable2Step
  /-- `address(this)`. -/
  self : Address
  rootPublisher : Address
  paused : Bool
  epochs : Uint 256 → Epoch
  hasClaimed : Uint 256 → Address → Bool
  totalReserved : Nat

def minClaimWindow : Nat := 365 * 86400

inductive Event
  | epochPublished (epochId : Uint 256) (merkleRoot : Bytes32) (totalAmount publishedAt : Nat)
  | rewardClaimed (epochId : Uint 256) (account : Address) (amount : Nat)
  | rootPublisherUpdated (previous current : Address)
  | pausedSet (paused : Bool)
  | surplusSwept (recipient : Address) (amount : Nat)
  | unclaimedReclaimed (epochId : Uint 256) (amount : Nat)

inductive Error
  | platform (e : PlatformError)
  | token (e : TokenError)
  | zeroAddress
  | notPublisher
  | isPaused
  | epochAlreadyPublished (epochId : Uint 256)
  | emptyMerkleRoot
  | zeroAmount
  | insufficientBacking (available required : Nat)
  | epochNotPublished (epochId : Uint 256)
  | alreadyClaimed (epochId : Uint 256) (account : Address)
  | invalidProof
  | epochOverdrawn (epochId : Uint 256) (requested remaining : Nat)
  | transferFailed
  | claimWindowOpen (reclaimableAt : Nat)
  | alreadyReclaimed (epochId : Uint 256)
  | noSurplus
  deriving DecidableEq

structure Env where
  block : Block
  sender : Address
  /-- The token returns `false` on a transfer. -/
  tokenDeclines : Bool

def Env.timestamp (env : Env) : Nat := env.block.timestamp

abbrev Outcome := Except Error (State × Token × List Event)

def panic : Error := .platform .panicArithmetic

def State.onlyOwner (s : State) (env : Env) : Except Error Unit :=
  raise .platform (s.ownable.onlyOwner env.sender)

def State.onlyPublisher (s : State) (env : Env) : Except Error Unit :=
  require (env.sender = s.rootPublisher) .notPublisher

def State.whenNotPaused (s : State) : Except Error Unit :=
  require (s.paused = false) .isPaused

def State.setEpoch (s : State) (epochId : Uint 256) (e : Epoch) : State :=
  { s with epochs := Function.update s.epochs epochId e }

def State.initial (self : Address) (ownable : Ownable2Step) (rootPublisher : Address) : State where
  ownable := ownable
  self := self
  rootPublisher := rootPublisher
  paused := false
  epochs := fun _ => Epoch.zero
  hasClaimed := fun _ _ => false
  totalReserved := 0

def construct (self ftns initialOwner rootPublisher : Address) : Except Error State := do
  let ownable ← raise .platform (Ownable2Step.construct initialOwner)
  require (ftns ≠ 0 ∧ initialOwner ≠ 0 ∧ rootPublisher ≠ 0) .zeroAddress
  pure (State.initial self ownable rootPublisher)

/-! ## Epochs -/

variable (keccak256 : Keccak)

/-- `keccak256(bytes.concat(keccak256(abi.encode(epochId, account, amount))))`. -/
def leafHash (epochId : Uint 256) (account : Address) (amount : Nat) : Bytes32 :=
  keccak256 (abiWord (keccak256 (abiEncode [epochId, account, amount])))

def publishEpoch (env : Env) (s : State) (t : Token) (epochId : Uint 256) (merkleRoot : Bytes32)
    (totalAmount : Uint 256) : Outcome := do
  s.onlyPublisher env
  s.whenNotPaused
  require ((s.epochs epochId).publishedAt = 0) (.epochAlreadyPublished epochId)
  require (merkleRoot ≠ 0) .emptyMerkleRoot
  require (totalAmount ≠ 0) .zeroAmount
  let balance := t.balanceOf s.self
  let required ← checkedAdd 256 panic s.totalReserved totalAmount
  require (required ≤ balance) (.insufficientBacking balance required)
  pure ({ s.setEpoch epochId
        { merkleRoot := merkleRoot
          totalAmount := totalAmount
          claimedAmount := 0
          publishedAt := uint64 env.timestamp
          reclaimed := false } with
      totalReserved := required },
    t, [.epochPublished epochId merkleRoot totalAmount (uint64 env.timestamp)])

/-- `ftns.transfer(recipient, amount)`, reverting when it returns `false`. -/
def pay (env : Env) (s : State) (t : Token) (recipient : Address) (amount : Nat) :
    Except Error Token := do
  let (ok, t') ← raise .token (t.transfer env.tokenDeclines s.self recipient amount)
  require (ok = true) .transferFailed
  pure t'

/-- Storage after a claim, with the new reserve. -/
def State.recordClaim (s : State) (epochId : Uint 256) (account : Address)
    (claimed reserved : Nat) : State :=
  { s.setEpoch epochId { s.epochs epochId with claimedAmount := claimed } with
    hasClaimed := Function.update s.hasClaimed epochId
      (Function.update (s.hasClaimed epochId) account true)
    totalReserved := reserved }

def claim (env : Env) (s : State) (t : Token) (epochId : Uint 256) (account : Address)
    (amount : Uint 256) (proof : List Bytes32) : Outcome := do
  s.whenNotPaused
  let e := s.epochs epochId
  require (e.publishedAt ≠ 0) (.epochNotPublished epochId)
  require (s.hasClaimed epochId account = false) (.alreadyClaimed epochId account)
  require (amount ≠ 0) .zeroAmount
  require (MerkleProof.verify keccak256 proof e.merkleRoot
    (leafHash keccak256 epochId account amount) = true) .invalidProof
  let remaining ← checkedSub panic e.totalAmount e.claimedAmount
  require (amount.val ≤ remaining) (.epochOverdrawn epochId amount remaining)
  let claimed ← checkedAdd 256 panic e.claimedAmount amount
  let reserved ← checkedSub panic s.totalReserved amount
  let t' ← pay env s t account amount
  pure (s.recordClaim epochId account claimed reserved, t', [.rewardClaimed epochId account amount])

/-! ## Owner operations -/

def setRootPublisher (env : Env) (s : State) (t : Token) (newPublisher : Address) : Outcome := do
  s.onlyOwner env
  require (newPublisher ≠ 0) .zeroAddress
  pure ({ s with rootPublisher := newPublisher },
    t, [.rootPublisherUpdated s.rootPublisher newPublisher])

def setPaused (env : Env) (s : State) (t : Token) (p : Bool) : Outcome := do
  s.onlyOwner env
  pure ({ s with paused := p }, t, [.pausedSet p])

/-- `surplus`: the balance above the reserve. -/
def surplus (s : State) (t : Token) : Nat :=
  if s.totalReserved < t.balanceOf s.self then t.balanceOf s.self - s.totalReserved else 0

def sweepSurplus (env : Env) (s : State) (t : Token) (recipient : Address) (amount : Uint 256) :
    Outcome := do
  s.onlyOwner env
  require (recipient ≠ 0) .zeroAddress
  require (surplus s t ≠ 0 ∧ amount.val ≤ surplus s t) .noSurplus
  let t' ← pay env s t recipient amount
  pure (s, t', [.surplusSwept recipient amount])

/-- The reserve after an epoch's remainder has been released from it. -/
def State.release (s : State) (remaining : Nat) : Except Error Nat :=
  if 0 < remaining then checkedSub panic s.totalReserved remaining else pure s.totalReserved

def reclaimUnclaimed (env : Env) (s : State) (t : Token) (epochId : Uint 256) : Outcome := do
  s.onlyOwner env
  let e := s.epochs epochId
  require (e.publishedAt ≠ 0) (.epochNotPublished epochId)
  require (e.reclaimed = false) (.alreadyReclaimed epochId)
  let reclaimableAt ← checkedAdd 64 panic e.publishedAt minClaimWindow
  require (reclaimableAt ≤ env.timestamp) (.claimWindowOpen reclaimableAt)
  let remaining ← checkedSub panic e.totalAmount e.claimedAmount
  let reserved ← s.release remaining
  pure ({ s.setEpoch epochId { e with reclaimed := true } with totalReserved := reserved },
    t, [.unclaimedReclaimed epochId remaining])

inductive Call
  | publishEpoch (epochId : Uint 256) (merkleRoot : Bytes32) (totalAmount : Uint 256)
  | claim (epochId : Uint 256) (account : Address) (amount : Uint 256) (proof : List Bytes32)
  | setRootPublisher (newPublisher : Address)
  | setPaused (p : Bool)
  | sweepSurplus (recipient : Address) (amount : Uint 256)
  | reclaimUnclaimed (epochId : Uint 256)
  | ownership (call : Ownable2Step.Call)

def call (env : Env) (s : State) (t : Token) : Call → Outcome
  | .publishEpoch epochId merkleRoot totalAmount =>
      publishEpoch env s t epochId merkleRoot totalAmount
  | .claim epochId account amount proof => claim keccak256 env s t epochId account amount proof
  | .setRootPublisher newPublisher => setRootPublisher env s t newPublisher
  | .setPaused p => setPaused env s t p
  | .sweepSurplus recipient amount => sweepSurplus env s t recipient amount
  | .reclaimUnclaimed epochId => reclaimUnclaimed env s t epochId
  | .ownership c => do
      let ownable ← raise .platform (s.ownable.call env.sender c)
      pure ({ s with ownable := ownable }, t, [])

/-- The epoch that a call is about, if any. -/
def Call.epoch? : Call → Option (Uint 256)
  | .publishEpoch epochId .. | .claim epochId .. | .reclaimUnclaimed epochId => some epochId
  | .setRootPublisher _ | .setPaused _ | .sweepSurplus .. | .ownership _ => none

end Prsm.RewardPool
