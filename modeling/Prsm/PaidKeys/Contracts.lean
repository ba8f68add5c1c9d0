import Prsm.Evm.Contracts
import Prsm.Provenance.RegistryV2

/-!
# `KeyDistribution`: storage and functions

A publisher deposits the encrypted key of some content together with a fee and the contract
that verifies its payment.  Anyone can then have the key released to a recipient for whom
that contract verifies the payment of the fee.
-/

namespace Prsm
namespace KeyDistribution

open Foundations
open Evm

structure KeyRecord where
  /-- Zero where nothing is deposited. -/
  publisher : Address
  encryptedKey : Bytes
  /-- The contract that verifies payments. -/
  royalty : Address
  releaseFeeFtnsWei : Uint 256
  active : Bool

/-- The record of content without a deposit. -/
def KeyRecord.zero : KeyRecord where
  publisher := 0
  encryptedKey := []
  royalty := 0
  releaseFeeFtnsWei := 0
  active := false

structure State where
  ownable : Ownable2Step
  records : Bytes32 → KeyRecord

inductive Event
  | keyDeposited (contentHash : Bytes32) (publisher royalty : Address)
      (releaseFeeFtnsWei : Uint 256)
  | keyReleased (contentHash : Bytes32) (recipient : Address) (encryptedKey : Bytes)
  | keyDeauthorized (contentHash : Bytes32) (publisher : Address)
  deriving DecidableEq

inductive Error
  | platform (e : PlatformError)
  | invalidAddress
  | emptyEncryptedKey
  | keyAlreadyDeposited (contentHash : Bytes32)
  | keyNotFound (contentHash : Bytes32)
  | keyNotActive (contentHash : Bytes32)
  | notPublisher (caller publisher : Address)
  | paymentNotVerified (recipient : Address) (contentHash : Bytes32)
  | zeroFee
  /-- The verifier reverts, or there is no contract at its address. -/
  | verifierReverted

/-- What `verifyPayment` of the contract at an address answers for a payer, a content and a
fee, and `none` where it reverts. -/
abbrev Verifiers := Address → Address → Bytes32 → Uint 256 → Option Bool

abbrev Outcome := Except Error (State × List Event)

def State.setRecord (s : State) (contentHash : Bytes32) (r : KeyRecord) : State :=
  { s with records := Function.update s.records contentHash r }

def construct (initialOwner : Address) : Except Error State := do
  let ownable ← raise .platform (Ownable2Step.construct initialOwner)
  pure { ownable := ownable, records := fun _ => KeyRecord.zero }

def depositKey (sender : Address) (s : State) (contentHash : Bytes32) (encryptedKey : Bytes)
    (royalty : Address) (releaseFeeFtnsWei : Uint 256) : Outcome := do
  require (encryptedKey.length ≠ 0) .emptyEncryptedKey
  require (royalty ≠ 0) .invalidAddress
  require (releaseFeeFtnsWei ≠ 0) .zeroFee
  require ((s.records contentHash).publisher = 0) (.keyAlreadyDeposited contentHash)
  pure (s.setRecord contentHash
      { publisher := sender
        encryptedKey := encryptedKey
        royalty := royalty
        releaseFeeFtnsWei := releaseFeeFtnsWei
        active := true },
    [.keyDeposited contentHash sender royalty releaseFeeFtnsWei])

/-- `verifyPayment` of the verifier of a record. -/
def verifies (verifiers : Verifiers) (r : KeyRecord) (recipient : Address)
    (contentHash : Bytes32) : Except Error Bool :=
  (verifiers r.royalty recipient contentHash r.releaseFeeFtnsWei).elim
    (.error .verifierReverted) .ok

def release (verifiers : Verifiers) (s : State) (contentHash : Bytes32) (recipient : Address) :
    Outcome := do
  require (recipient ≠ 0) .invalidAddress
  let r := s.records contentHash
  require (r.publisher ≠ 0) (.keyNotFound contentHash)
  require (r.active = true) (.keyNotActive contentHash)
  let verified ← verifies verifiers r recipient contentHash
  require (verified = true) (.paymentNotVerified recipient contentHash)
  pure (s, [.keyReleased contentHash recipient r.encryptedKey])

def deauthorize (sender : Address) (s : State) (contentHash : Bytes32) : Outcome := do
  let r := s.records contentHash
  require (r.publisher ≠ 0) (.keyNotFound contentHash)
  require (sender = r.publisher) (.notPublisher sender r.publisher)
  pure (s.setRecord contentHash { r with active := false },
    [.keyDeauthorized contentHash sender])

inductive Call
  | depositKey (contentHash : Bytes32) (encryptedKey : Bytes) (royalty : Address)
      (releaseFeeFtnsWei : Uint 256)
  | release (contentHash : Bytes32) (recipient : Address)
  | deauthorize (contentHash : Bytes32)
  | ownership (call : Ownable2Step.Call)

def call (verifiers : Verifiers) (sender : Address) (s : State) : Call → Outcome
  | .depositKey contentHash encryptedKey royalty releaseFeeFtnsWei =>
      depositKey sender s contentHash encryptedKey royalty releaseFeeFtnsWei
  | .release contentHash recipient => release verifiers s contentHash recipient
  | .deauthorize contentHash => deauthorize sender s contentHash
  | .ownership c => do
      let ownable ← raise .platform (s.ownable.call sender c)
      pure ({ s with ownable := ownable }, [])

/-! ## Who is released a key -/

variable {verifiers : Verifiers} {sender : Address} {s s' : State} {events : List Event}

theorem call_keyReleased {c : Call} {contentHash : Bytes32} {recipient : Address}
    {encryptedKey : Bytes} (h : call verifiers sender s c = .ok (s', events))
    (hEvent : .keyReleased contentHash recipient encryptedKey ∈ events) :
    c = .release contentHash recipient ∧
      verifiers (s.records contentHash).royalty recipient contentHash
        (s.records contentHash).releaseFeeFtnsWei = some true := by
  cases c with
  | depositKey contentHash' encryptedKey' royalty fee =>
      simp only [call, depositKey, bind_eq_ok_iff, pure_eq_ok_iff, Prod.mk.injEq] at h
      obtain ⟨-, -, -, -, -, -, -, -, -, rfl⟩ := h
      simp at hEvent
  | release contentHash' recipient' =>
      simp only [call, release, verifies, bind_eq_ok_iff, require_eq_ok_iff, pure_eq_ok_iff,
        Prod.mk.injEq] at h
      obtain ⟨-, -, -, -, -, -, verified, hVerifies, -, rfl, -, rfl⟩ := h
      simp only [List.mem_singleton, Event.keyReleased.injEq] at hEvent
      obtain ⟨rfl, rfl, -⟩ := hEvent
      refine ⟨rfl, ?_⟩
      cases hAnswer : verifiers (s.records contentHash).royalty recipient contentHash
          (s.records contentHash).releaseFeeFtnsWei with
      | none =>
          rw [hAnswer] at hVerifies
          cases hVerifies
      | some answer =>
          rw [hAnswer] at hVerifies
          cases hVerifies
          rfl
  | deauthorize contentHash' =>
      simp only [call, deauthorize, bind_eq_ok_iff, pure_eq_ok_iff, Prod.mk.injEq] at h
      obtain ⟨-, -, -, -, -, rfl⟩ := h
      simp at hEvent
  | ownership c =>
      simp only [call, bind_eq_ok_iff, pure_eq_ok_iff, Prod.mk.injEq] at h
      obtain ⟨-, -, -, rfl⟩ := h
      simp at hEvent

end KeyDistribution
end Prsm

/-!
# `ContentAccessVerifier`: storage and functions

A reader pays the fee of some content, which is credited to the creator that the registry
names.  The payment is recorded under the hash of payer, content and fee, and a recorded
payment is never taken again.
-/

namespace Prsm
namespace ContentAccessVerifier

open Foundations
open Evm

structure State where
  /-- `address(this)`. -/
  self : Address
  paid : Bytes32 → Bool
  claimable : Address → Nat
  totalClaimable : Nat

inductive Event
  | accessPaid (payer : Address) (contentHash : Bytes32) (feeWei : Uint 256) (creator : Address)
  | royaltyClaimed (creator : Address) (amount : Nat)
  deriving DecidableEq

inductive Error
  | platform (e : PlatformError)
  | token (e : TokenError)
  | reverted (reason : String)
  | zeroFee
  | contentNotRegistered (contentHash : Bytes32)
  | pullFailed
  | nothingToClaim
  | transferFailed

structure Env where
  sender : Address
  /-- The token returns `false` on a transfer. -/
  tokenDeclines : Bool

abbrev Outcome := Except Error (State × Token × List Event)

def panic : Error := .platform .panicArithmetic

def State.initial (self : Address) : State where
  self := self
  paid := fun _ => false
  claimable := fun _ => 0
  totalClaimable := 0

def construct (self ftns registry : Address) : Except Error State := do
  require (ftns ≠ 0 ∧ registry ≠ 0) (.reverted "zero address")
  pure (State.initial self)

/-- What `_key` hashes, in packed encoding. -/
def preimage (payer : Address) (contentHash : Bytes32) (feeWei : Uint 256) : Bytes :=
  packedAddress payer ++ abiWord contentHash ++ abiWord feeWei

def key (keccak256 : Keccak) (payer : Address) (contentHash : Bytes32) (feeWei : Uint 256) :
    Bytes32 :=
  keccak256 (preimage payer contentHash feeWei)

def verifyPayment (keccak256 : Keccak) (s : State) (payer : Address) (contentHash : Bytes32)
    (feeWei : Uint 256) : Bool :=
  s.paid (key keccak256 payer contentHash feeWei)

def payForAccess (keccak256 : Keccak) (env : Env) (r : ProvenanceRegistryV2.State) (s : State)
    (t : Token) (contentHash : Bytes32) (feeWei : Uint 256) : Outcome := do
  require (feeWei ≠ 0) .zeroFee
  if s.paid (key keccak256 env.sender contentHash feeWei) then
    pure (s, t, [])
  else
    let (creator, _) := ProvenanceRegistryV2.getCreatorAndRate r contentHash
    require (creator ≠ 0) (.contentNotRegistered contentHash)
    let (ok, t') ← raise .token (t.transferFrom env.tokenDeclines s.self env.sender s.self feeWei)
    require (ok = true) .pullFailed
    let credited ← checkedAdd 256 panic (s.claimable creator) feeWei
    let total ← checkedAdd 256 panic s.totalClaimable feeWei
    pure ({ s with
        paid := Function.update s.paid (key keccak256 env.sender contentHash feeWei) true
        claimable := Function.update s.claimable creator credited
        totalClaimable := total },
      t', [.accessPaid env.sender contentHash feeWei creator])

def claim (env : Env) (s : State) (t : Token) : Outcome := do
  let amt := s.claimable env.sender
  require (amt ≠ 0) .nothingToClaim
  let total ← checkedSub panic s.totalClaimable amt
  let (ok, t') ← raise .token (t.transfer env.tokenDeclines s.self env.sender amt)
  require (ok = true) .transferFailed
  pure ({ s with
      claimable := Function.update s.claimable env.sender 0
      totalClaimable := total },
    t', [.royaltyClaimed env.sender amt])

inductive Call
  | payForAccess (contentHash : Bytes32) (feeWei : Uint 256)
  | claim

def call (keccak256 : Keccak) (env : Env) (r : ProvenanceRegistryV2.State) (s : State)
    (t : Token) : Call → Outcome
  | .payForAccess contentHash feeWei => payForAccess keccak256 env r s t contentHash feeWei
  | .claim => claim env s t

/-! ## What is hashed -/

theorem preimage_injective {payer payer' : Address} {contentHash contentHash' : Bytes32}
    {feeWei feeWei' : Uint 256}
    (h : preimage payer contentHash feeWei = preimage payer' contentHash' feeWei') :
    payer = payer' ∧ contentHash = contentHash' ∧ feeWei = feeWei' := by
  obtain ⟨hFront, hFee⟩ := List.append_inj' h (by simp)
  obtain ⟨hPayer, hContent⟩ := List.append_inj' hFront (by simp)
  exact ⟨packedAddress_injective hPayer,
    Fin.ext (abiWord_injective contentHash.isLt contentHash'.isLt hContent),
    Fin.ext (abiWord_injective feeWei.isLt feeWei'.isLt hFee)⟩

variable {keccak256 : Keccak} {env : Env} {r : ProvenanceRegistryV2.State} {s s' : State}
  {t t' : Token} {events : List Event}

/-- A payment that is taken: it was not recorded before, the fee moves from the payer to the
contract, and the creator of the content is credited with it. -/
structure Charge (keccak256 : Keccak) (env : Env) (r : ProvenanceRegistryV2.State) (s : State)
    (t : Token) (contentHash : Bytes32) (feeWei : Uint 256) (s' : State) (t' : Token) : Prop where
  positive : 0 < feeWei.val
  unpaid : s.paid (key keccak256 env.sender contentHash feeWei) = false
  transfer : t.transferFrom env.tokenDeclines s.self env.sender s.self feeWei = .ok (true, t')
  state : s' = { s with
    paid := Function.update s.paid (key keccak256 env.sender contentHash feeWei) true
    claimable := Function.update s.claimable (r.contents contentHash).creator
      (s.claimable (r.contents contentHash).creator + feeWei)
    totalClaimable := s.totalClaimable + feeWei }

theorem payForAccess_eq_ok {contentHash : Bytes32} {feeWei : Uint 256}
    (h : payForAccess keccak256 env r s t contentHash feeWei = .ok (s', t', events)) :
    (s' = s ∧ t' = t ∧ s.paid (key keccak256 env.sender contentHash feeWei) = true) ∨
      Charge keccak256 env r s t contentHash feeWei s' t' := by
  simp only [payForAccess, bind_eq_ok_iff, require_eq_ok_iff] at h
  obtain ⟨-, hFee, h⟩ := h
  split at h
  case isTrue hPaid =>
    simp only [pure_eq_ok_iff, Prod.mk.injEq] at h
    exact .inl ⟨h.1.symm, h.2.1.symm, hPaid⟩
  case isFalse hUnpaid =>
    simp only [ProvenanceRegistryV2.getCreatorAndRate, bind_eq_ok_iff, require_eq_ok_iff,
      raise_eq_ok_iff, checkedAdd_eq_ok_iff, pure_eq_ok_iff, Prod.mk.injEq] at h
    obtain ⟨-, -, ⟨ok, moved⟩, hTransfer, -, hTaken, credited, ⟨-, rfl⟩, total, ⟨-, rfl⟩,
      rfl, rfl, -⟩ := h
    simp only at hTaken
    subst hTaken
    refine .inr ⟨?_, by simpa using hUnpaid, hTransfer, rfl⟩
    exact Nat.pos_of_ne_zero fun hZero => hFee (Fin.ext hZero)

theorem claim_eq_ok (h : claim env s t = .ok (s', t', events)) :
    s.claimable env.sender ≤ s.totalClaimable ∧
      t.transfer env.tokenDeclines s.self env.sender (s.claimable env.sender) = .ok (true, t') ∧
      s' = { s with
        claimable := Function.update s.claimable env.sender 0
        totalClaimable := s.totalClaimable - s.claimable env.sender } := by
  simp only [claim, bind_eq_ok_iff, require_eq_ok_iff, checkedSub_eq_ok_iff, raise_eq_ok_iff,
    pure_eq_ok_iff, Prod.mk.injEq] at h
  obtain ⟨-, -, total, ⟨hLe, rfl⟩, ⟨ok, moved⟩, hTransfer, -, hTaken, rfl, rfl, -⟩ := h
  simp only at hTaken
  subst hTaken
  exact ⟨hLe, hTransfer, rfl⟩

end ContentAccessVerifier
end Prsm
