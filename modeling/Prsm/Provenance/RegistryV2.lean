import Prsm.Evm.Platform

/-!
# `ProvenanceRegistryV2`: content and its creators

Anyone can register content under a hash nobody has registered yet, with a royalty rate
of at most 98 per cent, and the creator can hand the content on.  The rate never changes
after that, so the limit holds of every record there is.
-/

namespace Prsm.ProvenanceRegistryV2

open Foundations Evm

structure Content where
  /-- Zero where nothing is registered. -/
  creator : Address
  royaltyRateBps : Uint 16
  registeredAt : Nat
  embeddingCommitment : Bytes32
  fingerprintKind : Bytes32
  metadataUri : String

/-- The record of a hash that nobody has registered. -/
def Content.zero : Content where
  creator := 0
  royaltyRateBps := 0
  registeredAt := 0
  embeddingCommitment := 0
  fingerprintKind := 0
  metadataUri := ""

structure State where
  contents : Bytes32 → Content

def maxRoyaltyRateBps : Nat := 9800

inductive Event
  | contentRegistered (contentHash : Bytes32) (creator : Address) (royaltyRateBps : Uint 16)
      (embeddingCommitment fingerprintKind : Bytes32) (metadataUri : String)
  | ownershipTransferred (contentHash : Bytes32) (previousCreator newCreator : Address)
  deriving DecidableEq

inductive Error
  | reverted (reason : String)

structure Env where
  block : Block
  sender : Address

def Env.timestamp (env : Env) : Nat := env.block.timestamp

abbrev Outcome := Except Error (State × List Event)

def State.setContent (s : State) (contentHash : Bytes32) (c : Content) : State where
  contents := Function.update s.contents contentHash c

def State.initial : State where
  contents := fun _ => Content.zero

def registerContent (env : Env) (s : State) (contentHash : Bytes32) (royaltyRateBps : Uint 16)
    (metadataUri : String) (embeddingCommitment fingerprintKind : Bytes32) : Outcome := do
  require ((s.contents contentHash).creator = 0) (.reverted "Already registered")
  require (royaltyRateBps.val ≤ maxRoyaltyRateBps) (.reverted "Rate exceeds max")
  pure (s.setContent contentHash
      { creator := env.sender
        royaltyRateBps := royaltyRateBps
        registeredAt := uint64 env.timestamp
        embeddingCommitment := embeddingCommitment
        fingerprintKind := fingerprintKind
        metadataUri := metadataUri },
    [.contentRegistered contentHash env.sender royaltyRateBps embeddingCommitment fingerprintKind
      metadataUri])

def transferContentOwnership (env : Env) (s : State) (contentHash : Bytes32)
    (newCreator : Address) : Outcome := do
  let c := s.contents contentHash
  require (c.creator = env.sender) (.reverted "Not creator")
  require (newCreator ≠ 0) (.reverted "Zero address")
  pure (s.setContent contentHash { c with creator := newCreator },
    [.ownershipTransferred contentHash c.creator newCreator])

def isRegistered (s : State) (contentHash : Bytes32) : Bool :=
  (s.contents contentHash).creator ≠ 0

def getCreatorAndRate (s : State) (contentHash : Bytes32) : Address × Uint 16 :=
  ((s.contents contentHash).creator, (s.contents contentHash).royaltyRateBps)

inductive Call
  | registerContent (contentHash : Bytes32) (royaltyRateBps : Uint 16) (metadataUri : String)
      (embeddingCommitment fingerprintKind : Bytes32)
  | transferContentOwnership (contentHash : Bytes32) (newCreator : Address)

def call (env : Env) (s : State) : Call → Outcome
  | .registerContent contentHash royaltyRateBps metadataUri embeddingCommitment fingerprintKind =>
      registerContent env s contentHash royaltyRateBps metadataUri embeddingCommitment
        fingerprintKind
  | .transferContentOwnership contentHash newCreator =>
      transferContentOwnership env s contentHash newCreator

/-! ## The limit of the rates -/

/-- No record has a rate above the limit. -/
def State.RatesLimited (s : State) : Prop :=
  ∀ contentHash, (s.contents contentHash).royaltyRateBps.val ≤ maxRoyaltyRateBps

theorem ratesLimited_initial : State.initial.RatesLimited :=
  fun _ => Nat.zero_le _

theorem ratesLimited_setContent {s : State} {contentHash : Bytes32} {c : Content}
    (hs : s.RatesLimited) (hRate : c.royaltyRateBps.val ≤ maxRoyaltyRateBps) :
    (s.setContent contentHash c).RatesLimited := by
  intro other
  by_cases hOther : other = contentHash
  · subst hOther
    simpa only [State.setContent, Function.update_self] using hRate
  · simpa only [State.setContent, Function.update_of_ne hOther] using hs other

theorem State.RatesLimited.call {env : Env} {s s' : State} {c : Call} {events : List Event}
    (hs : s.RatesLimited) (h : call env s c = .ok (s', events)) : s'.RatesLimited := by
  cases c with
  | registerContent contentHash royaltyRateBps metadataUri embeddingCommitment fingerprintKind =>
      simp only [ProvenanceRegistryV2.call, registerContent, bind_eq_ok_iff, require_eq_ok_iff,
        pure_eq_ok_iff, Prod.mk.injEq] at h
      obtain ⟨-, -, -, hRate, rfl, -⟩ := h
      exact ratesLimited_setContent hs hRate
  | transferContentOwnership contentHash newCreator =>
      simp only [ProvenanceRegistryV2.call, transferContentOwnership, bind_eq_ok_iff,
        pure_eq_ok_iff, Prod.mk.injEq] at h
      obtain ⟨-, -, -, -, rfl, -⟩ := h
      -- The new record has the old rate.
      exact ratesLimited_setContent hs (hs contentHash)

end Prsm.ProvenanceRegistryV2
