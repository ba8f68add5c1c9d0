import Prsm.Foundations.Noninterference
import Prsm.PaymentAuth.Verifier

/-!
# What funders do to each other

The relayer verifier keeps job nonces and delegation budgets in stores that all
funders share, keyed by the nonces alone.  Nonces are meant to be unique, and
`funder_isolated` says what that gives: as long as no request of another funder
that passes the checks uses a nonce of a funder's own requests, the decisions on
these do not depend on the other funders' requests.
-/

namespace Prsm.PaymentAuth

open Foundations Evm Settlement

/-- The funder whose signature is on the delegation of a request. -/
def recoveredFunder (v : PaymentVerifier) (call : RelayerCall) : Option String :=
  (recoverDelegationSigner v call).toOption

def fundedBy (v : PaymentVerifier) (funder : String) (call : RelayerCall) : Bool :=
  recoveredFunder v call = some funder

/-- The decisions on the requests of a funder. -/
def decisionsFor (v : PaymentVerifier) (funder : String) (stores : RelayerStores)
    (calls : List RelayerCall) : List (Except Failure String) :=
  outputs (verifyRelayed v) (fundedBy v funder) stores calls

/-- The key of the delegation of a request in a budget store. -/
def RelayerCall.delegationKey (v : PaymentVerifier) (call : RelayerCall) : String :=
  budgetKey v.lower call.delegation.delegationNonce.shown

/-- No request of another funder that passes the checks has a nonce, of the job
or of the delegation, in common with a request of the funder. -/
def OwnNonces (v : PaymentVerifier) (funder : String) (calls : List RelayerCall) : Prop :=
  ∀ other ∈ calls, fundedBy v funder other = false →
    (checkRelayed v other).isOk = true → ∀ own ∈ calls, fundedBy v funder own = true →
      other.auth.nonceKey v.lower ≠ own.auth.nonceKey v.lower ∧
        other.delegationKey v ≠ own.delegationKey v

/-! ## Stores that agree for a funder -/

/-- Stores with the same entries under some keys. -/
structure AgreeOn (nonceKeys delegationKeys : Set String) (s t : RelayerStores) : Prop where
  nonces : ∀ key ∈ nonceKeys, key ∈ s.nonces.seen ↔ key ∈ t.nonces.seen
  budget : ∀ key ∈ delegationKeys,
    amountAt s.budget.consumed key = amountAt t.budget.consumed key

section Agreement

variable {nonceKeys delegationKeys : Set String} {s t : RelayerStores}

theorem AgreeOn.refl (s : RelayerStores) : AgreeOn nonceKeys delegationKeys s s :=
  ⟨fun _ _ => Iff.rfl, fun _ _ => rfl⟩

theorem AgreeOn.remember (h : AgreeOn nonceKeys delegationKeys s t) (key : String) (saved : Bool) :
    AgreeOn nonceKeys delegationKeys { s with nonces := s.nonces.remember key saved }
      { t with nonces := t.nonces.remember key saved } := by
  refine ⟨fun other hOther => ?_, h.budget⟩
  show other ∈ insert key s.nonces.seen ↔ other ∈ insert key t.nonces.seen
  rw [Finset.mem_insert, Finset.mem_insert, h.nonces other hOther]

theorem AgreeOn.record (h : AgreeOn nonceKeys delegationKeys s t) (key : String) (total : Int)
    (saved : Bool) :
    AgreeOn nonceKeys delegationKeys { s with budget := s.budget.record key total saved }
      { t with budget := t.budget.record key total saved } := by
  refine ⟨h.nonces, fun other hOther => ?_⟩
  show amountAt (s.budget.consumed.set key total) other =
    amountAt (t.budget.consumed.set key total) other
  rw [amountAt_set, amountAt_set, h.budget other hOther]

theorem AgreeOn.remember_left (h : AgreeOn nonceKeys delegationKeys s t) {key : String}
    (hKey : key ∉ nonceKeys) (saved : Bool) :
    AgreeOn nonceKeys delegationKeys { s with nonces := s.nonces.remember key saved } t := by
  refine ⟨fun other hOther => ?_, h.budget⟩
  have hNe : other ≠ key := fun hEq => hKey (hEq ▸ hOther)
  show other ∈ insert key s.nonces.seen ↔ _
  rw [Finset.mem_insert, or_iff_right hNe]
  exact h.nonces other hOther

theorem AgreeOn.record_left (h : AgreeOn nonceKeys delegationKeys s t) {key : String}
    (hKey : key ∉ delegationKeys) (total : Int) (saved : Bool) :
    AgreeOn nonceKeys delegationKeys { s with budget := s.budget.record key total saved } t := by
  refine ⟨h.nonces, fun other hOther => ?_⟩
  have hNe : ¬ other = key := fun hEq => hKey (hEq ▸ hOther)
  show amountAt (s.budget.consumed.set key total) other = _
  rw [amountAt_set, if_neg hNe]
  exact h.budget other hOther

variable {v : PaymentVerifier} {call : RelayerCall}

theorem AgreeOn.verifyFromBalance (h : AgreeOn nonceKeys delegationKeys s t)
    (hKey : call.delegationKey v ∈ delegationKeys) (funder : String) :
    (verifyFromBalance v s call funder).2 = (verifyFromBalance v t call funder).2 ∧
      AgreeOn nonceKeys delegationKeys (verifyFromBalance v s call funder).1
        (verifyFromBalance v t call funder).1 := by
  have hConsumed : s.budget.consumedUnder v.lower call.delegation.delegationNonce.shown =
      t.budget.consumedUnder v.lower call.delegation.delegationNonce.shown := h.budget _ hKey
  unfold PaymentAuth.verifyFromBalance
  cases checkBalance v.readsBalance call.balance call.quotedPriceWei with
  | error failure => exact ⟨rfl, h⟩
  | ok =>
      cases call.delegation.maxTotalSpendWei with
      | none => exact ⟨rfl, h⟩
      | some cap =>
          cases call.auth.maxSpendWei with
          | none => exact ⟨rfl, h⟩
          | some amount =>
              simp only [BudgetStore.reserve, hConsumed]
              by_cases hAmount : amount < 0
              · simp only [if_pos hAmount, hConsumed, true_and]
                exact h
              by_cases hCap : cap <
                  t.budget.consumedUnder v.lower call.delegation.delegationNonce.shown + amount
              · simp only [if_neg hAmount, if_pos hCap, hConsumed, true_and]
                exact h
              simp only [if_neg hAmount, if_neg hCap]
              have hNext := h.record (call.delegationKey v)
                (t.budget.consumedUnder v.lower call.delegation.delegationNonce.shown + amount)
                call.budgetSaved
              cases hSaved : call.budgetSaved with
              | false =>
                  rw [hSaved] at hNext
                  exact ⟨rfl, hNext⟩
              | true =>
                  rw [hSaved] at hNext
                  exact ⟨rfl, hNext.remember (call.auth.nonceKey v.lower) call.nonceSaved⟩

theorem AgreeOn.verifyRelayed (h : AgreeOn nonceKeys delegationKeys s t)
    (hNonce : call.auth.nonceKey v.lower ∈ nonceKeys)
    (hKey : call.delegationKey v ∈ delegationKeys) :
    (verifyRelayed v s call).2 = (verifyRelayed v t call).2 ∧
      AgreeOn nonceKeys delegationKeys (verifyRelayed v s call).1 (verifyRelayed v t call).1 := by
  have hUntil : verifyUntilBalance v s.nonces call = verifyUntilBalance v t.nonces call := by
    have hSeen := h.nonces _ hNonce
    simp only [verifyUntilBalance, hSeen]
  unfold PaymentAuth.verifyRelayed
  rw [hUntil]
  split
  · exact ⟨rfl, h⟩
  case h_2 funder _ => exact h.verifyFromBalance hKey funder

theorem AgreeOn.verifyRelayed_left (h : AgreeOn nonceKeys delegationKeys s t)
    (hApart : (∃ funder, checkRelayed v call = .ok funder) →
      call.auth.nonceKey v.lower ∉ nonceKeys ∧ call.delegationKey v ∉ delegationKeys) :
    AgreeOn nonceKeys delegationKeys (PaymentAuth.verifyRelayed v s call).1 t := by
  rcases verifyRelayed_cases v s call with
    ⟨failure, -, hVerify⟩ | ⟨funder, hChecked, -, hVerify⟩
  · rw [hVerify]
    exact h
  obtain ⟨hNonce, hKey⟩ := hApart ⟨funder, hChecked⟩
  rw [hVerify]
  rcases verifyFromBalance_cases v s call funder with
    ⟨failure, -, hBalance⟩ | ⟨cap, amount, -, -, -, -, hBalance⟩
  · rw [hBalance]
    exact h
  rw [hBalance]
  have hBudget : AgreeOn nonceKeys delegationKeys
      { s with budget := call.reserved v s.budget amount } t := h.record_left hKey _ _
  split
  · exact hBudget.remember_left hNonce call.nonceSaved
  · exact hBudget

end Agreement

theorem OwnNonces.isolates {v : PaymentVerifier} {funder : String} {calls : List RelayerCall}
    (h : OwnNonces v funder calls) {nonceKeys delegationKeys : Set String}
    (hNonces : nonceKeys = { key | ∃ own ∈ calls, fundedBy v funder own = true ∧
      own.auth.nonceKey v.lower = key })
    (hKeys : delegationKeys = { key | ∃ own ∈ calls, fundedBy v funder own = true ∧
      own.delegationKey v = key }) :
    Isolates (verifyRelayed v) (fundedBy v funder) (AgreeOn nonceKeys delegationKeys) calls := by
  subst hNonces hKeys
  constructor
  · intro own hOwn hFunded s t hAgree
    exact hAgree.verifyRelayed ⟨own, hOwn, hFunded, rfl⟩ ⟨own, hOwn, hFunded, rfl⟩
  · intro other hOther hFunded s t hAgree
    refine hAgree.verifyRelayed_left fun ⟨_, hChecked⟩ => ?_
    have hPasses : (checkRelayed v other).isOk = true := by rw [hChecked]; rfl
    refine ⟨?_, ?_⟩
    · rintro ⟨own, hOwn, hOwnFunded, hSame⟩
      exact (h other hOther hFunded hPasses own hOwn hOwnFunded).1 hSame.symm
    · rintro ⟨own, hOwn, hOwnFunded, hSame⟩
      exact (h other hOther hFunded hPasses own hOwn hOwnFunded).2 hSame.symm

/-- Two sequences of requests that differ only in the requests of other funders
are decided alike for the funder, from whatever stores, if the others use nonces
of their own. -/
theorem funder_isolated (v : PaymentVerifier) (funder : String) (stores : RelayerStores)
    (calls calls' : List RelayerCall)
    (hSame : calls.filter (fundedBy v funder) = calls'.filter (fundedBy v funder))
    (hOwn : OwnNonces v funder calls) (hOwn' : OwnNonces v funder calls') :
    decisionsFor v funder stores calls = decisionsFor v funder stores calls' := by
  have hMine : ∀ (P : RelayerCall → Prop), (∃ own ∈ calls, fundedBy v funder own = true ∧ P own) ↔
      ∃ own ∈ calls', fundedBy v funder own = true ∧ P own := by
    intro P
    have hMem : ∀ own, own ∈ calls ∧ fundedBy v funder own = true ↔
        own ∈ calls' ∧ fundedBy v funder own = true := by
      intro own
      rw [← List.mem_filter, ← List.mem_filter, hSame]
    constructor
    · rintro ⟨own, hIn, hFunded, hP⟩
      obtain ⟨hIn', -⟩ := (hMem own).mp ⟨hIn, hFunded⟩
      exact ⟨own, hIn', hFunded, hP⟩
    · rintro ⟨own, hIn, hFunded, hP⟩
      obtain ⟨hIn', -⟩ := (hMem own).mpr ⟨hIn, hFunded⟩
      exact ⟨own, hIn', hFunded, hP⟩
  refine outputs_eq_of_filter_eq (hOwn.isolates rfl rfl) (hOwn'.isolates ?_ ?_) hSame (.refl stores)
  · exact Set.ext fun key => hMine _
  · exact Set.ext fun key => hMine _

/-! ## A shared and an unshared job nonce -/

/-- The node of the second address, where funders with the first and the fourth
address delegate to a relayer with the third. -/
def twoFunderNode : PaymentVerifier where
  lower := asciiLower
  payment :=
    { encodeAddress := parseHexAddress
      recover := fun _ _ _ => some "0x6813Eb9362372EEF6200f3b1dbC3f819671cBA69" }
  delegation :=
    { encodeAddress := parseHexAddress
      recover := fun _ message _ =>
        if some message.requester =
            parseHexAddress "0x7E5F4552091A69125d5DfCb7b8C2659029395Bdf" then
          some "0x7E5F4552091A69125d5DfCb7b8C2659029395Bdf"
        else some "0x1efF47bc3a10a45D4B230B5d10E37751FE6AA718" }
  chainId := 8453
  provider := "0x2B5AD5c4795c026514f8317c7a215E218DcCD6cF"
  readsBalance := false

def signatureWith (half recoveryId : Nat) : HexField :=
  .bytes (abiWord 0x5cbdf0646e5db4eaa398f365f2ea7a0e3d419b7e0330e39ce92bddedcac4f9bc ++
    abiWord half ++ [Fin.ofNat _ recoveryId])

/-- A request for 500 under an authorization of 1000 and a delegation of 5000. -/
def relayedRequest (funder delegationNonce jobNonce : String)
    (delegationSignature authSignature : HexField) : RelayerCall where
  auth :=
    { requester := .text funder
      provider := .text "0x2B5AD5c4795c026514f8317c7a215E218DcCD6cF"
      maxSpendWei := some 1000
      jobNonce := .text jobNonce
      expiryUnix := some 2000
      requestHash :=
        .text "0x2222222222222222222222222222222222222222222222222222222222222222" }
  authSignature := authSignature
  delegation :=
    { requester := .text funder
      relayer := .text "0x6813Eb9362372EEF6200f3b1dbC3f819671cBA69"
      provider := .text "0x2B5AD5c4795c026514f8317c7a215E218DcCD6cF"
      maxTotalSpendWei := some 5000
      delegationNonce := .text delegationNonce
      expiryUnix := some 2000 }
  delegationSignature := delegationSignature
  requestHash := .text "0x2222222222222222222222222222222222222222222222222222222222222222"
  quotedPriceWei := 500
  delegationNow := 1000
  now := 1000
  balance := none
  budgetSaved := true
  nonceSaved := true

def firstFundersRequest : RelayerCall :=
  relayedRequest "0x7E5F4552091A69125d5DfCb7b8C2659029395Bdf"
    "0x3333333333333333333333333333333333333333333333333333333333333333"
    "0x1111111111111111111111111111111111111111111111111111111111111111"
    (signatureWith 0x1f40ec8ecda1cb680372abcc6570049e0c1f3a585068276e09c29d87b8972282 28)
    (signatureWith 0x08c5cb69b9d79ab56c1c328094659e8198c18978d10fedb8c8d5bd56301fe955 27)

def otherFundersRequest (jobNonce : String) (authSignature : HexField) : RelayerCall :=
  relayedRequest "0x1efF47bc3a10a45D4B230B5d10E37751FE6AA718"
    "0x4444444444444444444444444444444444444444444444444444444444444444" jobNonce
    (signatureWith 0x7f787f540223e905c1224f9fa97c222f206443f28af360804890c8279cb9454e 28)
    authSignature

def unsharedRequest : RelayerCall :=
  otherFundersRequest "0x5555555555555555555555555555555555555555555555555555555555555555"
    (signatureWith 0x467facfbfb987ff87407ae62fd8d7f7079bf1f9225d4b323b0e07207eb7fdc31 28)

def sharedRequest : RelayerCall :=
  otherFundersRequest "0x1111111111111111111111111111111111111111111111111111111111111111"
    (signatureWith 0x15ef6af1b17370234b3f36b8f0342beee858665a14a83c55e937822b0b7b2b75 27)

theorem fundedBy_firstFundersRequest :
    fundedBy twoFunderNode "0x7E5F4552091A69125d5DfCb7b8C2659029395Bdf" firstFundersRequest =
      true := by
  decide +kernel

theorem fundedBy_unsharedRequest :
    fundedBy twoFunderNode "0x7E5F4552091A69125d5DfCb7b8C2659029395Bdf" unsharedRequest =
      false := by
  decide +kernel

/-- The funder is recovered from the delegation, which both requests have in common. -/
theorem fundedBy_sharedRequest :
    fundedBy twoFunderNode "0x7E5F4552091A69125d5DfCb7b8C2659029395Bdf" sharedRequest = false := by
  have hSame : recoveredFunder twoFunderNode sharedRequest =
      recoveredFunder twoFunderNode unsharedRequest := by
    simp only [recoveredFunder, recoverDelegationSigner, sharedRequest, unsharedRequest,
      otherFundersRequest, relayedRequest]
  rw [fundedBy, hSame]
  exact fundedBy_unsharedRequest

theorem ownNonces_firstFundersRequest :
    OwnNonces twoFunderNode "0x7E5F4552091A69125d5DfCb7b8C2659029395Bdf" [firstFundersRequest] := by
  intro other hOther hFunded
  rw [List.mem_singleton.mp hOther, fundedBy_firstFundersRequest] at hFunded
  cases hFunded

theorem ownNonces_unsharedRequest :
    OwnNonces twoFunderNode "0x7E5F4552091A69125d5DfCb7b8C2659029395Bdf"
      [unsharedRequest, firstFundersRequest] := by
  intro other hOther hFunded _ own hOwn hOwnFunded
  rcases List.mem_pair.mp hOther with rfl | rfl
  · rcases List.mem_pair.mp hOwn with rfl | rfl
    · rw [fundedBy_unsharedRequest] at hOwnFunded
      cases hOwnFunded
    · decide +kernel
  · rw [fundedBy_firstFundersRequest] at hFunded
    cases hFunded

theorem funder_isolated_ownNonce :
    decisionsFor twoFunderNode "0x7E5F4552091A69125d5DfCb7b8C2659029395Bdf" .fresh
        [unsharedRequest, firstFundersRequest] =
      decisionsFor twoFunderNode "0x7E5F4552091A69125d5DfCb7b8C2659029395Bdf" .fresh
        [firstFundersRequest] :=
  funder_isolated twoFunderNode "0x7E5F4552091A69125d5DfCb7b8C2659029395Bdf" .fresh _ _
    (List.filter_cons_of_neg (by rw [fundedBy_unsharedRequest]; decide))
    ownNonces_unsharedRequest ownNonces_firstFundersRequest

/-- Another funder's request uses the job nonce up first. -/
theorem funder_not_isolated_sharedNonce :
    ¬ ∀ (v : PaymentVerifier) (funder : String) (stores : RelayerStores)
      (calls calls' : List RelayerCall),
      calls.filter (fundedBy v funder) = calls'.filter (fundedBy v funder) →
        decisionsFor v funder stores calls = decisionsFor v funder stores calls' := by
  intro hClaim
  have hSame := hClaim twoFunderNode "0x7E5F4552091A69125d5DfCb7b8C2659029395Bdf" .fresh
    [sharedRequest, firstFundersRequest] [firstFundersRequest]
    (List.filter_cons_of_neg (by rw [fundedBy_sharedRequest]; decide))
  revert hSame
  decide +kernel

end Prsm.PaymentAuth
