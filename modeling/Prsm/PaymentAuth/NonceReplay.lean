import Prsm.PaymentAuth.Verifier

/-!
# Single use of an authorization

A signature binds the 32 bytes of the job nonce, and the nonce stores keep the
nonce as the lower-cased text of the payload.  A text with prefix and one without
spell the same bytes under one signature and have different keys.
-/

namespace Prsm.PaymentAuth

open Foundations Evm Settlement

/-- What the signer signed, with the signature. -/
def signedAuthorization (signing : SigningLibrary PaymentMessage) (payload : AuthPayload)
    (signature : HexField) : Option (PaymentMessage × Bytes) := do
  let message ← buildPaymentTypedData signing payload
  let sigBytes ← signatureBytes signature
  some (message, sigBytes)

/-! ## Runs of the verifiers -/

/-- The authorization that a call carries. -/
def PaymentCall.authorization (v : PaymentVerifier) (call : PaymentCall) :
    Option (PaymentMessage × Bytes) :=
  signedAuthorization v.payment call.payload call.signature

/-- The nonce store of a `PaymentAuthorizationVerifier` and the calls that were
accepted. -/
structure PaymentState where
  nonces : NonceStore
  accepted : List PaymentCall

inductive PaymentInput
  | verify (call : PaymentCall)
  | restart

/-- The verifier with its store.  A refused call leaves the store alone. -/
def paymentMachine (v : PaymentVerifier) : Machine PaymentState PaymentInput where
  step s
    | .verify call =>
        match verifyPayment v s.nonces call with
        | (nonces, .ok _) => some ⟨nonces, s.accepted ++ [call]⟩
        | (nonces, .error .nonceStore) => some { s with nonces := nonces }
        | (_, .error _) => none
    | .restart => some { s with nonces := s.nonces.restart }

/-- A request whose write persists spells the nonce of its authorization as the
accepted requests with that authorization did, up to case. -/
def PaymentState.SpelledAlike (v : PaymentVerifier) (s : PaymentState) : PaymentInput → Prop
  | .verify call =>
      call.saved = true → ∀ earlier ∈ s.accepted,
        earlier.authorization v = call.authorization v →
          earlier.payload.nonceKey v.lower = call.payload.nonceKey v.lower
  | .restart => True

/-- The authorization that a relayed call carries. -/
def RelayerCall.authorization (v : PaymentVerifier) (call : RelayerCall) :
    Option (PaymentMessage × Bytes) :=
  signedAuthorization v.payment call.auth call.authSignature

structure RelayerState where
  stores : RelayerStores
  accepted : List RelayerCall

inductive RelayerInput
  | verify (call : RelayerCall)
  | release (delegationNonce : String) (amountWei : Int) (saved : Bool)
  | restart

/-- The relayer verifier with its stores. -/
def relayerMachine (v : PaymentVerifier) : Machine RelayerState RelayerInput where
  step s
    | .verify call =>
        match verifyRelayed v s.stores call with
        | (stores, .ok _) => some ⟨stores, s.accepted ++ [call]⟩
        | (stores, .error .nonceStore) | (stores, .error .budgetStore) =>
            some { s with stores := stores }
        | (_, .error _) => none
    | .release delegationNonce amountWei saved =>
        some { s with stores :=
          { s.stores with
            budget := s.stores.budget.release v.lower delegationNonce amountWei saved } }
    | .restart =>
        some { s with stores := ⟨s.stores.nonces.restart, s.stores.budget.restart v.lower⟩ }

/-- `PaymentState.SpelledAlike` for a relayed request, which writes to two
stores. -/
def RelayerState.SpelledAlike (v : PaymentVerifier) (s : RelayerState) : RelayerInput → Prop
  | .verify call =>
      call.budgetSaved = true ∧ call.nonceSaved = true → ∀ earlier ∈ s.accepted,
        earlier.authorization v = call.authorization v →
          earlier.auth.nonceKey v.lower = call.auth.nonceKey v.lower
  | _ => True

section Moves

open SeenKeys

theorem paymentMachine_move {v : PaymentVerifier} {s s' : PaymentState} {i : PaymentInput}
    (h : (paymentMachine v).step s i = some s') :
    ∃ accepted, Move (fun call : PaymentCall => call.payload.nonceKey v.lower) s.nonces s.accepted
        accepted s'.nonces s'.accepted ∧
      (s.SpelledAlike v i ↔ ∀ call ∈ accepted, ∀ earlier ∈ s.accepted,
        earlier.authorization v = call.authorization v →
          earlier.payload.nonceKey v.lower = call.payload.nonceKey v.lower) := by
  cases i with
  | restart =>
      cases h
      exact ⟨none, .restart, iff_of_true trivial (by simp)⟩
  | verify call =>
      simp only [paymentMachine] at h
      rcases verifyPayment_cases v s.nonces call with
        ⟨failure, hRefusal, hVerify⟩ | ⟨recovered, -, hUnseen, hVerify⟩
      · rw [hVerify] at h
        cases failure <;> first | exact False.elim hRefusal | cases h
      · rw [hVerify] at h
        cases hSaved : call.saved with
        | false =>
            rw [hSaved] at h
            cases h
            refine ⟨none, .burn _ false, iff_of_true ?_ (by simp)⟩
            exact fun hPersists => by cases hSaved.symm.trans hPersists
        | true =>
            rw [hSaved] at h
            cases h
            refine ⟨some call, .accept call hUnseen, ?_⟩
            simp [PaymentState.SpelledAlike, hSaved]

theorem relayerMachine_move {v : PaymentVerifier} {s s' : RelayerState} {i : RelayerInput}
    (h : (relayerMachine v).step s i = some s') :
    ∃ accepted, Move (fun call : RelayerCall => call.auth.nonceKey v.lower) s.stores.nonces
        s.accepted accepted s'.stores.nonces s'.accepted ∧
      (s.SpelledAlike v i ↔ ∀ call ∈ accepted, ∀ earlier ∈ s.accepted,
        earlier.authorization v = call.authorization v →
          earlier.auth.nonceKey v.lower = call.auth.nonceKey v.lower) := by
  cases i with
  | restart =>
      cases h
      exact ⟨none, .restart, iff_of_true trivial (by simp)⟩
  | release delegationNonce amountWei saved =>
      cases h
      exact ⟨none, .same, iff_of_true trivial (by simp)⟩
  | verify call =>
      simp only [relayerMachine] at h
      rcases verifyRelayed_cases v s.stores call with
        ⟨failure, hRefusal, hVerify⟩ | ⟨funder, -, hUnseen, hVerify⟩
      · rw [hVerify] at h
        cases failure <;> first | exact False.elim hRefusal | cases h
      · rw [hVerify] at h
        rcases verifyFromBalance_cases v s.stores call funder with
          ⟨failure, hRefusal, hBalance⟩ | ⟨cap, amount, -, -, -, -, hBalance⟩
        · rw [hBalance] at h
          cases failure <;> first | exact False.elim hRefusal | cases h
        · rw [hBalance] at h
          cases hBudget : call.budgetSaved with
          | false =>
              rw [hBudget] at h
              cases h
              refine ⟨none, .same, iff_of_true ?_ (by simp)⟩
              exact fun hPersists => by cases hBudget.symm.trans hPersists.1
          | true =>
              rw [hBudget] at h
              cases hNonce : call.nonceSaved with
              | false =>
                  rw [hNonce] at h
                  cases h
                  refine ⟨none, .burn _ false, iff_of_true ?_ (by simp)⟩
                  exact fun hPersists => by cases hNonce.symm.trans hPersists.2
              | true =>
                  rw [hNonce] at h
                  cases h
                  refine ⟨some call, .accept call hUnseen, ?_⟩
                  simp [RelayerState.SpelledAlike, hBudget, hNonce]

end Moves

/-- In every run of either verifier, from whatever nonces are stored at its
start, no signed authorization is accepted twice exactly when the requests that
persist spell the nonces of accepted authorizations alike, up to case. -/
theorem single_use_iff (v : PaymentVerifier) :
    (∀ (nonces : NonceStore) (is : List PaymentInput),
      (paymentMachine v).EveryState
          (fun s => (s.accepted.map (PaymentCall.authorization v)).Nodup) ⟨nonces, []⟩ is ↔
        (paymentMachine v).EveryStep (PaymentState.SpelledAlike v) ⟨nonces, []⟩ is) ∧
    ∀ (stores : RelayerStores) (is : List RelayerInput),
      (relayerMachine v).EveryState
          (fun s => (s.accepted.map (RelayerCall.authorization v)).Nodup) ⟨stores, []⟩ is ↔
        (relayerMachine v).EveryStep (RelayerState.SpelledAlike v) ⟨stores, []⟩ is := by
  constructor
  · intro nonces is
    exact SeenKeys.everyState_nodup_iff (paymentMachine v) PaymentState.nonces
      PaymentState.accepted (fun call => call.payload.nonceKey v.lower)
      (PaymentCall.authorization v) (PaymentState.SpelledAlike v)
      (fun s i s' => paymentMachine_move) rfl is
  · intro stores is
    exact SeenKeys.everyState_nodup_iff (relayerMachine v) (fun s => s.stores.nonces)
      RelayerState.accepted (fun call => call.auth.nonceKey v.lower)
      (RelayerCall.authorization v) (RelayerState.SpelledAlike v)
      (fun s i s' => relayerMachine_move) rfl is

/-! ## A nonce without its prefix -/

def secondNode : PaymentVerifier where
  lower := asciiLower
  payment :=
    { encodeAddress := parseHexAddress
      recover := fun _ _ _ => some "0x7E5F4552091A69125d5DfCb7b8C2659029395Bdf" }
  delegation :=
    { encodeAddress := parseHexAddress
      recover := fun _ _ _ => some "0x7E5F4552091A69125d5DfCb7b8C2659029395Bdf" }
  chainId := 8453
  provider := "0x2B5AD5c4795c026514f8317c7a215E218DcCD6cF"
  readsBalance := false

/-- A request for 500 under an authorization of 1000, with the job nonce as
given. -/
def requestWithNonce (jobNonce : String) : PaymentCall where
  payload :=
    { requester := .text "0x7E5F4552091A69125d5DfCb7b8C2659029395Bdf"
      provider := .text "0x2B5AD5c4795c026514f8317c7a215E218DcCD6cF"
      maxSpendWei := some 1000
      jobNonce := .text jobNonce
      expiryUnix := some 2000
      requestHash :=
        .text "0x2222222222222222222222222222222222222222222222222222222222222222" }
  signature := .bytes
    (abiWord 0x5cbdf0646e5db4eaa398f365f2ea7a0e3d419b7e0330e39ce92bddedcac4f9bc ++
      abiWord 0x376af4719a4f1de018cbecf5bcb4e958980553046ff2239d0629e215e8896b7b ++ [27])
  requestHash := .text "0x2222222222222222222222222222222222222222222222222222222222222222"
  quotedPriceWei := 500
  now := 1000
  balance := none
  saved := true

def bothSpellings : List PaymentInput :=
  [.verify (requestWithNonce
      "0x1111111111111111111111111111111111111111111111111111111111111111"),
    .verify (requestWithNonce
      "1111111111111111111111111111111111111111111111111111111111111111")]

theorem single_use_violated_bothSpellings :
    ¬ ∀ (v : PaymentVerifier) (nonces : NonceStore) (is : List PaymentInput),
      (paymentMachine v).EveryState
        (fun s => (s.accepted.map (PaymentCall.authorization v)).Nodup) ⟨nonces, []⟩ is := by
  intro hClaim
  have hNodup := (hClaim secondNode .empty bothSpellings).last
  revert hNodup
  decide +kernel

end Prsm.PaymentAuth
