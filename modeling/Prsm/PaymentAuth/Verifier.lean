import Prsm.Foundations.Dict
import Prsm.Foundations.SeenKeys
import Prsm.PaymentAuth.Spelling

/-!
# The payment verifiers

A provider runs one of two checks before it serves a paid request.
`PaymentAuthorizationVerifier` takes an authorization that the requester signed.
`RelayerAuthorizationVerifier` takes one that a relayer signed, together with the
funder's delegation to the relayer.

Both end with the stateful guards: a job nonce must be unseen, the escrow
balance must cover the price, and a relayed request must fit the budget of its
delegation.  The relayer verifier is cut in two where it awaits the balance.
-/

namespace Prsm.PaymentAuth

open Foundations Evm Settlement

/-- `_to_bytes32` of a field. -/
def StrField.bytes32 (field : StrField) : Option Bytes := field.text?.bind bytes32Of

theorem bytes32Of_shown {field : StrField} {raw : Bytes} (h : field.bytes32 = some raw) :
    bytes32Of field.shown = some raw := by
  cases field with
  | missing => cases h
  | text s => exact h
  | other s => cases h

/-! ## The payloads and the messages they stand for -/

structure AuthPayload where
  requester : StrField
  provider : StrField
  maxSpendWei : Option Int
  jobNonce : StrField
  expiryUnix : Option Int
  requestHash : StrField

/-- The `PaymentAuthorization` that is signed. -/
structure PaymentMessage where
  requester : Address
  provider : Address
  maxSpendWei : Uint 256
  jobNonce : Bytes
  expiryUnix : Uint 256
  requestHash : Bytes
  deriving DecidableEq

/-- `_build_typed_data` of a payment authorization. -/
def buildPaymentTypedData (signing : SigningLibrary PaymentMessage) (payload : AuthPayload) :
    Option PaymentMessage := do
  let requester ← payload.requester.text?.bind signing.encodeAddress
  let provider ← payload.provider.text?.bind signing.encodeAddress
  let maxSpendWei ← payload.maxSpendWei.bind (checkUint 256)
  let jobNonce ← payload.jobNonce.bytes32
  let expiryUnix ← payload.expiryUnix.bind (checkUint 256)
  let requestHash ← payload.requestHash.bytes32
  some
    { requester := requester
      provider := provider
      maxSpendWei := maxSpendWei
      jobNonce := jobNonce
      expiryUnix := expiryUnix
      requestHash := requestHash }

structure DelegationPayload where
  requester : StrField
  relayer : StrField
  provider : StrField
  maxTotalSpendWei : Option Int
  delegationNonce : StrField
  expiryUnix : Option Int

/-- The `PaymentDelegation` that is signed. -/
structure DelegationMessage where
  requester : Address
  relayer : Address
  provider : Address
  maxTotalSpendWei : Uint 256
  delegationNonce : Bytes
  expiryUnix : Uint 256
  deriving DecidableEq

/-- `_build_typed_data` of a payment delegation. -/
def buildDelegationTypedData (signing : SigningLibrary DelegationMessage)
    (payload : DelegationPayload) : Option DelegationMessage := do
  let requester ← payload.requester.text?.bind signing.encodeAddress
  let relayer ← payload.relayer.text?.bind signing.encodeAddress
  let provider ← payload.provider.text?.bind signing.encodeAddress
  let maxTotalSpendWei ← payload.maxTotalSpendWei.bind (checkUint 256)
  let delegationNonce ← payload.delegationNonce.bytes32
  let expiryUnix ← payload.expiryUnix.bind (checkUint 256)
  some
    { requester := requester
      relayer := relayer
      provider := provider
      maxTotalSpendWei := maxTotalSpendWei
      delegationNonce := delegationNonce
      expiryUnix := expiryUnix }

theorem fields_of_buildDelegationTypedData {signing : SigningLibrary DelegationMessage}
    {payload : DelegationPayload} {message : DelegationMessage}
    (h : buildDelegationTypedData signing payload = some message) :
    payload.maxTotalSpendWei.bind (checkUint 256) = some message.maxTotalSpendWei ∧
      payload.delegationNonce.bytes32 = some message.delegationNonce := by
  obtain ⟨_, -, h⟩ := Option.bind_eq_some_iff.mp h
  obtain ⟨_, -, h⟩ := Option.bind_eq_some_iff.mp h
  obtain ⟨_, -, h⟩ := Option.bind_eq_some_iff.mp h
  obtain ⟨_, hMaxTotal, h⟩ := Option.bind_eq_some_iff.mp h
  obtain ⟨_, hNonce, h⟩ := Option.bind_eq_some_iff.mp h
  obtain ⟨_, -, h⟩ := Option.bind_eq_some_iff.mp h
  cases h
  exact ⟨hMaxTotal, hNonce⟩

/-! ## Failures -/

inductive DelegatedAuthError
  | missingRequesterOrRelayer
  | missingProvider
  | delegationSignatureMalformed
  | delegationNotSignedByFunder (signer funder : String)
  | authorizationSignatureMalformed
  | authorizationNotSignedByRelayer (signer relayer : String)
  | requesterMismatch (authRequester funder : String)
  | providerMismatch (authProvider delegProvider : String)
  | delegationExpired
  | authorizationExpired
  | exceedsTotalSpend
  deriving DecidableEq

/-- The reason of an `AuthorizationRejected`. -/
inductive Reason
  | badSignature
  | signerMismatch (recovered requester : String)
  | providerMismatch (provider : String)
  | requestHashMismatch
  | expired (expiryUnix : Int)
  | exceedsMaxSpend (price maxSpend : Int)
  | nonceReplayed (nonce : String)
  | insufficientEscrowBalance (balance price : Int)
  | delegatedAuth (error : DelegatedAuthError)
  | delegationBudgetExceeded (amount cap consumed : Int)
  deriving DecidableEq

/-- How a verification fails. -/
inductive Failure
  | rejected (reason : Reason)
  /-- The typed data cannot be built. -/
  | invalidPayload
  /-- The balance reader raises. -/
  | balanceReader
  /-- A store raises because it cannot be persisted. -/
  | budgetStore
  | nonceStore
  deriving DecidableEq

/-- An integer field that is read back from the payload. -/
def readInt : Option Int → Except Failure Int
  | some value => .ok value
  | none => .error .invalidPayload

/-- `int(x)` of a clock reading. -/
def truncate (x : ℚ) : Int := if 0 ≤ x then ⌊x⌋ else ⌈x⌉

/-! ## The checks that both verifiers make -/

/-- The libraries and settings of a verifier. -/
structure PaymentVerifier where
  /-- `str.lower`. -/
  lower : String → String
  payment : SigningLibrary PaymentMessage
  delegation : SigningLibrary DelegationMessage
  chainId : Int
  provider : String
  /-- Whether a balance reader is wired. -/
  readsBalance : Bool

/-- The request-hash binding. -/
def checkRequestHash (field : StrField) (requestHash : HexField) : Except Failure Unit :=
  match field.bytes32, toBytes32 requestHash with
  | some authHash, some wantHash =>
      require (authHash = wantHash) (.rejected .requestHashMismatch)
  | _, _ => .error (.rejected .requestHashMismatch)

/-- The escrow pre-flight, with what the reader answers. -/
def checkBalance (readsBalance : Bool) (balance : Option Int) (price : Int) :
    Except Failure Unit :=
  if readsBalance then
    match balance with
    | none => .error .balanceReader
    | some balance => require (price ≤ balance) (.rejected (.insufficientEscrowBalance balance price))
  else .ok ()

/-- The seen job nonces, lower-cased.  `InMemoryNonceStore` is the part in
memory. -/
abbrev NonceStore := SeenKeys String

/-- `_key` of the nonce stores, for the job nonce of a payload. -/
def AuthPayload.nonceKey (lower : String → String) (payload : AuthPayload) : String :=
  lower payload.jobNonce.shown

/-! ## The self-signed authorization -/

/-- A call of `PaymentAuthorizationVerifier.verify`, with the clock, the balance
and the fate of the write that it meets. -/
structure PaymentCall where
  payload : AuthPayload
  signature : HexField
  requestHash : HexField
  quotedPriceWei : Int
  now : ℚ
  balance : Option Int
  saved : Bool

/-- Steps 1 to 6 of `_verify_locked`, which read no state. -/
def checkPayment (v : PaymentVerifier) (call : PaymentCall) : Except Failure String := do
  let recovered ← raise recoveryFailure (recoverSigner v.payment v.chainId
    (buildPaymentTypedData v.payment call.payload) call.signature)
  require (v.lower recovered = v.lower call.payload.requester.shown)
    (.rejected (.signerMismatch recovered call.payload.requester.shown))
  require (v.lower call.payload.provider.shown = v.lower v.provider)
    (.rejected (.providerMismatch call.payload.provider.shown))
  checkRequestHash call.payload.requestHash call.requestHash
  let expiryUnix ← readInt call.payload.expiryUnix
  require (truncate call.now ≤ expiryUnix) (.rejected (.expired expiryUnix))
  let maxSpendWei ← readInt call.payload.maxSpendWei
  require (call.quotedPriceWei ≤ maxSpendWei)
    (.rejected (.exceedsMaxSpend call.quotedPriceWei maxSpendWei))
  .ok recovered
where
  /-- `except InvalidSignatureFormat`. -/
  recoveryFailure : RecoverError → Failure
    | .invalidSignatureFormat => .rejected .badSignature
    | .invalidPayload => .invalidPayload

/-- `PaymentAuthorizationVerifier._verify_locked`. -/
def verifyPayment (v : PaymentVerifier) (nonces : NonceStore) (call : PaymentCall) :
    NonceStore × Except Failure String :=
  match checkPayment v call with
  | .error failure => (nonces, .error failure)
  | .ok recovered =>
      if call.payload.nonceKey v.lower ∈ nonces.seen then
        (nonces, .error (.rejected (.nonceReplayed call.payload.jobNonce.shown)))
      else
        match checkBalance v.readsBalance call.balance call.quotedPriceWei with
        | .error failure => (nonces, .error failure)
        | .ok () =>
            (nonces.remember (call.payload.nonceKey v.lower) call.saved,
              if call.saved then .ok recovered else .error .nonceStore)

/-! ## The budget of a delegation -/

/-- What a budget map has consumed under a key. -/
def amountAt (d : Dict String Int) (key : String) : Int := (d.get? key).getD 0

theorem amountAt_set (d : Dict String Int) (key key' : String) (total : Int) :
    amountAt (d.set key total) key' = if key' = key then total else amountAt d key' := by
  rw [amountAt, Dict.get?_set]
  split <;> rfl

/-- `DurableDelegationBudgetStore`: what is consumed under each key, in memory
and on disk. -/
structure BudgetStore where
  consumed : Dict String Int
  disk : Dict String Int

namespace BudgetStore

/-- `consumed`. -/
def consumedUnder (lower : String → String) (store : BudgetStore) (nonce : String) : Int :=
  amountAt store.consumed (budgetKey lower nonce)

/-- `self._consumed[k] = total` and `_persist`. -/
def record (store : BudgetStore) (key : String) (total : Int) (saved : Bool) : BudgetStore where
  consumed := store.consumed.set key total
  disk := if saved then store.consumed.set key total else store.disk

/-- `reserve`, which returns `none` when `_persist` raises. -/
def reserve (lower : String → String) (store : BudgetStore) (nonce : String) (amount cap : Int)
    (saved : Bool) : BudgetStore × Option Bool :=
  if amount < 0 then (store, some false)
  else if cap < store.consumedUnder lower nonce + amount then (store, some false)
  else
    (store.record (budgetKey lower nonce) (store.consumedUnder lower nonce + amount) saved,
      if saved then some true else none)

/-- `release`.  The verifier's wrappers swallow what `_persist` raises. -/
def release (lower : String → String) (store : BudgetStore) (nonce : String) (amount : Int)
    (saved : Bool) : BudgetStore :=
  if amount ≤ 0 then store
  else store.record (budgetKey lower nonce) (max 0 (store.consumedUnder lower nonce - amount)) saved

/-- A new store over the same file re-keys what it loads. -/
def restart (lower : String → String) (store : BudgetStore) : BudgetStore :=
  { store with
    consumed := Dict.ofEntries (store.disk.entries.map fun e => (budgetKey lower e.1, e.2)) }

end BudgetStore

/-! ## The relayed authorization -/

/-- A call of `RelayerAuthorizationVerifier.verify`.  The clock is read once for
each of the two expiries. -/
structure RelayerCall where
  auth : AuthPayload
  authSignature : HexField
  delegation : DelegationPayload
  delegationSignature : HexField
  requestHash : HexField
  quotedPriceWei : Int
  delegationNow : ℚ
  now : ℚ
  balance : Option Int
  budgetSaved : Bool
  nonceSaved : Bool

/-- The signer of the delegation of a call. -/
def recoverDelegationSigner (v : PaymentVerifier) (call : RelayerCall) :
    Except RecoverError String :=
  recoverSigner v.delegation v.chainId (buildDelegationTypedData v.delegation call.delegation)
    call.delegationSignature

/-- The signer of the authorization of a call. -/
def recoverAuthSigner (v : PaymentVerifier) (call : RelayerCall) : Except RecoverError String :=
  recoverSigner v.payment v.chainId (buildPaymentTypedData v.payment call.auth) call.authSignature

/-- A failed recovery inside the delegated-auth chain. -/
def chainFailure (malformed : DelegatedAuthError) : RecoverError → Failure
  | .invalidSignatureFormat => .rejected (.delegatedAuth malformed)
  | .invalidPayload => .invalidPayload

def verifyDelegatedAuthorization (v : PaymentVerifier) (call : RelayerCall) :
    Except Failure String := do
  let funder := call.delegation.requester.shown
  let relayer := call.delegation.relayer.shown
  let delegProvider := call.delegation.provider.shown
  require (funder ≠ "" ∧ relayer ≠ "") (refused .missingRequesterOrRelayer)
  require (delegProvider ≠ "") (refused .missingProvider)
  let delegSigner ← raise (chainFailure .delegationSignatureMalformed)
    (recoverDelegationSigner v call)
  require (v.lower delegSigner = v.lower funder)
    (refused (.delegationNotSignedByFunder delegSigner funder))
  let authSigner ← raise (chainFailure .authorizationSignatureMalformed)
    (recoverAuthSigner v call)
  require (v.lower authSigner = v.lower relayer)
    (refused (.authorizationNotSignedByRelayer authSigner relayer))
  require (v.lower call.auth.requester.shown = v.lower funder)
    (refused (.requesterMismatch call.auth.requester.shown funder))
  require (v.lower call.auth.provider.shown = v.lower delegProvider)
    (refused (.providerMismatch call.auth.provider.shown delegProvider))
  -- `is_delegation_expired` compares with the clock itself, `is_expired` with `int` of it
  let delegExpiry ← readInt call.delegation.expiryUnix
  require (call.delegationNow ≤ delegExpiry) (refused .delegationExpired)
  let authExpiry ← readInt call.auth.expiryUnix
  require (truncate call.now ≤ authExpiry) (refused .authorizationExpired)
  let maxSpendWei ← readInt call.auth.maxSpendWei
  let maxTotalSpendWei ← readInt call.delegation.maxTotalSpendWei
  require (maxSpendWei ≤ maxTotalSpendWei) (refused .exceedsTotalSpend)
  .ok funder
where
  refused (error : DelegatedAuthError) : Failure := .rejected (.delegatedAuth error)

/-- Steps 1 to 4 of `_verify_locked`, which read no state. -/
def checkRelayed (v : PaymentVerifier) (call : RelayerCall) : Except Failure String := do
  let funder ← verifyDelegatedAuthorization v call
  require (v.lower call.auth.provider.shown = v.lower v.provider)
    (.rejected (.providerMismatch call.auth.provider.shown))
  checkRequestHash call.auth.requestHash call.requestHash
  let maxSpendWei ← readInt call.auth.maxSpendWei
  require (call.quotedPriceWei ≤ maxSpendWei)
    (.rejected (.exceedsMaxSpend call.quotedPriceWei maxSpendWei))
  .ok funder

/-- The two stores of the relayer verifier. -/
structure RelayerStores where
  nonces : NonceStore
  budget : BudgetStore

/-- Stores over files that do not exist yet. -/
def RelayerStores.fresh : RelayerStores := ⟨.empty, ⟨∅, ∅⟩⟩

/-- `_verify_locked` up to the balance read. -/
def verifyUntilBalance (v : PaymentVerifier) (nonces : NonceStore) (call : RelayerCall) :
    Except Failure String := do
  let funder ← checkRelayed v call
  require (call.auth.nonceKey v.lower ∉ nonces.seen)
    (.rejected (.nonceReplayed call.auth.jobNonce.shown))
  .ok funder

/-- `_verify_locked` from the balance read on. -/
def verifyFromBalance (v : PaymentVerifier) (stores : RelayerStores) (call : RelayerCall)
    (funder : String) : RelayerStores × Except Failure String :=
  match checkBalance v.readsBalance call.balance call.quotedPriceWei with
  | .error failure => (stores, .error failure)
  | .ok () =>
      match call.delegation.maxTotalSpendWei, call.auth.maxSpendWei with
      | some cap, some amount =>
          let dnonce := call.delegation.delegationNonce.shown
          match stores.budget.reserve v.lower dnonce amount cap call.budgetSaved with
          | (budget, none) => ({ stores with budget := budget }, .error .budgetStore)
          | (budget, some false) =>
              ({ stores with budget := budget }, .error (.rejected
                (.delegationBudgetExceeded amount cap (budget.consumedUnder v.lower dnonce))))
          | (budget, some true) =>
              (⟨stores.nonces.remember (call.auth.nonceKey v.lower) call.nonceSaved, budget⟩,
                if call.nonceSaved then .ok funder else .error .nonceStore)
      | _, _ => (stores, .error .invalidPayload)

/-- `RelayerAuthorizationVerifier._verify_locked`. -/
def verifyRelayed (v : PaymentVerifier) (stores : RelayerStores) (call : RelayerCall) :
    RelayerStores × Except Failure String :=
  match verifyUntilBalance v stores.nonces call with
  | .error failure => (stores, .error failure)
  | .ok funder => verifyFromBalance v stores call funder

/-! ## Failures that leave the stores alone -/

/-- Any failure but that of a store. -/
def Failure.IsRefusal : Failure → Prop
  | .budgetStore | .nonceStore => False
  | _ => True

/-- A check that fails, if it does, with a refusal. -/
def Refuses {α : Type} (x : Except Failure α) : Prop :=
  ∀ failure, x = .error failure → failure.IsRefusal

section Refusals

variable {α β : Type}

theorem refuses_ok (a : α) : Refuses (.ok a) := nofun

theorem refuses_bind {x : Except Failure α} {f : α → Except Failure β} (hx : Refuses x)
    (hf : ∀ a, Refuses (f a)) : Refuses (x >>= f) := by
  intro failure h
  rcases bind_eq_error_iff.mp h with h | ⟨a, -, h⟩
  · exact hx failure h
  · exact hf a failure h

theorem refuses_require {p : Prop} [Decidable p] {failure : Failure} (h : failure.IsRefusal) :
    Refuses (require p failure) := by
  rintro _ hFailed
  rw [← (require_eq_error_iff.mp hFailed).2]
  exact h

theorem refuses_raise {lift : RecoverError → Failure} (h : ∀ e, (lift e).IsRefusal)
    (x : Except RecoverError α) : Refuses (raise lift x) := by
  intro failure hFailed
  obtain ⟨e, -, rfl⟩ := raise_eq_error_iff.mp hFailed
  exact h e

theorem refuses_readInt (field : Option Int) : Refuses (readInt field) := by
  rintro failure h
  cases field <;> cases h
  trivial

theorem refuses_checkRequestHash (field : StrField) (requestHash : HexField) :
    Refuses (checkRequestHash field requestHash) := by
  unfold checkRequestHash
  split
  · exact refuses_require trivial
  · rintro failure h
    cases h
    trivial

theorem refuses_checkBalance (readsBalance : Bool) (balance : Option Int) (price : Int) :
    Refuses (checkBalance readsBalance balance price) := by
  unfold checkBalance
  split
  · split
    · rintro failure h
      cases h
      trivial
    · exact refuses_require trivial
  · exact refuses_ok ()

theorem refuses_checkPayment (v : PaymentVerifier) (call : PaymentCall) :
    Refuses (checkPayment v call) := by
  refine refuses_bind (refuses_raise ?_ _) fun recovered => ?_
  · rintro (_ | _) <;> trivial
  refine refuses_bind (refuses_require trivial) fun _ => ?_
  refine refuses_bind (refuses_require trivial) fun _ => ?_
  refine refuses_bind (refuses_checkRequestHash _ _) fun _ => ?_
  refine refuses_bind (refuses_readInt _) fun expiryUnix => ?_
  refine refuses_bind (refuses_require trivial) fun _ => ?_
  refine refuses_bind (refuses_readInt _) fun maxSpendWei => ?_
  exact refuses_bind (refuses_require trivial) fun _ => refuses_ok recovered

theorem refuses_verifyDelegatedAuthorization (v : PaymentVerifier) (call : RelayerCall) :
    Refuses (verifyDelegatedAuthorization v call) := by
  have hChain : ∀ malformed e, (chainFailure malformed e).IsRefusal := by
    rintro malformed (_ | _) <;> trivial
  refine refuses_bind (refuses_require trivial) fun _ => ?_
  refine refuses_bind (refuses_require trivial) fun _ => ?_
  refine refuses_bind (refuses_raise (hChain _) _) fun delegSigner => ?_
  refine refuses_bind (refuses_require trivial) fun _ => ?_
  refine refuses_bind (refuses_raise (hChain _) _) fun authSigner => ?_
  refine refuses_bind (refuses_require trivial) fun _ => ?_
  refine refuses_bind (refuses_require trivial) fun _ => ?_
  refine refuses_bind (refuses_require trivial) fun _ => ?_
  refine refuses_bind (refuses_readInt _) fun delegExpiry => ?_
  refine refuses_bind (refuses_require trivial) fun _ => ?_
  refine refuses_bind (refuses_readInt _) fun authExpiry => ?_
  refine refuses_bind (refuses_require trivial) fun _ => ?_
  refine refuses_bind (refuses_readInt _) fun maxSpendWei => ?_
  refine refuses_bind (refuses_readInt _) fun maxTotalSpendWei => ?_
  exact refuses_bind (refuses_require trivial) fun _ => refuses_ok _

theorem refuses_verifyUntilBalance (v : PaymentVerifier) (nonces : NonceStore)
    (call : RelayerCall) : Refuses (verifyUntilBalance v nonces call) := by
  refine refuses_bind ?_ fun funder => ?_
  · refine refuses_bind (refuses_verifyDelegatedAuthorization v call) fun funder => ?_
    refine refuses_bind (refuses_require trivial) fun _ => ?_
    refine refuses_bind (refuses_checkRequestHash _ _) fun _ => ?_
    refine refuses_bind (refuses_readInt _) fun maxSpendWei => ?_
    exact refuses_bind (refuses_require trivial) fun _ => refuses_ok funder
  · exact refuses_bind (refuses_require trivial) fun _ => refuses_ok funder

end Refusals

/-! ## What a verification does to the stores -/

theorem verifyPayment_cases (v : PaymentVerifier) (nonces : NonceStore) (call : PaymentCall) :
    (∃ failure, failure.IsRefusal ∧ verifyPayment v nonces call = (nonces, .error failure)) ∨
      ∃ recovered, checkPayment v call = .ok recovered ∧
        call.payload.nonceKey v.lower ∉ nonces.seen ∧
        verifyPayment v nonces call =
          (nonces.remember (call.payload.nonceKey v.lower) call.saved,
            if call.saved then .ok recovered else .error .nonceStore) := by
  unfold verifyPayment
  cases hCheck : checkPayment v call with
  | error failure => exact .inl ⟨failure, refuses_checkPayment v call failure hCheck, rfl⟩
  | ok recovered =>
      by_cases hSeen : call.payload.nonceKey v.lower ∈ nonces.seen
      · exact .inl ⟨.rejected _, trivial, if_pos hSeen⟩
      · simp only [if_neg hSeen]
        cases hBalance : checkBalance v.readsBalance call.balance call.quotedPriceWei with
        | error failure =>
            exact .inl ⟨failure, refuses_checkBalance _ _ _ failure hBalance, rfl⟩
        | ok => exact .inr ⟨recovered, rfl, hSeen, rfl⟩

theorem BudgetStore.reserve_cases (lower : String → String) (store : BudgetStore) (nonce : String)
    (amount cap : Int) (saved : Bool) :
    store.reserve lower nonce amount cap saved = (store, some false) ∨
      0 ≤ amount ∧ store.consumedUnder lower nonce + amount ≤ cap ∧
        store.reserve lower nonce amount cap saved =
          (store.record (budgetKey lower nonce) (store.consumedUnder lower nonce + amount) saved,
            if saved then some true else none) := by
  unfold reserve
  split
  · exact .inl rfl
  case isFalse hAmount =>
    split
    · exact .inl rfl
    case isFalse hCap => exact .inr ⟨Int.not_lt.mp hAmount, Int.not_lt.mp hCap, rfl⟩

/-- The budget of a call after it reserved. -/
def RelayerCall.reserved (v : PaymentVerifier) (call : RelayerCall) (budget : BudgetStore)
    (amount : Int) : BudgetStore :=
  let dnonce := call.delegation.delegationNonce.shown
  budget.record (budgetKey v.lower dnonce) (budget.consumedUnder v.lower dnonce + amount)
    call.budgetSaved

theorem verifyFromBalance_cases (v : PaymentVerifier) (stores : RelayerStores) (call : RelayerCall)
    (funder : String) :
    (∃ failure, failure.IsRefusal ∧
        verifyFromBalance v stores call funder = (stores, .error failure)) ∨
      ∃ cap amount, call.delegation.maxTotalSpendWei = some cap ∧
        call.auth.maxSpendWei = some amount ∧ 0 ≤ amount ∧
        stores.budget.consumedUnder v.lower call.delegation.delegationNonce.shown + amount ≤ cap ∧
        verifyFromBalance v stores call funder =
          if call.budgetSaved then
            (⟨stores.nonces.remember (call.auth.nonceKey v.lower) call.nonceSaved,
                call.reserved v stores.budget amount⟩,
              if call.nonceSaved then .ok funder else .error .nonceStore)
          else ({ stores with budget := call.reserved v stores.budget amount },
            .error .budgetStore) := by
  unfold verifyFromBalance
  cases hBalance : checkBalance v.readsBalance call.balance call.quotedPriceWei with
  | error failure => exact .inl ⟨failure, refuses_checkBalance _ _ _ failure hBalance, rfl⟩
  | ok =>
      cases hCap : call.delegation.maxTotalSpendWei with
      | none => exact .inl ⟨.invalidPayload, trivial, rfl⟩
      | some cap =>
          cases hAmount : call.auth.maxSpendWei with
          | none => exact .inl ⟨.invalidPayload, trivial, rfl⟩
          | some amount =>
              rcases stores.budget.reserve_cases v.lower call.delegation.delegationNonce.shown
                amount cap call.budgetSaved with hFalse | ⟨hNonneg, hFits, hReserve⟩
              · refine .inl ⟨.rejected (.delegationBudgetExceeded amount cap
                  (stores.budget.consumedUnder v.lower call.delegation.delegationNonce.shown)),
                  trivial, ?_⟩
                simp only [hFalse]
              · refine .inr ⟨cap, amount, rfl, rfl, hNonneg, hFits, ?_⟩
                simp only [hReserve, RelayerCall.reserved]
                cases call.budgetSaved <;> rfl

theorem verifyUntilBalance_eq_ok {v : PaymentVerifier} {nonces : NonceStore} {call : RelayerCall}
    {funder : String} (h : verifyUntilBalance v nonces call = .ok funder) :
    checkRelayed v call = .ok funder ∧ call.auth.nonceKey v.lower ∉ nonces.seen := by
  obtain ⟨_, hChecked, hRest⟩ := bind_eq_ok_iff.mp h
  obtain ⟨_, hUnseen, hFunder⟩ := bind_eq_ok_iff.mp hRest
  cases hFunder
  exact ⟨hChecked, require_eq_ok_iff.mp hUnseen⟩

theorem verifyRelayed_cases (v : PaymentVerifier) (stores : RelayerStores) (call : RelayerCall) :
    (∃ failure, failure.IsRefusal ∧ verifyRelayed v stores call = (stores, .error failure)) ∨
      ∃ funder, checkRelayed v call = .ok funder ∧
        call.auth.nonceKey v.lower ∉ stores.nonces.seen ∧
        verifyRelayed v stores call = verifyFromBalance v stores call funder := by
  unfold verifyRelayed
  cases hUntil : verifyUntilBalance v stores.nonces call with
  | error failure =>
      exact .inl ⟨failure, refuses_verifyUntilBalance v stores.nonces call failure hUntil, rfl⟩
  | ok funder =>
      obtain ⟨hChecked, hUnseen⟩ := verifyUntilBalance_eq_ok hUntil
      exact .inr ⟨funder, hChecked, hUnseen, rfl⟩

/-! ## What an accepted call carries -/

theorem signers_of_checkRelayed {v : PaymentVerifier} {call : RelayerCall} {funder : String}
    (h : checkRelayed v call = .ok funder) :
    ∃ delegSigner authSigner, recoverDelegationSigner v call = .ok delegSigner ∧
      recoverAuthSigner v call = .ok authSigner ∧
      v.lower delegSigner = v.lower call.delegation.requester.shown := by
  obtain ⟨_, hChain, -⟩ := bind_eq_ok_iff.mp h
  simp only [verifyDelegatedAuthorization, bind_eq_ok_iff, require_eq_ok_iff,
    raise_eq_ok_iff] at hChain
  obtain ⟨_, -, _, -, delegSigner, hDeleg, _, hLower, authSigner, hAuth, -⟩ := hChain
  exact ⟨delegSigner, authSigner, hDeleg, hAuth, hLower⟩

end Prsm.PaymentAuth
