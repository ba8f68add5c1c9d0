import Prsm.Foundations.PyValue
import Prsm.Foundations.Requests
import Prsm.LocalLedger.Operations
import Prsm.Settlement.Receipt

/-!
# `LedgerSync`: transactions that come by gossip

The handler reads an untyped message.  The calls of the ledger are requests; what they
answer, the raised errors included, is the environment's.
-/

namespace Prsm.LedgerSync

open Foundations
open Evm (Bytes)
open LocalLedger (TransactionType)
open Settlement (utf8 b64decode)

/-- `sha256(…).hexdigest()`, the check of a signature, and the JSON text of a list or a
dictionary from its text under `str`. -/
structure Library where
  sha256Hex : Bytes → String
  verifySignature : String → Bytes → PyValue → Bool
  compositeJson : String → String

/-- The node that runs the handler. -/
structure NodeIdentity where
  nodeId : String
  nodeId_ne : nodeId ≠ ""

/-! ## `json.dumps` -/

def jsonValue (lib : Library) : PyValue → String
  | .none => "null"
  | .bool true => "true"
  | .bool false => "false"
  | .int n => toString n
  | .float x =>
      if x.value.isSome then x.text
      else if x.text = "inf" then "Infinity"
      else if x.text = "-inf" then "-Infinity"
      else "NaN"
  | .str s => jsonString s
  | .composite text _ _ => lib.compositeJson text

/-- `json.dumps(…, sort_keys=True)`. -/
def jsonDumps (lib : Library) (data : Dict String PyValue) : String :=
  let entries := data.entries.insertionSort fun x y => x.1 ≤ y.1
  let items := entries.map fun x => jsonString x.1 ++ ": " ++ jsonValue lib x.2
  "\x7b" ++ ", ".intercalate items ++ "\x7d"

/-! ## The message -/

/-- `data.get(key, default)`. -/
def field (data : Dict String PyValue) (key : String) (default : PyValue) : PyValue :=
  (data.get? key).getD default

/-- The part of the message that the signature is checked against. -/
def canonical (data : Dict String PyValue) : Dict String PyValue :=
  data.filterKeys fun key => key ≠ "signature" && key ≠ "origin_public_key"

def nodeIdForPublicKey (lib : Library) (publicBytes : Bytes) : String :=
  ((lib.sha256Hex publicBytes).take 32).toString

/-- `verify_signature`, which is false of a key that is not a string. -/
def verifySignature (lib : Library) (publicKey : PyValue) (data : Bytes) (signature : PyValue) :
    Bool :=
  match publicKey with
  | .str key => lib.verifySignature key data signature
  | _ => false

/-- From here on an integer is too large for a floating-point number. -/
def floatLimit : ℤ := 2 ^ 1024 - 2 ^ 970

/-- Whether the amount passes the guard, or `none` where `math.isfinite` raises. -/
def isPayment (amount : PyValue) : Option Bool :=
  match amount with
  | .int n => if n.natAbs < floatLimit.natAbs then some (0 < n) else none
  | .float x =>
      match x.value with
      | some q => some (0 < q)
      | none => some false
  | _ => some false

/-- `TransactionType(…)`. -/
def transactionType : PyValue → Option TransactionType
  | .str "welcome_grant" => some .welcomeGrant
  | .str "compute_payment" => some .computePayment
  | .str "compute_earning" => some .computeEarning
  | .str "storage_reward" => some .storageReward
  | .str "content_royalty" => some .contentRoyalty
  | .str "transfer" => some .transfer
  | .str "bridge_deposit" => some .bridgeDeposit
  | .str "bridge_withdraw" => some .bridgeWithdraw
  | .str "reward" => some .reward
  | _ => none

/-- The arguments of `credit`. -/
structure Credit where
  walletId : String
  amount : PyValue
  txType : TransactionType
  description : String
  signature : PyValue

section Fields

variable (data : Dict String PyValue)

def nonce : PyValue := field data "nonce" (.str "")
def signature : PyValue := field data "signature" (.str "")
def originPublicKey : PyValue := field data "origin_public_key" (.str "")
def toWallet : PyValue := field data "to_wallet" (.str "")
def amount : PyValue := field data "amount" (.int 0)

/-- The id of the transaction: the nonce where the message has no `tx_id`. -/
def txId : PyValue := field data "tx_id" (nonce data)

/-- The credit that a message asks for. -/
def creditOf (identity : NodeIdentity) : Credit where
  walletId := identity.nodeId
  amount := amount data
  txType := (transactionType (field data "tx_type" (.str "transfer"))).getD .transfer
  description := "[remote] " ++ (field data "description" (.str "")).text
  signature := signature data

end Fields

/-! ## The handler -/

inductive Request
  | hasSeenNonce (nonce : PyValue)
  | recordNonce (nonce : PyValue) (origin : String)
  | releaseNonce (nonce : PyValue)
  | hasTransaction (txId : PyValue)
  | credit (c : Credit)

inductive Error
  | ledger
  | overflow

@[reducible] def Answer : Request → Type
  | .credit _ => Except Error Unit
  | _ => Except Error Bool

structure Counters where
  txsRejected : ℕ
  txsReceived : ℕ

@[reducible] def Method (α : Type) : Type := Coroutine Counters Request Answer Error α

open Coroutine (ask)

def reject : Method Unit :=
  Coroutine.modify fun c => { c with txsRejected := c.txsRejected + 1 }

section Handler

variable (lib : Library) (identity : NodeIdentity) (data : Dict String PyValue) (origin : String)

/-- The credit, with the release of the nonce where it fails. -/
def creditOrRelease : Method Unit := do
  match ← ask (Request.credit (creditOf data identity)) with
  | .ok _ => pure ()
  | .error _ =>
      match ← ask (Request.releaseNonce (nonce data)) with
      | .ok _ => pure ()
      | .error e => throw e

/-- The part of the handler that follows the claim of the nonce. -/
def applyTransaction : Method Unit := do
  match isPayment (amount data) with
  | none => throw .overflow
  | some false => pure ()
  | some true =>
      if (toWallet data).pyEq (.str identity.nodeId) then
        match ← ask (Request.hasTransaction (txId data)) with
        | .ok true => pure ()
        | .ok false => creditOrRelease identity data
        | .error e => throw e
      else pure ()

/-- The claim of the nonce. -/
def claimNonce : Method Unit := do
  match ← ask (Request.recordNonce (nonce data) origin) with
  | .ok true => do
      Coroutine.modify fun c => { c with txsReceived := c.txsReceived + 1 }
      applyTransaction identity data
  | .ok false => reject
  | .error e => throw e

def onFtnsTransaction : Method Unit := do
  if origin = identity.nodeId then
    pure ()
  else if !(nonce data).truthy || !(signature data).truthy || !(originPublicKey data).truthy then
    reject
  else
    match ← ask (Request.hasSeenNonce (nonce data)) with
    | .ok true => reject
    | .ok false =>
        if !verifySignature lib (originPublicKey data) (utf8 (jsonDumps lib (canonical data)))
            (signature data) then
          reject
        else
          claimNonce identity data origin
    | .error e => throw e

end Handler

end Prsm.LedgerSync

/-!
# Who authorises a remote credit

The signature covers everything that the credit uses, but the key that it is checked with
comes in the same message and is bound to no wallet.  So a credit is authorised by the
payer exactly when the message happens to carry the payer's own key.
-/

namespace Prsm.LedgerSync

open Foundations
open Settlement (utf8 b64decode)

section Authority

variable (lib : Library) (identity : NodeIdentity) (data : Dict String PyValue) (origin : String)

/-- The key of the message derives the node id that the message names as the payer. -/
def PayerKey : Prop :=
  ∃ key publicBytes, data.get? "origin_public_key" = some (.str key) ∧
    b64decode key = some publicBytes ∧
      data.get? "from_wallet" = some (.str (nodeIdForPublicKey lib publicBytes))

/-- The amount, the recipient and the id of the transaction are in the text that the
signature was checked against. -/
def Covered (c : Credit) : Prop :=
  ∃ signed : Dict String PyValue,
    verifySignature lib (originPublicKey data) (utf8 (jsonDumps lib signed)) c.signature = true ∧
      signed.get? "amount" = some c.amount ∧ signed.get? "to_wallet" = some (.str c.walletId) ∧
        (signed.get? "tx_id" = some (txId data) ∨
          (signed.get? "tx_id" = none ∧ signed.get? "nonce" = some (txId data)))

/-- A credit that the payer has authorised. -/
structure Authorised (c : Credit) : Prop where
  payer : PayerKey lib data
  covered : Covered lib data c

/-- The checks that the handler does make on the message. -/
structure Passes : Prop where
  foreign : origin ≠ identity.nodeId
  hasNonce : (nonce data).truthy = true
  hasSignature : (signature data).truthy = true
  hasKey : (originPublicKey data).truthy = true
  verified : verifySignature lib (originPublicKey data) (utf8 (jsonDumps lib (canonical data)))
    (signature data) = true
  payment : isPayment (amount data) = some true
  recipient : (toWallet data).pyEq (.str identity.nodeId) = true

end Authority

section Handler

variable {lib : Library} {identity : NodeIdentity} {data : Dict String PyValue} {origin : String}

theorem get?_of_field {key : String} {default value : PyValue}
    (h : field data key default = value) (hNe : value ≠ default) : data.get? key = some value := by
  unfold field at h
  cases hGet : data.get? key with
  | none =>
      rw [hGet] at h
      exact absurd h.symm hNe
  | some stored =>
      rw [hGet] at h
      exact congrArg some h

theorem get?_canonical {key : String} (hSignature : key ≠ "signature")
    (hKey : key ≠ "origin_public_key") : (canonical data).get? key = data.get? key := by
  simp [canonical, Dict.get?_filterKeys, hSignature, hKey]

theorem get?_amount (h : isPayment (amount data) = some true) :
    data.get? "amount" = some (amount data) := by
  apply get?_of_field rfl
  intro hZero
  have hNothing : isPayment (.int 0) = some false := by decide +kernel
  rw [amount, hZero, hNothing] at h
  cases h

theorem get?_toWallet (h : (toWallet data).pyEq (.str identity.nodeId) = true) :
    data.get? "to_wallet" = some (.str identity.nodeId) := by
  have hSelf := PyValue.eq_str_of_pyEq h
  apply get?_of_field hSelf
  intro hEmpty
  exact identity.nodeId_ne (PyValue.str.inj hEmpty)

theorem get?_nonce (h : (nonce data).truthy = true) :
    data.get? "nonce" = some (nonce data) := by
  apply get?_of_field rfl
  intro hEmpty
  rw [nonce, hEmpty] at h
  simp [PyValue.truthy] at h

theorem Passes.covered (h : Passes lib identity data origin) :
    Covered lib data (creditOf data identity) := by
  refine ⟨canonical data, h.verified, ?_, ?_, ?_⟩
  · rw [get?_canonical (by decide) (by decide)]
    exact get?_amount h.payment
  · rw [get?_canonical (by decide) (by decide)]
    exact get?_toWallet h.recipient
  · rw [get?_canonical (by decide) (by decide), get?_canonical (by decide) (by decide)]
    cases hId : data.get? "tx_id" with
    | none =>
        right
        refine ⟨rfl, ?_⟩
        rw [txId, field, hId]
        exact get?_nonce h.hasNonce
    | some stored =>
        left
        rw [txId, field, hId]
        rfl

/-! ## The requests of the handler -/

/-- The only credit is that of a message which passes. -/
def MayCredit (lib : Library) (identity : NodeIdentity) (data : Dict String PyValue)
    (origin : String) : Request → Prop
  | .credit c => Passes lib identity data origin ∧ c = creditOf data identity
  | _ => True

theorem only_creditOrRelease (h : Passes lib identity data origin) :
    (creditOrRelease identity data).Only (MayCredit lib identity data origin) fun _ => True := by
  refine ⟨⟨h, rfl⟩, fun answer => ?_⟩
  cases answer with
  | ok done => trivial
  | error e =>
      refine ⟨trivial, fun released => ?_⟩
      cases released <;> trivial

theorem only_applyTransaction (h : isPayment (amount data) = some true →
      (toWallet data).pyEq (.str identity.nodeId) = true → Passes lib identity data origin) :
    (applyTransaction identity data).Only (MayCredit lib identity data origin) fun _ => True := by
  unfold applyTransaction
  split
  · trivial
  · trivial
  next hPayment =>
    split
    next hSelf =>
      refine ⟨trivial, fun applied => ?_⟩
      match applied with
      | .ok true => trivial
      | .ok false => exact only_creditOrRelease (h hPayment hSelf)
      | .error e => trivial
    · trivial

theorem only_claimNonce (h : isPayment (amount data) = some true →
      (toWallet data).pyEq (.str identity.nodeId) = true → Passes lib identity data origin) :
    (claimNonce identity data origin).Only (MayCredit lib identity data origin) fun _ => True := by
  refine ⟨trivial, fun claimed => ?_⟩
  match claimed with
  | .ok true => exact only_applyTransaction h
  | .ok false => trivial
  | .error e => trivial

theorem only_onFtnsTransaction :
    (onFtnsTransaction lib identity data origin).Only (MayCredit lib identity data origin)
      fun _ => True := by
  unfold onFtnsTransaction
  split
  · trivial
  next hForeign =>
    split
    · trivial
    next hPresent =>
      simp only [Bool.or_eq_true, Bool.not_eq_true', not_or, Bool.not_eq_false] at hPresent
      obtain ⟨⟨hNonce, hSignature⟩, hKey⟩ := hPresent
      refine ⟨trivial, fun seen => ?_⟩
      match seen with
      | .ok true => trivial
      | .error e => trivial
      | .ok false =>
          simp only [Coroutine.bind_returned]
          split
          · trivial
          next hVerified =>
            simp only [Bool.not_eq_true', Bool.not_eq_false] at hVerified
            exact only_claimNonce fun hPayment hSelf =>
              ⟨hForeign, hNonce, hSignature, hKey, hVerified, hPayment, hSelf⟩

theorem Passes.requests (h : Passes lib identity data origin) :
    (onFtnsTransaction lib identity data origin).Requests (.credit (creditOf data identity)) := by
  unfold onFtnsTransaction
  rw [if_neg h.foreign, if_neg (by simp [h.hasNonce, h.hasSignature, h.hasKey])]
  refine Or.inr ⟨.ok false, ?_⟩
  simp only [Coroutine.bind_returned]
  rw [if_neg (by simp [h.verified])]
  refine Or.inr ⟨.ok true, ?_⟩
  show (applyTransaction identity data).Requests (.credit (creditOf data identity))
  unfold applyTransaction
  rw [h.payment]
  simp only
  rw [if_pos h.recipient]
  exact Or.inr ⟨.ok false, Or.inl rfl⟩

theorem credit_requested_iff {c : Credit} :
    (onFtnsTransaction lib identity data origin).Requests (.credit c) ↔
      Passes lib identity data origin ∧ c = creditOf data identity := by
  constructor
  · intro h
    exact only_onFtnsTransaction.of_requests h
  · intro ⟨hPasses, hCredit⟩
    rw [hCredit]
    exact hPasses.requests

end Handler

/-- The handler credits only what the payer has authorised exactly for the messages whose
key is the payer's, beside those that fail one of its checks. -/
theorem credits_authorised_iff (lib : Library) (identity : NodeIdentity)
    (data : Dict String PyValue) (origin : String) :
    (∀ c, (onFtnsTransaction lib identity data origin).Requests (.credit c) →
      Authorised lib data c) ↔ PayerKey lib data ∨ ¬ Passes lib identity data origin := by
  constructor
  · intro h
    by_cases hPasses : Passes lib identity data origin
    · exact Or.inl (h _ hPasses.requests).payer
    · exact Or.inr hPasses
  · intro h c hCredit
    obtain ⟨hPasses, rfl⟩ := credit_requested_iff.mp hCredit
    rcases h with hPayer | hFails
    · exact ⟨hPayer, hPasses.covered⟩
    · exact absurd hPasses hFails

/-! ## A payment in another's name -/

def sampleLibrary : Library where
  sha256Hex := fun _ => "ff"
  verifySignature := fun key text signature =>
    key = "AQ==" && signature = .str "c2ln" && text = utf8
      "\x7b\"amount\": 1000, \"from_wallet\": \"aa\", \"nonce\": \"n\", \"to_wallet\": \"bb\"\x7d"
  compositeJson := fun text => text

def forgedMessage : Dict String PyValue :=
  Dict.ofEntries [("nonce", .str "n"), ("from_wallet", .str "aa"), ("to_wallet", .str "bb"),
    ("amount", .int 1000), ("signature", .str "c2ln"), ("origin_public_key", .str "AQ==")]

/-- The node "bb" credits itself with money of "aa" under a key that derives "ff". -/
theorem forgedMessage_credited :
    (onFtnsTransaction sampleLibrary ⟨"bb", by decide⟩ forgedMessage "ff").Requests
      (.credit ⟨"bb", .int 1000, .transfer, "[remote] ", .str "c2ln"⟩) ∧
    ¬ PayerKey sampleLibrary forgedMessage := by
  constructor
  · have hPasses : Passes sampleLibrary ⟨"bb", by decide⟩ forgedMessage "ff" :=
      ⟨by decide, by decide, by decide, by decide, by decide +kernel, by decide +kernel,
        by decide⟩
    exact hPasses.requests
  · rintro ⟨key, publicBytes, -, -, hFrom⟩
    have hWallet : forgedMessage.get? "from_wallet" = some (.str "aa") := by decide
    have hDerived : nodeIdForPublicKey sampleLibrary publicBytes = "ff" := by
      show (("ff" : String).take 32).toString = "ff"
      decide +kernel
    rw [hWallet, hDerived] at hFrom
    simp at hFrom

end Prsm.LedgerSync
