import Prsm.Foundations.PyValue
import Prsm.Foundations.Requests
import Prsm.PaymentEscrow.Operations
import Prsm.Settlement.Receipt

/-!
# Receipts of remote shards and their consensus

A provider answers a dispatch with an untyped message.  `ReceiptDict` is its receipt as
it arrives: any field may be missing or hold any value.  `verify` is the check before a
provider is paid.  It rebuilds the signed payload from the receipt's own fields.
-/

namespace Prsm.ShardDispatch

open Foundations (PyValue)
open Evm (Bytes Bytes32 Keccak)
open Settlement (utf8 b64decode)

/-- `sha256(…).hexdigest()`, `keccak`, `verify_signature`, whether `numpy` makes an array
of some bytes with a shape and a type, and whether `_enforce_tee_attestation` lets a value
pass. -/
structure Library where
  sha256Hex : Bytes → String
  sha256Hex_plain : ∀ data, '|' ∉ (sha256Hex data).toList
  keccak256 : Keccak
  verifySignature : String → Bytes32 → PyValue → Bool
  isArray : Bytes → PyValue → PyValue → Bool
  isAttested : Option PyValue → Bool

/-- The receipt of a response. -/
structure ReceiptDict where
  jobId : Option PyValue
  shardIndex : Option PyValue
  providerId : Option PyValue
  providerPubkeyB64 : Option PyValue
  outputHash : Option PyValue
  executedAtUnix : Option PyValue
  signature : Option PyValue
  teeAttestation : Option PyValue
  deriving DecidableEq

/-- `ShardExecutionReceipt`, built without a check of the types. -/
structure ShardReceipt where
  jobId : PyValue
  shardIndex : PyValue
  providerId : PyValue
  providerPubkeyB64 : PyValue
  outputHash : PyValue
  executedAtUnix : PyValue
  signature : PyValue
  teeAttestation : Option PyValue
  deriving DecidableEq

/-- `ShardExecutionReceipt.from_dict`, or `none` on a missing field. -/
def ShardReceipt.fromDict (data : ReceiptDict) : Option ShardReceipt := do
  some {
    jobId := ← data.jobId
    shardIndex := ← data.shardIndex
    providerId := ← data.providerId
    providerPubkeyB64 := ← data.providerPubkeyB64
    outputHash := ← data.outputHash
    executedAtUnix := ← data.executedAtUnix
    signature := ← data.signature
    teeAttestation := data.teeAttestation }

section Verification

variable (lib : Library)

/-- The text that `build_receipt_signing_payload` hashes. -/
def signingText (jobId shardIndex outputHash executedAtUnix : PyValue) : String :=
  jobId.text ++ "||" ++ shardIndex.text ++ "||" ++ outputHash.text ++ "||" ++ executedAtUnix.text

def buildReceiptSigningPayload (jobId shardIndex outputHash executedAtUnix : PyValue) : Bytes32 :=
  lib.keccak256 (utf8 (signingText jobId shardIndex outputHash executedAtUnix))

/-- `_derive_node_id_from_pubkey_b64`. -/
def deriveNodeId : PyValue → Option String
  | .str pubkeyB64 => (b64decode pubkeyB64).map fun raw => ((lib.sha256Hex raw).take 32).toString
  | _ => none

/-- `verify_signature`, which is false of a key that is not a string. -/
def verifySignature (publicKey : PyValue) (data : Bytes32) (signature : PyValue) : Bool :=
  match publicKey with
  | .str key => lib.verifySignature key data signature
  | _ => false

/-- The payload that the fields of a receipt make. -/
def ShardReceipt.payload (r : ShardReceipt) : Bytes32 :=
  buildReceiptSigningPayload lib r.jobId r.shardIndex r.outputHash r.executedAtUnix

/-- `ReceiptOnlyVerification.verify` with the provider that was asked. -/
def verify (receipt : ReceiptDict) (outputBytes : Bytes) (expectedProviderId : String) : Bool :=
  match ShardReceipt.fromDict receipt with
  | none => false
  | some r =>
      decide (r.outputHash = .str (lib.sha256Hex outputBytes)) &&
        match deriveNodeId lib r.providerPubkeyB64 with
        | none => false
        | some derivedNodeId =>
            decide (r.providerId = .str derivedNodeId) &&
              decide (derivedNodeId = expectedProviderId) &&
                verifySignature lib r.providerPubkeyB64 (r.payload lib) r.signature

end Verification

/-! ## Consensus -/

/-- The modes in which a `ShardConsensus` can be built. -/
inductive ConsensusMode
  | single
  | majority
  | unanimous

structure ShardConsensus where
  mode : ConsensusMode
  k : ℕ
  k_pos : 1 ≤ k

structure ConsensusOutcome where
  agreed : Bool
  agreedOutputHash : Option PyValue
  majority : List ShardReceipt
  minority : List ShardReceipt
  deriving DecidableEq

def ConsensusOutcome.disagreed : ConsensusOutcome := ⟨false, none, [], []⟩

/-- The `ValueError` of `resolve`. -/
structure MixedReceipts where
  jobId : PyValue
  shardIndex : PyValue
  otherJobId : PyValue
  otherShardIndex : PyValue
  deriving DecidableEq

/-- The receipt is of another job or shard than the first one. -/
def ShardReceipt.mixedWith (first r : ShardReceipt) : Bool :=
  !first.jobId.pyEq r.jobId || !first.shardIndex.pyEq r.shardIndex

namespace ShardConsensus

/-- The output hashes, in the order in which they come. -/
def outputHashes (receipts : List ShardReceipt) : List PyValue :=
  (receipts.map ShardReceipt.outputHash).eraseDups

def votes (receipts : List ShardReceipt) (outputHash : PyValue) : ℕ :=
  receipts.countP fun r => r.outputHash = outputHash

/-- Whether a hash with so many votes wins. -/
def reached (c : ShardConsensus) (responses winningCount : ℕ) : Bool :=
  match c.mode with
  | .single => winningCount = responses
  | .majority => c.k / 2 + 1 ≤ winningCount
  | .unanimous => responses = c.k && winningCount = c.k

def resolve (c : ShardConsensus) : List ShardReceipt → Except MixedReceipts ConsensusOutcome
  | [] => .ok .disagreed
  | first :: rest =>
      match rest.find? first.mixedWith with
      | some r => .error ⟨first.jobId, first.shardIndex, r.jobId, r.shardIndex⟩
      | none =>
          let receipts := first :: rest
          let hashes := outputHashes receipts
          let winningCount := (hashes.map (votes receipts)).foldl max 0
          match hashes.filter fun h => votes receipts h = winningCount with
          | [winningHash] =>
              if c.reached receipts.length winningCount then
                .ok {
                  agreed := true
                  agreedOutputHash := some winningHash
                  majority := receipts.filter fun r => r.outputHash = winningHash
                  minority := receipts.filter fun r => r.outputHash ≠ winningHash }
              else .ok .disagreed
          | _ => .ok .disagreed

end ShardConsensus
end Prsm.ShardDispatch

/-!
# `RemoteShardDispatcher`

One dispatch funds an escrow, sends the shard to the provider, checks what comes back
and then pays or refunds.  The calls of the escrow and the exchange with the provider
are requests; what they answer, the raised errors included, is the environment's.
-/

namespace Prsm.ShardDispatch

open Foundations
open Evm (Bytes)
open Settlement (b64decode)
open PaymentEscrow (EscrowEntry)
open LocalLedger (Transaction)

structure ModelShard where
  shardIndex : ℤ
  tensorData : Bytes
  tensorShape : List ℕ
  checksum : String

/-- An array: its bytes, shape and type. -/
structure Tensor where
  data : Bytes
  shape : PyValue
  dtype : PyValue
  deriving DecidableEq

/-- The payload of a `shard_execute_request`. -/
structure ExecuteRequest where
  jobId : String
  shardIndex : ℤ
  tensorData : Bytes
  tensorShape : List ℕ
  input : Tensor
  checksum : String
  stakeTier : String
  escrowTxId : String

/-- The `receipt` of a response: an empty dictionary where it is missing. -/
inductive ReceiptField
  | notADict
  | dict (fields : ReceiptDict)

/-- The payload of a `shard_execute_response`. -/
structure Response where
  status : Option PyValue
  error : Option PyValue
  outputB64 : Option PyValue
  outputShape : Option PyValue
  outputDtype : Option PyValue
  receipt : ReceiptField

/-- Why an attempt fails. -/
inductive Failure
  | timeout
  | preempted (reason : Option PyValue)
  | badStatus (status error : Option PyValue)
  | verificationFailed
  | missingAttestation
  | other
  deriving DecidableEq

/-- How the exchange with a provider fails. -/
inductive ExchangeError
  | timeout
  | raised

/-- What a dispatch raises.  A failed attempt is raised as what it is, or as a
`ShardDispatchError` where it is a timeout or an unexpected exception. -/
inductive Error
  | shardTooLarge (shardIndex : ℤ) (size : ℕ)
  | peerNotConnected (nodeId : String)
  | emptyJobId
  | escrow (e : PaymentEscrow.Error)
  | escrowCreationFailed (shardIndex : ℤ) (jobId : String) (amount : ℚ)
  | escrowReleaseFailed (escrowJobId : String)
  | attemptFailed (f : Failure)
  | fallbackRaised

structure Config where
  nodeId : String
  maxRetries : ℕ
  maxShardBytes : ℕ
  localFallback : Bool

/-- The peers that the transport is connected to. -/
structure Transport where
  peers : List String

/-- A release names the response that it pays for. -/
inductive Request
  | createEscrow (jobId : String) (amount : ℚ) (requesterId : String)
  | exchange (nodeId : String) (payload : ExecuteRequest)
  | releaseEscrow (jobId providerId : String) (paid : Response)
  | refundEscrow (jobId : String) (reason : Failure)
  | callFallback (shardIndex : ℤ)

@[reducible] def Answer : Request → Type
  | .createEscrow _ _ _ => Except PaymentEscrow.Error (Option EscrowEntry)
  | .exchange _ _ => Except ExchangeError Response
  | .releaseEscrow _ _ _ => Except PaymentEscrow.Error (Option Transaction)
  | .refundEscrow _ _ => Except PaymentEscrow.Error Bool
  | .callFallback _ => Option Tensor

structure DispatchResult where
  output : Tensor
  receipt : Option ReceiptDict
  providerNodeId : String
  escrowAmountFtns : ℚ

@[reducible] def Method (α : Type) : Type := Coroutine Transport Request Answer Error α

open Coroutine (ask)

def escrowJobId (jobId : String) (shardIndex : ℤ) : String :=
  jobId ++ ":shard:" ++ toString shardIndex

section Attempt

variable (lib : Library) (nodeId : String) (requireTee : Bool)

/-- The bytes of a response and the array that they make, or `none` where a field is
missing or does not decode. -/
def decodeOutput (response : Response) : Option Tensor := do
  match ← response.outputB64 with
  | .str outputB64 =>
      let data ← b64decode outputB64
      let shape ← response.outputShape
      let dtype ← response.outputDtype
      if lib.isArray data shape dtype then some ⟨data, shape, dtype⟩ else none
  | _ => none

/-- The part of `_dispatch_once` that follows the exchange. -/
def readResponse (response : Response) : Except Failure (Tensor × ReceiptDict) :=
  if response.status = some (.str "preempted") then .error (.preempted response.error)
  else if response.status ≠ some (.str "completed") then
    .error (.badStatus response.status response.error)
  else
    match decodeOutput lib response, response.receipt with
    | none, _ => .error .other
    | some _, .notADict => .error .other
    | some output, .dict receipt =>
        if !verify lib receipt output.data nodeId then .error .verificationFailed
        else if requireTee && !lib.isAttested receipt.teeAttestation then
          .error .missingAttestation
        else .ok (output, receipt)

/-- `_dispatch_once`, with the response that was accepted. -/
def dispatchOnce (payload : ExecuteRequest) :
    Method (Except Failure (Tensor × ReceiptDict × Response)) := do
  match ← ask (Request.exchange nodeId payload) with
  | .ok response =>
      match readResponse lib nodeId requireTee response with
      | .ok (output, receipt) => pure (.ok (output, receipt, response))
      | .error failure => pure (.error failure)
  | .error .raised => pure (.error .other)
  | .error .timeout => pure (.error .timeout)

/-- The loop over the attempts: only a timeout is tried again. -/
def attempts (payload : ExecuteRequest) :
    ℕ → Method (Except Failure (Tensor × ReceiptDict × Response))
  | 0 => dispatchOnce lib nodeId requireTee payload
  | retries + 1 => do
      match ← dispatchOnce lib nodeId requireTee payload with
      | .error .timeout => attempts payload retries
      | outcome => pure outcome

end Attempt

section Dispatch

variable (lib : Library) (config : Config) (shard : ModelShard) (input : Tensor)
  (nodeId jobId stakeTier : String) (amount : ℚ) (requireTee : Bool)

/-- `_call_fallback`, with the result of a dispatch that was not remote. -/
def fallback : Method DispatchResult := do
  match ← ask (Request.callFallback shard.shardIndex) with
  | some output => pure ⟨output, none, nodeId, 0⟩
  | none => throw .fallbackRaised

def executeRequest : ExecuteRequest where
  jobId := jobId
  shardIndex := shard.shardIndex
  tensorData := shard.tensorData
  tensorShape := shard.tensorShape
  input := input
  checksum := shard.checksum
  stakeTier := stakeTier
  escrowTxId := escrowJobId jobId shard.shardIndex

/-- The success path. -/
def payProvider (output : Tensor) (receipt : ReceiptDict) (response : Response) :
    Method DispatchResult := do
  match ← ask (Request.releaseEscrow (escrowJobId jobId shard.shardIndex) nodeId response) with
  | .error e => throw (.escrow e)
  | .ok none => throw (.escrowReleaseFailed (escrowJobId jobId shard.shardIndex))
  | .ok (some _) => pure ⟨output, some receipt, nodeId, amount⟩

/-- The failure path. -/
def refundRequester (failure : Failure) : Method DispatchResult := do
  match ← ask (Request.refundEscrow (escrowJobId jobId shard.shardIndex) failure) with
  | .error e => throw (.escrow e)
  | .ok _ =>
      if failure = .timeout && config.localFallback then fallback shard nodeId
      else throw (.attemptFailed failure)

/-- The part of `dispatch_with_receipt` from the escrow on. -/
def dispatchFunded : Method DispatchResult := do
  if jobId = "" then
    throw .emptyJobId
  match ← ask (Request.createEscrow (escrowJobId jobId shard.shardIndex) amount config.nodeId) with
  | .error e => throw (.escrow e)
  | .ok none => throw (.escrowCreationFailed shard.shardIndex jobId amount)
  | .ok (some _) =>
      match ← attempts lib nodeId requireTee (executeRequest shard input jobId stakeTier)
        config.maxRetries with
      | .ok (output, receipt, response) =>
          payProvider shard nodeId jobId amount output receipt response
      | .error failure => refundRequester config shard nodeId jobId failure

def dispatchWithReceipt : Method DispatchResult := do
  if config.maxShardBytes < shard.tensorData.length then
    if config.localFallback then
      fallback shard nodeId
    else
      throw (.shardTooLarge shard.shardIndex shard.tensorData.length)
  else if !(← Coroutine.gets fun t => t.peers.contains nodeId) then
    if config.localFallback then
      fallback shard nodeId
    else
      throw (.peerNotConnected nodeId)
  else
    dispatchFunded lib config shard input nodeId jobId stakeTier amount requireTee

end Dispatch

end Prsm.ShardDispatch
