import Prsm.Evm.Contracts

/-!
# `BatchSettlementRegistry`: storage, events and errors

The data of the contract, in the order the source declares it.  A mapping is a
total function whose value at an untouched key is the zero value of its type,
as in storage.
-/

namespace Prsm.Registry

open Foundations Evm

/-- The canonical on-chain form of a shard execution receipt.  Its hash is a
leaf of a batch's Merkle tree. -/
structure ReceiptLeaf where
  jobIdHash : Bytes32
  shardIndex : Uint 32
  providerIdHash : Bytes32
  providerPubkeyHash : Bytes32
  outputHash : Bytes32
  executedAtUnix : Uint 64
  valueFtns : Uint 128
  signatureHash : Bytes32
  signingMessageHash : Bytes32
  deriving DecidableEq

inductive BatchStatus
  | nonexistent
  | pending
  | finalized
  /-- Reserved for governance voiding.  No function of the contract enters it. -/
  | voided
  deriving DecidableEq

structure Batch where
  provider : Address
  requester : Address
  merkleRoot : Bytes32
  receiptCount : Nat
  totalValueFTNS : Nat
  invalidatedValueFTNS : Nat
  commitTimestamp : Nat
  status : BatchStatus
  tierSlashRateBps : Nat
  consensusGroupId : Bytes32
  lookbackWindowSecondsAtCommit : Nat
  totalPausedAtBatchOrigin : Nat
  challengeWindowSecondsAtCommit : Nat
  escrowPoolAtCommit : Address
  stakeBondAtCommit : Address
  signatureVerifierAtCommit : Address
  metadataURI : String
  attestationCommitment : Bytes32

/-- The record at a batch id that was never committed. -/
def Batch.zero : Batch where
  provider := 0
  requester := 0
  merkleRoot := 0
  receiptCount := 0
  totalValueFTNS := 0
  invalidatedValueFTNS := 0
  commitTimestamp := 0
  status := .nonexistent
  tierSlashRateBps := 0
  consensusGroupId := 0
  lookbackWindowSecondsAtCommit := 0
  totalPausedAtBatchOrigin := 0
  challengeWindowSecondsAtCommit := 0
  escrowPoolAtCommit := 0
  stakeBondAtCommit := 0
  signatureVerifierAtCommit := 0
  metadataURI := ""
  attestationCommitment := 0

/-- Reason codes of `challengeReceipt`. -/
inductive ReasonCode
  | doubleSpend
  | invalidSignature
  | noEscrow
  | expired
  | malformed
  | consensusMismatch
  deriving DecidableEq

/-- The reasons for which a proven challenge also slashes the provider. -/
def ReasonCode.slashes : ReasonCode → Bool
  | .doubleSpend | .invalidSignature | .consensusMismatch => true
  | .noEscrow | .expired | .malformed => false

structure State where
  ownable : Ownable2Step
  paused : Bool
  challengeWindowSeconds : Nat
  escrowPool : Address
  stakeBond : Address
  signatureVerifier : Address
  settlementLookbackWindowSeconds : Nat
  /-- `invalidatedReceipts batchId receiptLeafHash`: this receipt of this batch
  has been successfully challenged. -/
  invalidatedReceipts : Bytes32 → Bytes32 → Bool
  providerBatchSequence : Address → Nat
  batches : Bytes32 → Batch
  /-- The largest `commitTimestamp + challengeWindowSecondsAtCommit` among the
  provider's commits.  `StakeBond` reads it as a floor for unbonding. -/
  lastPendingBatchExpiry : Address → Nat
  /-- `totalPausedSeconds` when `lastPendingBatchExpiry` was last written. -/
  lastPendingBatchPausedAtAccrual : Address → Nat
  /-- Seconds spent in completed pauses. -/
  totalPausedSeconds : Nat
  pauseStartedAt : Nat

def minLookbackSeconds : Nat := 86400
def maxLookbackSeconds : Nat := 365 * 86400
def minChallengeWindowSeconds : Nat := 3600
def maxChallengeWindowSeconds : Nat := 30 * 86400
def minSlashGas : Nat := 150000

/-- What a successful transaction leaves behind besides the new state: the
events it emits and the calls it makes to other contracts, in order. -/
inductive Effect
  | batchCommitted (batchId : Bytes32) (provider : Address) (merkleRoot : Bytes32)
      (receiptCount totalValueFTNS commitTimestamp : Nat) (metadataURI : String)
  | batchAttestationCommitted (batchId : Bytes32) (provider : Address)
      (attestationCommitment : Bytes32)
  /-- The call `settleFromRequester(requester, recipient, amount)` on the escrow
  pool, made for `batchId`. -/
  | settleFromRequester (batchId : Bytes32) (pool requester recipient : Address)
      (amount : Nat)
  | batchFinalized (batchId : Bytes32) (provider : Address)
      (finalValueFTNS invalidatedValueFTNS finalizeTimestamp : Nat)
  | receiptChallenged (batchId receiptLeafHash : Bytes32) (challenger : Address)
      (reason : ReasonCode) (invalidatedValueFTNS : Nat)
  /-- The call `slash(provider, challenger, batchId)` on the bond, which
  returned.  `reason` and `receiptLeafHash` say which challenge made it. -/
  | slash (bond provider challenger : Address) (batchId : Bytes32)
      (reason : ReasonCode) (receiptLeafHash : Bytes32)
  /-- The same call, which reverted. -/
  | slashSwallowed (batchId : Bytes32) (provider challenger : Address)
      (reason : ReasonCode)
  | challengeWindowUpdated (oldSeconds newSeconds : Nat)
  | escrowPoolUpdated (oldPool newPool : Address)
  | stakeBondUpdated (oldBond newBond : Address)
  | signatureVerifierUpdated (oldVerifier newVerifier : Address)
  | settlementLookbackUpdated (oldSeconds newSeconds : Nat)

inductive Error
  | platform (e : PlatformError)
  | invalidChallengeWindow (provided : Nat)
  | invalidLookbackWindow (provided : Nat)
  | batchAlreadyCommitted (batchId : Bytes32)
  | batchNotFound (batchId : Bytes32)
  | batchNotPending (batchId : Bytes32) (current : BatchStatus)
  | challengeWindowNotElapsed (batchId : Bytes32) (commitTimestamp windowSeconds : Nat)
  | challengeWindowElapsed (batchId : Bytes32)
  | emptyMerkleRoot
  | zeroReceiptCount
  | zeroRequester
  | escrowPoolNotConfigured
  | invalidMerkleProof (batchId receiptLeafHash : Bytes32)
  | receiptAlreadyInvalidated (batchId receiptLeafHash : Bytes32)
  | challengeNotProven (reason : ReasonCode)
  | verifierNotConfigured
  | malformedReasonNotImplemented
  | callerNotRequester (caller requester : Address)
  | receiptNotExpired (executedAtUnix lookbackSeconds : Nat)
  | conflictingBatchNotCommitted (conflictingBatchId : Bytes32)
  | invalidSlashRateBps (provided : Nat)
  | setterTargetNotContract (provided : Address)
  | insufficientGasForSlash (available required : Nat)
  /-- `abi.decode` rejected the auxiliary data. -/
  | malformedAuxData
  /-- The signature verifier reverted. -/
  | verifierReverted
  /-- The escrow pool reverted, and the finalization with it. -/
  | settlementReverted
  deriving DecidableEq

/-- `auxData` of a challenge, given by the result of each `abi.decode` that a
handler may apply to it, with `none` where the decoder reverts.  Every byte
string has such a view, so a statement for every `AuxData` covers every byte
string. -/
structure AuxData where
  /-- `abi.decode(auxData, (bytes32, bytes32[]))` -/
  asDoubleSpend : Option (Bytes32 × List Bytes32)
  /-- `abi.decode(auxData, (bytes, bytes))` -/
  asSignature : Option (Bytes × Bytes)
  /-- `abi.decode(auxData, (bytes32, bytes32[], ReceiptLeaf))` -/
  asConsensusMismatch : Option (Bytes32 × List Bytes32 × ReceiptLeaf)

/-- What one transaction sees of the world outside the contract's storage.  The
answers of the other contracts are functions, so nothing is assumed about
them.  `settleFromRequester` and `slash` answer whether the call returned. -/
structure Env where
  block : Block
  sender : Address
  gasleft : Nat
  codeLength : Address → Nat
  verify : Address → Bytes32 → Bytes → Bytes → Option Bool
  settleFromRequester : Address → Address → Address → Nat → Bool
  slash : Address → Address → Address → Bytes32 → Bool

def Env.timestamp (env : Env) : Nat := env.block.timestamp

theorem Env.timestamp_lt (env : Env) : env.timestamp < 2 ^ 63 := env.block.timestamp_lt

end Prsm.Registry
