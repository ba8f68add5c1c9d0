import Prsm.Wire.Python

/-!
# Messages of the chain RPC

The dataclasses and the checks of their `__post_init__`.  A message is what its constructor
has accepted; checks of the type of a field are those of Lean.  A field annotated `float` may
hold an integer.
-/

namespace Prsm.ChainRpc

open Foundations Wire
open Evm (Bytes)

/-! ## Constants and enumerations -/

def maxHandshakeBytes : ℕ := 64 * 1024 * 1024

def maxVerifyBatchTokens : ℕ := 65

def supportedProtocolVersions : List ℤ := [1, 2]

inductive DecodeMode
  | prefill
  | incremental
  | verify
  deriving DecidableEq

inductive PrivacyLevel
  | none
  | standard
  | high
  | maximum
  deriving DecidableEq

inductive ContentTier
  | a
  | b
  | c
  deriving DecidableEq

inductive TEEType
  | none
  | sgx
  | tdx
  | sev
  | trustzone
  | secureEnclave
  | software
  deriving DecidableEq

/-- The exceptions of the protocol. -/
inductive ProtocolError
  | malformed
  | unknownType
  | versionMismatch
  deriving DecidableEq

/-- A number of Python. -/
inductive Number
  | int (n : ℤ)
  | float (x : PyFloat)

namespace Number

/-- The exact number, unless it is infinite or not a number. -/
def value : Number → Option ℚ
  | int n => some n
  | float x => x.value

/-- `x < 0`. -/
def negative : Number → Bool
  | int n => n < 0
  | float x =>
      match x.value with
      | some q => q < 0
      | none => x.text = "-inf"

/-- `0.0 <= float(x) <= bound`; a huge integer is outside before it is converted. -/
def within (bound : ℚ) (x : Number) : Bool :=
  match x.value with
  | some q => 0 ≤ q ∧ q ≤ bound
  | none => false

end Number

/-! ## `HandoffToken` -/

structure HandoffTokenArgs where
  requestId : String
  settlerNodeId : String
  chainStageIndex : ℤ
  chainTotalStages : ℤ
  deadlineUnix : Number
  signatureB64 : String
  ephemeralPubkey : Option Bytes
  layerRange : Option (ℤ × ℤ)
  modelId : Option String

def validLayerRange (range : ℤ × ℤ) : Bool := 0 ≤ range.1 ∧ range.1 < range.2

def HandoffTokenArgs.accepted (t : HandoffTokenArgs) : Bool :=
  t.requestId ≠ "" ∧ t.settlerNodeId ≠ "" ∧ t.signatureB64 ≠ "" ∧
    (t.layerRange.all validLayerRange) ∧ (t.ephemeralPubkey.all fun key => key.length = 32) ∧
    0 ≤ t.chainStageIndex ∧ 0 < t.chainTotalStages ∧ t.chainStageIndex < t.chainTotalStages

def HandoffToken : Type := {t : HandoffTokenArgs // t.accepted = true}

/-! ## `ShardManifest` -/

structure ShardManifest where
  shardId : String
  payloadSha256 : String
  payloadBytes : ℤ
  totalChunks : ℤ
  chunkBytes : ℤ

/-- `_validate_shard_manifest`. -/
def ShardManifest.valid (m : ShardManifest) : Bool :=
  0 ≤ m.payloadBytes ∧ 0 ≤ m.totalChunks ∧ 0 < m.chunkBytes ∧ m.shardId ≠ "" ∧
    m.payloadSha256.length = 64 ∧
    m.payloadSha256.toList.all fun c => c ∈ "0123456789abcdef".toList

/-! ## The messages -/

structure ActivationChunkArgs where
  requestId : String
  sequence : ℤ
  data : Bytes
  chunkSha256 : String
  protocolVersion : ℤ
  messageType : String

def ActivationChunkArgs.accepted (m : ActivationChunkArgs) : Bool :=
  m.requestId ≠ "" ∧ m.chunkSha256 ≠ "" ∧ 0 ≤ m.sequence

/-- `layerRange` is half-open, and the payload is inline or, where there is a manifest,
streamed. -/
structure RunLayerSliceRequestArgs where
  requestId : String
  modelId : String
  layerRange : ℤ × ℤ
  privacyTier : PrivacyLevel
  contentTier : ContentTier
  activationBlob : Bytes
  activationShape : List ℤ
  activationDtype : String
  upstreamToken : HandoffToken
  deadlineUnix : Number
  activationManifest : Option ShardManifest
  streaming : Bool
  maxTokens : Option ℤ
  temperature : Option Number
  decodeMode : DecodeMode
  proposedTokenIds : Option (List ℤ)
  proposedTokenProbs : Option (List Number)
  encryptedProposedTokenProbs : Option Bytes
  protocolVersion : ℤ
  messageType : String

/-- Exactly one of the two payloads. -/
def onePayload (blob : Bytes) (manifest : Option ShardManifest) : Bool :=
  match manifest with
  | some m => m.valid ∧ blob = []
  | none => blob ≠ []

/-- The drafts of a request, set on a verification and on nothing else. -/
def validProposal (mode : DecodeMode) (ids : Option (List ℤ)) : Bool :=
  match ids with
  | some ids =>
      mode = .verify ∧ ids ≠ [] ∧ ids.length < maxVerifyBatchTokens ∧
        ids.all fun token => 0 ≤ token
  | none => mode ≠ .verify

/-- The probabilities of the drafts, in plain or encrypted, and only where there are drafts. -/
def validProbs (ids : Option (List ℤ)) (probs : Option (List Number))
    (encrypted : Option Bytes) : Bool :=
  (probs.all fun probs =>
      (ids.any fun ids => probs.length = ids.length) ∧ probs.all fun p => p.within 1) ∧
    (encrypted.all fun bytes =>
      probs = none ∧ ids.isSome ∧ bytes ≠ [] ∧ bytes.length ≤ 1024)

def RunLayerSliceRequestArgs.accepted (m : RunLayerSliceRequestArgs) : Bool :=
  m.requestId ≠ "" ∧ m.modelId ≠ "" ∧ m.activationDtype ≠ "" ∧
    0 ≤ m.layerRange.1 ∧ m.layerRange.1 < m.layerRange.2 ∧
    (m.activationShape.all fun dim => 0 < dim) ∧
    m.upstreamToken.1.requestId = m.requestId ∧
    onePayload m.activationBlob m.activationManifest ∧
    (m.maxTokens.all fun n => 0 < n) ∧ (m.temperature.all fun t => t.within 2) ∧
    validProposal m.decodeMode m.proposedTokenIds ∧
    validProbs m.proposedTokenIds m.proposedTokenProbs m.encryptedProposedTokenProbs

structure RunLayerSliceResponseArgs where
  requestId : String
  activationBlob : Bytes
  activationShape : List ℤ
  activationDtype : String
  durationSeconds : Number
  teeAttestation : Bytes
  teeType : TEEType
  epsilonSpent : Number
  stageSignatureB64 : String
  stageNodeId : String
  activationManifest : Option ShardManifest
  nextTokenId : Option ℤ
  isTerminal : Bool
  verifiedTokenIds : Option (List ℤ)
  acceptedCount : Option ℤ
  stageInputActivationHash : Option String
  stageOutputActivationHash : Option String
  stageActivationProofB64 : Option String
  stageSettlementSignatureB64 : Option String
  stageSettlementPubkeyB64 : Option String
  stageSettlementExecutedAtUnix : Option ℤ
  protocolVersion : ℤ
  messageType : String

/-- The signals of a tail's verification, which are set together. -/
def validVerified (verified : Option (List ℤ)) (accepted : Option ℤ) : Bool :=
  match verified, accepted with
  | some tokens, some count =>
      tokens ≠ [] ∧ tokens.length ≤ maxVerifyBatchTokens ∧ (tokens.all fun token => 0 ≤ token) ∧
        0 ≤ count ∧ count ≤ tokens.length - 1
  | none, none => true
  | _, _ => false

def RunLayerSliceResponseArgs.accepted (m : RunLayerSliceResponseArgs) : Bool :=
  m.requestId ≠ "" ∧ m.activationDtype ≠ "" ∧ m.stageSignatureB64 ≠ "" ∧ m.stageNodeId ≠ "" ∧
    (m.activationShape.all fun dim => 0 < dim) ∧ !m.durationSeconds.negative ∧
    onePayload m.activationBlob m.activationManifest ∧
    (m.nextTokenId.all fun token => 0 ≤ token) ∧
    validVerified m.verifiedTokenIds m.acceptedCount ∧
    (m.stageSettlementExecutedAtUnix.all fun t => 0 ≤ t)

def RunLayerSliceResponse : Type := {m : RunLayerSliceResponseArgs // m.accepted = true}

structure StageErrorArgs where
  requestId : String
  code : String
  message : String
  protocolVersion : ℤ
  messageType : String

def StageErrorArgs.accepted (m : StageErrorArgs) : Bool := m.requestId ≠ "" ∧ m.code ≠ ""

def finishReasons : List String := ["stop", "max_tokens", "cancelled", "error"]

structure TokenFrameArgs where
  requestId : String
  sequenceIndex : ℤ
  textDelta : String
  tokenId : Option ℤ
  finishReason : Option String
  protocolVersion : ℤ
  messageType : String

def TokenFrameArgs.accepted (m : TokenFrameArgs) : Bool :=
  m.requestId ≠ "" ∧ 0 ≤ m.sequenceIndex ∧ m.finishReason.all fun reason => reason ∈ finishReasons

structure StreamFinalFrame where
  response : RunLayerSliceResponse
  protocolVersion : ℤ
  messageType : String

structure EvictCacheRequestArgs where
  requestId : String
  protocolVersion : ℤ
  upstreamToken : Option HandoffToken
  messageType : String

def EvictCacheRequestArgs.accepted (m : EvictCacheRequestArgs) : Bool := m.requestId ≠ ""

structure EvictCacheResponseArgs where
  requestId : String
  evicted : Bool
  protocolVersion : ℤ
  messageType : String

def EvictCacheResponseArgs.accepted (m : EvictCacheResponseArgs) : Bool := m.requestId ≠ ""

structure RollbackCacheRequestArgs where
  requestId : String
  nPositionsToDrop : ℤ
  replayAcceptedPrefix : Option (List ℤ)
  encryptedReplayAcceptedPrefix : Option Bytes
  targetStageIndex : Option ℤ
  upstreamToken : Option HandoffToken
  protocolVersion : ℤ
  messageType : String

def RollbackCacheRequestArgs.accepted (m : RollbackCacheRequestArgs) : Bool :=
  m.requestId ≠ "" ∧ 0 ≤ m.nPositionsToDrop ∧ m.nPositionsToDrop ≤ maxVerifyBatchTokens ∧
    !(m.replayAcceptedPrefix.isSome ∧ m.encryptedReplayAcceptedPrefix.isSome) ∧
    (m.replayAcceptedPrefix.all fun tokens =>
      tokens.length ≤ maxVerifyBatchTokens ∧ tokens.all fun token => 0 ≤ token) ∧
    (m.encryptedReplayAcceptedPrefix.all fun bytes =>
      bytes ≠ [] ∧ bytes.length ≤ 4096 ∧ m.targetStageIndex.isSome) ∧
    m.targetStageIndex.all fun index => 0 ≤ index ∧ index ≤ 255

structure RollbackCacheResponseArgs where
  requestId : String
  rolledBack : Bool
  actualDropped : ℤ
  protocolVersion : ℤ
  messageType : String

def RollbackCacheResponseArgs.accepted (m : RollbackCacheResponseArgs) : Bool :=
  m.requestId ≠ "" ∧ 0 ≤ m.actualDropped

/-- A message of one of the ten registered types. -/
inductive Message
  | runLayerSliceRequest (m : {m : RunLayerSliceRequestArgs // m.accepted = true})
  | runLayerSliceResponse (m : RunLayerSliceResponse)
  | stageError (m : {m : StageErrorArgs // m.accepted = true})
  | activationChunk (m : {m : ActivationChunkArgs // m.accepted = true})
  | tokenFrame (m : {m : TokenFrameArgs // m.accepted = true})
  | streamFinalFrame (m : StreamFinalFrame)
  | evictCacheRequest (m : {m : EvictCacheRequestArgs // m.accepted = true})
  | evictCacheResponse (m : {m : EvictCacheResponseArgs // m.accepted = true})
  | rollbackCacheRequest (m : {m : RollbackCacheRequestArgs // m.accepted = true})
  | rollbackCacheResponse (m : {m : RollbackCacheResponseArgs // m.accepted = true})

end Prsm.ChainRpc
