import Prsm.ChainRpc.Messages

/-!
# `parse_message` and `encode_message`

Every message type has its own `to_dict` and `from_dict`.  The texts of the errors are left
out; the code that decodes reads none of them.
-/

namespace Prsm.ChainRpc

open Foundations Wire
open Foundations.Json (field lookup)
open Evm (Bytes)
open Settlement (utf8 hex fromhex)

/-- The fields of a decoded object. -/
@[reducible] def Fields : Type := List (String × Json)

/-- What a decoder gives. -/
@[reducible] def Decode (α : Type) : Type := Decoder ProtocolError α

def malformed {α : Type} : Decode α := .error (.protocol .malformed)

/-- The constructor of a dataclass. -/
def construct {α : Type} (accepted : α → Bool) (args : α) :
    Decode {args : α // accepted args = true} :=
  if h : accepted args = true then .ok ⟨args, h⟩ else malformed

/-! ## The values of enumerations -/

def DecodeMode.text : DecodeMode → String
  | prefill => "prefill"
  | incremental => "incremental"
  | verify => "verify"

def DecodeMode.ofText (s : String) : Option DecodeMode :=
  [prefill, incremental, verify].find? fun mode => mode.text = s

def PrivacyLevel.text : PrivacyLevel → String
  | none => "none"
  | standard => "standard"
  | high => "high"
  | maximum => "maximum"

def PrivacyLevel.ofText (s : String) : Option PrivacyLevel :=
  [none, standard, high, maximum].find? fun level => level.text = s

def ContentTier.text : ContentTier → String
  | a => "A"
  | b => "B"
  | c => "C"

def ContentTier.ofText (s : String) : Option ContentTier :=
  [a, b, c].find? fun tier => tier.text = s

def TEEType.text : TEEType → String
  | none => "none"
  | sgx => "sgx"
  | tdx => "tdx"
  | sev => "sev"
  | trustzone => "trustzone"
  | secureEnclave => "secure_enclave"
  | software => "software"

def TEEType.ofText (s : String) : Option TEEType :=
  [none, sgx, tdx, sev, trustzone, secureEnclave, software].find? fun tee => tee.text = s

/-! ## What a field may hold -/

section Pick

def anyText : Json → Option String
  | .str s => some s
  | _ => none

def text (x : Json) : Option String := (anyText x).filter fun s => s ≠ ""

/-- An integer; a truth value is not one. -/
def integer : Json → Option ℤ
  | .int n => some n
  | _ => none

def truth : Json → Option Bool
  | .bool b => some b
  | _ => none

def items : Json → Option (List Json)
  | .array xs => some xs
  | _ => none

def object : Json → Option Fields
  | .object fields => some fields
  | _ => none

def pair : Json → Option (Json × Json)
  | .array [start, stop] => some (start, stop)
  | _ => none

/-- A number that is not a truth value. -/
def plainNumber : Json → Option Json
  | .int n => some (.int n)
  | .float x => some (.float x)
  | _ => none

def numeric (x : Json) : Option Json := if isNumeric x then some x else none

def integers (x : Json) : Option (List ℤ) := (items x).bind fun xs => xs.mapM integer

def plainNumbers (x : Json) : Option (List Json) := (items x).bind fun xs => xs.mapM plainNumber

def hexText (x : Json) : Option Bytes := (anyText x).bind fromhex

def nonemptyHex (x : Json) : Option Bytes := (text x).bind fromhex

/-- The text of an enumeration's value. -/
def named {α : Type} (ofText : String → Option α) (x : Json) : Option α := (text x).bind ofText

def modeText (x : Json) : Option DecodeMode := (anyText x).bind DecodeMode.ofText

def typeTag (expected : String) (x : Json) : Option Unit :=
  (anyText x).bind fun s => if s = expected then some () else none

/-- A value or nothing. -/
def orNull {α : Type} (pick : Json → Option α) : Json → Option (Option α)
  | .null => some none
  | x => (pick x).map some

end Pick

/-! ## Reading a field -/

section Readers

/-- A check of the type of a value. -/
def expect {α : Type} (pick : Json → Option α) (x : Json) : Decode α :=
  match pick x with
  | some a => .ok a
  | none => malformed

variable (d : Fields) (key : String)

/-- `data.get(key)`. -/
def get : Json := field d key .null

def requiredStr : Decode String := expect text (get d key)

def requiredInt : Decode ℤ := expect integer (get d key)

def optionalStr : Decode (Option String) := expect (orNull anyText) (get d key)

def optionalInt : Decode (Option ℤ) := expect (orNull integer) (get d key)

def optionalHex : Decode (Option Bytes) := expect (orNull hexText) (get d key)

/-- A flag, which is off where it is missing. -/
def flag : Decode Bool := expect truth (field d key (.bool false))

def enumeration {α : Type} (ofText : String → Option α) : Decode α :=
  expect (named ofText) (get d key)

variable (py : Python)

def requiredNumber : Decode PyFloat := do
  let x ← expect numeric (get d key)
  toFloat py x

/-- The conversions of the items of a list, one after another. -/
def convertAll {α : Type} (convert : Json → Decode α) : List Json → Decode (List α)
  | [] => .ok []
  | x :: rest => do
      let a ← convert x
      let more ← convertAll convert rest
      return a :: more

def convertOption {α β : Type} (convert : α → Decode β) : Option α → Decode (Option β)
  | none => .ok none
  | some x => do
      let y ← convert x
      return some y

end Readers

/-! ## `ShardManifest` and `HandoffToken` -/

/-- `_shard_manifest_to_dict`. -/
def ShardManifest.toDict (m : ShardManifest) : Fields :=
  [("shard_id", .str m.shardId), ("payload_sha256", .str m.payloadSha256),
    ("payload_bytes", .int m.payloadBytes), ("total_chunks", .int m.totalChunks),
    ("chunk_bytes", .int m.chunkBytes)]

/-- `_shard_manifest_from_dict`. -/
def ShardManifest.fromDict (d : Fields) : Option ShardManifest := do
  let shardId ← text (get d "shard_id")
  let payloadSha256 ← text (get d "payload_sha256")
  let payloadBytes ← integer (get d "payload_bytes")
  let totalChunks ← integer (get d "total_chunks")
  let chunkBytes ← integer (get d "chunk_bytes")
  return { shardId, payloadSha256, payloadBytes, totalChunks, chunkBytes }

def manifest (x : Json) : Option ShardManifest := (object x).bind ShardManifest.fromDict

def optionalManifest (d : Fields) : Decode (Option ShardManifest) :=
  expect (orNull manifest) (get d "activation_manifest")

def Number.toJson : Number → Json
  | int n => .int n
  | float x => .float x

/-- A field that is left out where it is not set. -/
def whenSet {α : Type} (key : String) (toJson : α → Json) : Option α → Fields
  | none => []
  | some a => [(key, toJson a)]

def intsJson (ints : List ℤ) : Json := .array (ints.map .int)

def hexJson (bytes : Bytes) : Json := .str (hex bytes)

def manifestJson (m : ShardManifest) : Json := .object m.toDict

def rangeJson (range : ℤ × ℤ) : Json := .array [.int range.1, .int range.2]

def HandoffTokenArgs.toDict (t : HandoffTokenArgs) : Fields :=
  [("request_id", .str t.requestId), ("settler_node_id", .str t.settlerNodeId),
    ("chain_stage_index", .int t.chainStageIndex),
    ("chain_total_stages", .int t.chainTotalStages),
    ("deadline_unix", t.deadlineUnix.toJson), ("signature_b64", .str t.signatureB64)] ++
  whenSet "ephemeral_pubkey_hex" hexJson t.ephemeralPubkey ++
  whenSet "layer_range" rangeJson t.layerRange ++
  whenSet "model_id" .str t.modelId

/-- The layer range of a token; the constructor checks a list of whatever was sent. -/
def tokenRange : Json → Option (Option (ℤ × ℤ))
  | .array [.int start, .int stop] =>
      if validLayerRange (start, stop) then some (some (start, stop)) else none
  | .array _ => none
  | _ => some none

def HandoffToken.fromDict (py : Python) (d : Fields) : Decode HandoffToken := do
  let ephemeralPubkey ← optionalHex d "ephemeral_pubkey_hex"
  let requestId ← requiredStr d "request_id"
  let settlerNodeId ← requiredStr d "settler_node_id"
  let chainStageIndex ← requiredInt d "chain_stage_index"
  let chainTotalStages ← requiredInt d "chain_total_stages"
  let deadlineUnix ← requiredNumber d "deadline_unix" py
  let signatureB64 ← requiredStr d "signature_b64"
  let layerRange ← expect tokenRange (get d "layer_range")
  construct HandoffTokenArgs.accepted
    { requestId, settlerNodeId, chainStageIndex, chainTotalStages,
      deadlineUnix := .float deadlineUnix, signatureB64, ephemeralPubkey, layerRange,
      modelId := anyText (get d "model_id") }

/-- The fields that a token is read from; another value has no `get`. -/
def tokenFields : Json → Decode Fields
  | .object fields => .ok fields
  | _ => .error .attributeError

/-- A token that is read where the field is true. -/
def optionalToken (py : Python) (d : Fields) : Decode (Option HandoffToken) :=
  if (get d "upstream_token").truthy then do
    let fields ← tokenFields (get d "upstream_token")
    some <$> HandoffToken.fromDict py fields
  else .ok none

def expectType (d : Fields) (expected : String) : Decode Unit :=
  expect (typeTag expected) (get d "type")

/-! ## `RunLayerSliceRequest` -/

/-- `float(x)` of a number that is not too large. -/
def Number.asFloat (py : Python) : Number → PyFloat
  | int n => py.floatOf (nearestDouble n)
  | float x => x

def probsJson (py : Python) (probs : List Number) : Json :=
  .array (probs.map fun p => .float (p.asFloat py))

def RunLayerSliceRequestArgs.toDict (py : Python) (m : RunLayerSliceRequestArgs) : Fields :=
  [("type", .str m.messageType), ("protocol_version", .int m.protocolVersion),
    ("request_id", .str m.requestId), ("model_id", .str m.modelId),
    ("layer_range", rangeJson m.layerRange), ("privacy_tier", .str m.privacyTier.text),
    ("content_tier", .str m.contentTier.text),
    ("activation_blob_hex", hexJson m.activationBlob),
    ("activation_shape", intsJson m.activationShape),
    ("activation_dtype", .str m.activationDtype),
    ("upstream_token", .object m.upstreamToken.1.toDict),
    ("deadline_unix", m.deadlineUnix.toJson)] ++
  whenSet "activation_manifest" manifestJson m.activationManifest ++
  (if m.streaming then [("streaming", .bool true)] else []) ++
  whenSet "max_tokens" .int m.maxTokens ++
  whenSet "temperature" (fun t => .float (t.asFloat py)) m.temperature ++
  (if m.decodeMode ≠ .prefill then [("decode_mode", .str m.decodeMode.text)] else []) ++
  whenSet "proposed_token_ids" intsJson m.proposedTokenIds ++
  whenSet "proposed_token_probs" (probsJson py) m.proposedTokenProbs ++
  whenSet "encrypted_proposed_token_probs_hex" hexJson m.encryptedProposedTokenProbs

def RunLayerSliceRequest.fromDict (py : Python) (d : Fields) :
    Decode {m : RunLayerSliceRequestArgs // m.accepted = true} := do
  expectType d "run_layer_slice_request"
  let tokenRaw ← expect object (get d "upstream_token")
  let layerRangeRaw ← expect pair (get d "layer_range")
  let shapeRaw ← expect items (get d "activation_shape")
  let activationBlob ← expect hexText (get d "activation_blob_hex")
  let privacyTier ← enumeration d "privacy_tier" PrivacyLevel.ofText
  let contentTier ← enumeration d "content_tier" ContentTier.ofText
  let activationManifest ← optionalManifest d
  let streaming ← flag d "streaming"
  let maxTokens ← optionalInt d "max_tokens"
  let temperatureRaw ← expect (orNull plainNumber) (get d "temperature")
  let temperature ← convertOption (toFloat py) temperatureRaw
  let decodeMode ← expect (orNull modeText) (get d "decode_mode")
  let proposedTokenIds ← expect (orNull integers) (get d "proposed_token_ids")
  let probsRaw ← expect (orNull plainNumbers) (get d "proposed_token_probs")
  let probs ← convertOption (convertAll (toFloat py)) probsRaw
  let encryptedProposedTokenProbs ← optionalHex d "encrypted_proposed_token_probs_hex"
  let requestId ← requiredStr d "request_id"
  let modelId ← requiredStr d "model_id"
  -- a value that `int` does not take is not caught here, nor among the dimensions
  let start ← toInt py layerRangeRaw.1
  let stop ← toInt py layerRangeRaw.2
  let activationShape ← convertAll (toInt py) shapeRaw
  let activationDtype ← requiredStr d "activation_dtype"
  let upstreamToken ← HandoffToken.fromDict py tokenRaw
  let deadlineUnix ← requiredNumber d "deadline_unix" py
  let protocolVersion ← requiredInt d "protocol_version"
  construct RunLayerSliceRequestArgs.accepted
    { requestId, modelId, layerRange := (start, stop), privacyTier, contentTier, activationBlob,
      activationShape, activationDtype, upstreamToken, deadlineUnix := .float deadlineUnix,
      activationManifest, streaming, maxTokens, temperature := temperature.map .float,
      decodeMode := decodeMode.getD .prefill, proposedTokenIds,
      proposedTokenProbs := probs.map fun ps => ps.map .float, encryptedProposedTokenProbs,
      protocolVersion, messageType := "run_layer_slice_request" }

/-! ## `RunLayerSliceResponse` -/

def RunLayerSliceResponseArgs.toDict (m : RunLayerSliceResponseArgs) : Fields :=
  [("type", .str m.messageType), ("protocol_version", .int m.protocolVersion),
    ("request_id", .str m.requestId), ("activation_blob_hex", hexJson m.activationBlob),
    ("activation_shape", intsJson m.activationShape),
    ("activation_dtype", .str m.activationDtype),
    ("duration_seconds", m.durationSeconds.toJson),
    ("tee_attestation_hex", hexJson m.teeAttestation), ("tee_type", .str m.teeType.text),
    ("epsilon_spent", m.epsilonSpent.toJson),
    ("stage_signature_b64", .str m.stageSignatureB64), ("stage_node_id", .str m.stageNodeId)] ++
  whenSet "activation_manifest" manifestJson m.activationManifest ++
  whenSet "next_token_id" .int m.nextTokenId ++
  (if m.isTerminal then [("is_terminal", .bool true)] else []) ++
  whenSet "verified_token_ids" intsJson m.verifiedTokenIds ++
  whenSet "accepted_count" .int m.acceptedCount ++
  whenSet "stage_input_activation_hash" .str m.stageInputActivationHash ++
  whenSet "stage_output_activation_hash" .str m.stageOutputActivationHash ++
  whenSet "stage_activation_proof_b64" .str m.stageActivationProofB64 ++
  whenSet "stage_settlement_signature_b64" .str m.stageSettlementSignatureB64 ++
  whenSet "stage_settlement_pubkey_b64" .str m.stageSettlementPubkeyB64 ++
  whenSet "stage_settlement_executed_at_unix" .int m.stageSettlementExecutedAtUnix

/-- The tokens of a verification, no more than the cap. -/
def verifiedTokens (x : Json) : Option (List ℤ) :=
  ((items x).filter fun xs => xs.length ≤ maxVerifyBatchTokens).bind fun xs => xs.mapM integer

def RunLayerSliceResponse.fromDict (py : Python) (d : Fields) : Decode RunLayerSliceResponse := do
  expectType d "run_layer_slice_response"
  let shapeRaw ← expect items (get d "activation_shape")
  let activationBlob ← expect hexText (get d "activation_blob_hex")
  -- the attestation must not be empty here
  let teeAttestation ← expect nonemptyHex (get d "tee_attestation_hex")
  let teeType ← enumeration d "tee_type" TEEType.ofText
  let activationManifest ← optionalManifest d
  let nextTokenId ← optionalInt d "next_token_id"
  let isTerminal ← flag d "is_terminal"
  let verifiedTokenIds ← expect (orNull verifiedTokens) (get d "verified_token_ids")
  let acceptedCount ← optionalInt d "accepted_count"
  let requestId ← requiredStr d "request_id"
  let activationShape ← convertAll (toInt py) shapeRaw
  let activationDtype ← requiredStr d "activation_dtype"
  let durationSeconds ← requiredNumber d "duration_seconds" py
  let epsilonSpent ← requiredNumber d "epsilon_spent" py
  let stageSignatureB64 ← requiredStr d "stage_signature_b64"
  let stageNodeId ← requiredStr d "stage_node_id"
  let stageInputActivationHash ← optionalStr d "stage_input_activation_hash"
  let stageOutputActivationHash ← optionalStr d "stage_output_activation_hash"
  let stageActivationProofB64 ← optionalStr d "stage_activation_proof_b64"
  let stageSettlementSignatureB64 ← optionalStr d "stage_settlement_signature_b64"
  let stageSettlementPubkeyB64 ← optionalStr d "stage_settlement_pubkey_b64"
  let stageSettlementExecutedAtUnix ← optionalInt d "stage_settlement_executed_at_unix"
  let protocolVersion ← requiredInt d "protocol_version"
  construct RunLayerSliceResponseArgs.accepted
    { requestId, activationBlob, activationShape, activationDtype,
      durationSeconds := .float durationSeconds, teeAttestation, teeType,
      epsilonSpent := .float epsilonSpent, stageSignatureB64, stageNodeId, activationManifest,
      nextTokenId, isTerminal, verifiedTokenIds, acceptedCount, stageInputActivationHash,
      stageOutputActivationHash, stageActivationProofB64, stageSettlementSignatureB64,
      stageSettlementPubkeyB64, stageSettlementExecutedAtUnix, protocolVersion,
      messageType := "run_layer_slice_response" }

/-! ## The other messages -/

def StageErrorArgs.toDict (m : StageErrorArgs) : Fields :=
  [("type", .str m.messageType), ("protocol_version", .int m.protocolVersion),
    ("request_id", .str m.requestId), ("code", .str m.code), ("message", .str m.message)]

def StageError.fromDict (d : Fields) : Decode {m : StageErrorArgs // m.accepted = true} := do
  expectType d "stage_error"
  let requestId ← requiredStr d "request_id"
  let code ← requiredStr d "code"
  let protocolVersion ← requiredInt d "protocol_version"
  construct StageErrorArgs.accepted
    { requestId, code, message := (anyText (get d "message")).getD "", protocolVersion,
      messageType := "stage_error" }

def ActivationChunkArgs.toDict (m : ActivationChunkArgs) : Fields :=
  [("type", .str m.messageType), ("protocol_version", .int m.protocolVersion),
    ("request_id", .str m.requestId), ("sequence", .int m.sequence),
    ("data_hex", hexJson m.data), ("chunk_sha256", .str m.chunkSha256)]

def ActivationChunk.fromDict (d : Fields) :
    Decode {m : ActivationChunkArgs // m.accepted = true} := do
  expectType d "activation_chunk"
  -- the data must not be empty here
  let data ← expect nonemptyHex (get d "data_hex")
  let requestId ← requiredStr d "request_id"
  let sequence ← requiredInt d "sequence"
  let chunkSha256 ← requiredStr d "chunk_sha256"
  let protocolVersion ← requiredInt d "protocol_version"
  construct ActivationChunkArgs.accepted
    { requestId, sequence, data, chunkSha256, protocolVersion,
      messageType := "activation_chunk" }

def TokenFrameArgs.toDict (m : TokenFrameArgs) : Fields :=
  [("type", .str m.messageType), ("protocol_version", .int m.protocolVersion),
    ("request_id", .str m.requestId), ("sequence_index", .int m.sequenceIndex),
    ("text_delta", .str m.textDelta)] ++
  whenSet "token_id" .int m.tokenId ++ whenSet "finish_reason" .str m.finishReason

def TokenFrame.fromDict (d : Fields) : Decode {m : TokenFrameArgs // m.accepted = true} := do
  expectType d "token_frame"
  let tokenId ← optionalInt d "token_id"
  let finishReason ← optionalStr d "finish_reason"
  let textDelta ← expect anyText (get d "text_delta")
  let requestId ← requiredStr d "request_id"
  let sequenceIndex ← requiredInt d "sequence_index"
  let protocolVersion ← requiredInt d "protocol_version"
  construct TokenFrameArgs.accepted
    { requestId, sequenceIndex, textDelta, tokenId, finishReason, protocolVersion,
      messageType := "token_frame" }

def StreamFinalFrame.toDict (m : StreamFinalFrame) : Fields :=
  [("type", .str m.messageType), ("protocol_version", .int m.protocolVersion),
    ("response", .object m.response.1.toDict)]

def StreamFinalFrame.fromDict (py : Python) (d : Fields) : Decode StreamFinalFrame := do
  expectType d "stream_final_frame"
  let responseRaw ← expect object (get d "response")
  let response ← RunLayerSliceResponse.fromDict py responseRaw
  let protocolVersion ← requiredInt d "protocol_version"
  return { response, protocolVersion, messageType := "stream_final_frame" }

def tokenJson (token : HandoffToken) : Json := .object token.1.toDict

def EvictCacheRequestArgs.toDict (m : EvictCacheRequestArgs) : Fields :=
  [("type", .str m.messageType), ("protocol_version", .int m.protocolVersion),
    ("request_id", .str m.requestId)] ++
  whenSet "upstream_token" tokenJson m.upstreamToken

def EvictCacheRequest.fromDict (py : Python) (d : Fields) :
    Decode {m : EvictCacheRequestArgs // m.accepted = true} := do
  expectType d "evict_cache_request"
  let requestId ← requiredStr d "request_id"
  let protocolVersion ← requiredInt d "protocol_version"
  let upstreamToken ← optionalToken py d
  construct EvictCacheRequestArgs.accepted
    { requestId, protocolVersion, upstreamToken, messageType := "evict_cache_request" }

def EvictCacheResponseArgs.toDict (m : EvictCacheResponseArgs) : Fields :=
  [("type", .str m.messageType), ("protocol_version", .int m.protocolVersion),
    ("request_id", .str m.requestId), ("evicted", .bool m.evicted)]

def EvictCacheResponse.fromDict (d : Fields) :
    Decode {m : EvictCacheResponseArgs // m.accepted = true} := do
  expectType d "evict_cache_response"
  let evicted ← expect truth (get d "evicted")
  let requestId ← requiredStr d "request_id"
  let protocolVersion ← requiredInt d "protocol_version"
  construct EvictCacheResponseArgs.accepted
    { requestId, evicted, protocolVersion, messageType := "evict_cache_response" }

def RollbackCacheRequestArgs.toDict (m : RollbackCacheRequestArgs) : Fields :=
  [("type", .str m.messageType), ("protocol_version", .int m.protocolVersion),
    ("request_id", .str m.requestId), ("n_positions_to_drop", .int m.nPositionsToDrop)] ++
  whenSet "replay_accepted_prefix" intsJson m.replayAcceptedPrefix ++
  whenSet "encrypted_replay_accepted_prefix_hex" hexJson m.encryptedReplayAcceptedPrefix ++
  whenSet "target_stage_index" .int m.targetStageIndex ++
  whenSet "upstream_token" tokenJson m.upstreamToken

def RollbackCacheRequest.fromDict (py : Python) (d : Fields) :
    Decode {m : RollbackCacheRequestArgs // m.accepted = true} := do
  expectType d "rollback_cache_request"
  let nPositionsToDrop ← requiredInt d "n_positions_to_drop"
  let replayRaw ← expect (orNull items) (get d "replay_accepted_prefix")
  let replayAcceptedPrefix ← convertOption (convertAll (toInt py)) replayRaw
  let encryptedReplayAcceptedPrefix ← optionalHex d "encrypted_replay_accepted_prefix_hex"
  let targetStageIndex ← optionalInt d "target_stage_index"
  let requestId ← requiredStr d "request_id"
  let upstreamToken ← optionalToken py d
  let protocolVersion ← requiredInt d "protocol_version"
  construct RollbackCacheRequestArgs.accepted
    { requestId, nPositionsToDrop, replayAcceptedPrefix, encryptedReplayAcceptedPrefix,
      targetStageIndex, upstreamToken, protocolVersion,
      messageType := "rollback_cache_request" }

def RollbackCacheResponseArgs.toDict (m : RollbackCacheResponseArgs) : Fields :=
  [("type", .str m.messageType), ("protocol_version", .int m.protocolVersion),
    ("request_id", .str m.requestId), ("rolled_back", .bool m.rolledBack),
    ("actual_dropped", .int m.actualDropped)]

def RollbackCacheResponse.fromDict (d : Fields) :
    Decode {m : RollbackCacheResponseArgs // m.accepted = true} := do
  expectType d "rollback_cache_response"
  let rolledBack ← expect truth (get d "rolled_back")
  let actualDropped ← requiredInt d "actual_dropped"
  let requestId ← requiredStr d "request_id"
  let protocolVersion ← requiredInt d "protocol_version"
  construct RollbackCacheResponseArgs.accepted
    { requestId, rolledBack, actualDropped, protocolVersion,
      messageType := "rollback_cache_response" }

/-! ## Any message -/

/-- `_MESSAGE_TYPE_REGISTRY`. -/
def registry (py : Python) : List (String × (Fields → Decode Message)) :=
  [("run_layer_slice_request",
      fun d => .runLayerSliceRequest <$> RunLayerSliceRequest.fromDict py d),
    ("run_layer_slice_response",
      fun d => .runLayerSliceResponse <$> RunLayerSliceResponse.fromDict py d),
    ("stage_error", fun d => .stageError <$> StageError.fromDict d),
    ("activation_chunk", fun d => .activationChunk <$> ActivationChunk.fromDict d),
    ("token_frame", fun d => .tokenFrame <$> TokenFrame.fromDict d),
    ("stream_final_frame", fun d => .streamFinalFrame <$> StreamFinalFrame.fromDict py d),
    ("evict_cache_request", fun d => .evictCacheRequest <$> EvictCacheRequest.fromDict py d),
    ("evict_cache_response", fun d => .evictCacheResponse <$> EvictCacheResponse.fromDict d),
    ("rollback_cache_request",
      fun d => .rollbackCacheRequest <$> RollbackCacheRequest.fromDict py d),
    ("rollback_cache_response",
      fun d => .rollbackCacheResponse <$> RollbackCacheResponse.fromDict d)]

/-- The version that a message says it has; a truth value is not one. -/
def versionOf (d : Fields) : Decode ℤ :=
  match lookup "protocol_version" d with
  | some (.int n) =>
      if n ∈ supportedProtocolVersions then .ok n else .error (.protocol .versionMismatch)
  | _ => .error (.protocol .versionMismatch)

/-- What `json.loads` raises, of which one exception is caught. -/
def loaded (py : Python) (payload : Bytes) : Decode Json :=
  match py.loads payload with
  | .ok v => .ok v
  | .error .jsonDecodeError => malformed
  | .error .unicodeDecodeError => .error .unicodeDecodeError
  | .error .recursionError => .error .recursionError

/-- The constructor that is registered for the type of a message. -/
def constructorOf (py : Python) (d : Fields) : Decode (Fields → Decode Message) :=
  match get d "type" with
  | .str msgType =>
      match (registry py).lookup msgType with
      | some constructor => .ok constructor
      | none => .error (.protocol .unknownType)
  | _ => malformed

def checkSize (payload : Bytes) : Decode Unit :=
  if payload.length > maxHandshakeBytes then malformed else .ok ()

def parseMessage (py : Python) (payload : Bytes) : Decode Message := do
  checkSize payload
  let v ← loaded py payload
  let d ← expect object v
  let constructor ← constructorOf py d
  let _ ← versionOf d
  constructor d

def Message.toDict (py : Python) : Message → Fields
  | runLayerSliceRequest m => m.1.toDict py
  | runLayerSliceResponse m => m.1.toDict
  | stageError m => m.1.toDict
  | activationChunk m => m.1.toDict
  | tokenFrame m => m.1.toDict
  | streamFinalFrame m => m.toDict
  | evictCacheRequest m => m.1.toDict
  | evictCacheResponse m => m.1.toDict
  | rollbackCacheRequest m => m.1.toDict
  | rollbackCacheResponse m => m.1.toDict

def encodeMessage (py : Python) (m : Message) : Bytes :=
  utf8 (Json.object (m.toDict py)).text

end Prsm.ChainRpc
