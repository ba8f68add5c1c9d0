import Prsm.Wire.Bytes
import Prsm.Wire.Python

/-!
# The messages of the embedding DHT

Requests and responses of the embedding lane and of the fingerprint lane, `parse_message`,
`encode_message`, and the bytes that a creator signs.  The texts of the protocol's errors are
kept, for the server repeats them to the peer.
-/

namespace Prsm.EmbeddingDht

open Foundations Wire
open Foundations.Json (field)
open Evm (Bytes)
open Settlement (utf8)

/-! ## Constants -/

def protocolVersion : ℤ := 1

def maxMessageBytes : ℕ := 256 * 1024

def maxProvidersPerResponse : ℕ := 1024

def maxVectorDimension : ℤ := 8192

def maxFingerprintPayloadBytes : ℕ := 128 * 1024

def allowedFingerprintKinds : List String :=
  ["image-phash", "audio-chromaprint", "video-multihash", "structural"]

def allowedDtypes : List String := ["float32"]

def signingDomainTag : Bytes := utf8 "PRSM-PROV-1/EmbeddingResponse/v1"

def fingerprintSigningDomainTag : Bytes := utf8 "PRSM-PROV-1/Fingerprint/v1"

/-! ## Errors -/

inductive ProtocolError
  | malformed (message : String)
  | unknownMessageType (message : String)
  | incompatibleProtocolVersion (message : String)
  deriving DecidableEq

/-- `str(exc)`. -/
def ProtocolError.text : ProtocolError → String
  | malformed message | unknownMessageType message | incompatibleProtocolVersion message =>
      message

/-- The fields of a decoded object. -/
@[reducible] def Fields : Type := List (String × Json)

/-- What a decoder gives. -/
@[reducible] def Decode (α : Type) : Type := Decoder ProtocolError α

/-- `raise MalformedMessageError(…)`. -/
def malformed {α : Type} (message : String) : Decode α := .error (.protocol (.malformed message))

/-- `if c: raise MalformedMessageError(…)`. -/
def refuseIf (c : Prop) [Decidable c] (message : String) : Decode Unit :=
  if c then malformed message else .ok ()

/-- What the messages and the index files use of the language besides `Python`: the text of a
value and of a failed parse, and `float` of a text. -/
structure Runtime extends Python where
  repr : Json → String
  jsonDecodeError : Bytes → String
  floatOfText : String → Option PyFloat

/-! ## Numbers -/

/-- A value that `isinstance(x, int)` accepts. -/
inductive Integer
  | bool (b : Bool)
  | int (n : ℤ)

namespace Integer

def value : Integer → ℤ
  | bool b => if b then 1 else 0
  | int n => n

def toJson : Integer → Json
  | bool b => .bool b
  | int n => .int n

def text : Integer → String
  | bool b => if b then "True" else "False"
  | int n => toString n

end Integer

/-- A value that `isinstance(x, (int, float))` accepts. -/
inductive Number
  | integer (n : Integer)
  | float (x : PyFloat)

namespace Number

def toJson : Number → Json
  | integer n => n.toJson
  | float x => .float x

/-- The exact value, unless it is infinite or not a number. -/
def value : Number → Option ℚ
  | integer n => some n.value
  | float x => x.value

/-- `float(x)`. -/
def toFloat {ε : Type} (py : Python) (x : Number) : Decoder ε PyFloat := Wire.toFloat py x.toJson

end Number

/-! ## Validation helpers -/

def typeName : Json → String
  | .null => "NoneType"
  | .bool _ => "bool"
  | .int _ => "int"
  | .float _ => "float"
  | .str _ => "str"
  | .array _ => "list"
  | .object _ => "dict"

section Helpers

/-- `_validate_str_field` of a string. -/
def validateStrField (name value : String) : Decode Unit :=
  refuseIf (value = "") (name ++ " must be non-empty")

variable (rt : Runtime) (d : Fields) (key : String)

/-- `data.get(key)`. -/
def get : Json := field d key .null

def expectType (expected : String) : Decode Unit :=
  match get d "type" with
  | .str s =>
      refuseIf (s ≠ expected)
        ("expected type=" ++ rt.repr (.str expected) ++ ", got " ++ rt.repr (.str s))
  | x => malformed ("expected type=" ++ rt.repr (.str expected) ++ ", got " ++ rt.repr x)

def requiredStr : Decode String :=
  match get d key with
  | .str s => do
      refuseIf (s = "") (key ++ " must be non-empty")
      return s
  | x => malformed (key ++ " must be a string, got " ++ typeName x)

def requiredInt : Decode Integer :=
  match get d key with
  | .bool b => .ok (.bool b)
  | .int n => .ok (.int n)
  | x => malformed (key ++ " must be an int, got " ++ typeName x)

/-- The check of `created_at` before the other fields are read. -/
def numericCreatedAt : Decode Number :=
  match get d "created_at" with
  | .bool b => .ok (.integer (.bool b))
  | .int n => .ok (.integer (.int n))
  | .float x => .ok (.float x)
  | x => malformed ("created_at must be numeric, got " ++ typeName x)

/-- `_validate_fingerprint_kind` of a string. -/
def validateFingerprintKind (kind : String) : Decode Unit :=
  refuseIf (kind ∉ allowedFingerprintKinds)
    ("fingerprint_kind must be one of ['audio-chromaprint', 'image-phash', " ++
      "'structural', 'video-multihash'], got " ++ rt.repr (.str kind))

def validateDtype (dtype : String) : Decode Unit :=
  refuseIf (dtype ∉ allowedDtypes)
    ("dtype must be one of ['float32'], got " ++ rt.repr (.str dtype))

def exceedsDimension (dimension : Integer) : String :=
  "dimension exceeds MAX_VECTOR_DIMENSION (" ++ dimension.text ++ " > " ++
    toString maxVectorDimension ++ ")"

end Helpers

/-- A request of either lane: `subject` is its `model_id` or its `fingerprint_kind`. -/
structure LookupRequest where
  contentHash : String
  subject : String
  requestId : String
  protocolVersion : Integer := .int EmbeddingDht.protocolVersion

namespace LookupRequest

def postInit (validateSubject : String → Decode Unit) (m : LookupRequest) : Decode Unit := do
  validateStrField "content_hash" m.contentHash
  validateSubject m.subject
  validateStrField "request_id" m.requestId

def toDict (messageType subjectKey : String) (m : LookupRequest) : Fields :=
  [("type", .str messageType), ("protocol_version", m.protocolVersion.toJson),
    ("content_hash", .str m.contentHash), (subjectKey, .str m.subject),
    ("request_id", .str m.requestId)]

def fromDict (rt : Runtime) (messageType subjectKey : String)
    (validateSubject : String → Decode Unit) (d : Fields) : Decode LookupRequest := do
  expectType rt d messageType
  let contentHash ← requiredStr d "content_hash"
  let subject ← requiredStr d subjectKey
  let requestId ← requiredStr d "request_id"
  let protocolVersion ← requiredInt d "protocol_version"
  let m : LookupRequest := { contentHash, subject, requestId, protocolVersion }
  m.postInit validateSubject
  return m

end LookupRequest

def FindEmbeddingRequest.postInit : LookupRequest → Decode Unit :=
  LookupRequest.postInit (validateStrField "model_id")

def FindEmbeddingRequest.toDict : LookupRequest → Fields :=
  LookupRequest.toDict "find_embedding" "model_id"

def FindEmbeddingRequest.fromDict (rt : Runtime) : Fields → Decode LookupRequest :=
  LookupRequest.fromDict rt "find_embedding" "model_id" (validateStrField "model_id")

def FetchEmbeddingRequest.postInit : LookupRequest → Decode Unit :=
  LookupRequest.postInit (validateStrField "model_id")

def FetchEmbeddingRequest.toDict : LookupRequest → Fields :=
  LookupRequest.toDict "fetch_embedding" "model_id"

def FetchEmbeddingRequest.fromDict (rt : Runtime) : Fields → Decode LookupRequest :=
  LookupRequest.fromDict rt "fetch_embedding" "model_id" (validateStrField "model_id")

def FindFingerprintRequest.postInit (rt : Runtime) : LookupRequest → Decode Unit :=
  LookupRequest.postInit (validateFingerprintKind rt)

def FindFingerprintRequest.toDict : LookupRequest → Fields :=
  LookupRequest.toDict "find_fingerprint" "fingerprint_kind"

def FindFingerprintRequest.fromDict (rt : Runtime) : Fields → Decode LookupRequest :=
  LookupRequest.fromDict rt "find_fingerprint" "fingerprint_kind" (validateFingerprintKind rt)

def FetchFingerprintRequest.postInit (rt : Runtime) : LookupRequest → Decode Unit :=
  LookupRequest.postInit (validateFingerprintKind rt)

def FetchFingerprintRequest.toDict : LookupRequest → Fields :=
  LookupRequest.toDict "fetch_fingerprint" "fingerprint_kind"

def FetchFingerprintRequest.fromDict (rt : Runtime) : Fields → Decode LookupRequest :=
  LookupRequest.fromDict rt "fetch_fingerprint" "fingerprint_kind" (validateFingerprintKind rt)

/-! ## Providers -/

/-- A provider; the checks of its constructor. -/
structure ProviderInfo where
  nodeId : String
  address : String
  nodeId_ne : nodeId ≠ ""
  hasPort : ':' ∈ address.toList

namespace ProviderInfo

/-- `ProviderInfo(node_id, address)`. -/
def create (rt : Runtime) (nodeId address : String) : Decode ProviderInfo :=
  if hNode : nodeId = "" then malformed "node_id must be non-empty"
  else if address = "" then malformed "address must be non-empty"
  else if hPort : ':' ∈ address.toList then .ok ⟨nodeId, address, hNode, hPort⟩
  else malformed ("address must be 'host:port', got " ++ rt.repr (.str address))

def toDict (p : ProviderInfo) : Fields :=
  [("node_id", .str p.nodeId), ("address", .str p.address)]

def fromDict (rt : Runtime) (d : Fields) : Decode ProviderInfo := do
  let nodeId ← requiredStr d "node_id"
  let address ← requiredStr d "address"
  create rt nodeId address

/-- What is read where a provider should be; only an object has `get`. -/
def read (rt : Runtime) : Json → Decode ProviderInfo
  | .object d => fromDict rt d
  | _ => .error .attributeError

/-- The entries of a list, one after another. -/
def readAll (rt : Runtime) : List Json → Decode (List ProviderInfo)
  | [] => .ok []
  | x :: rest => do
      let p ← read rt x
      let more ← readAll rt rest
      return p :: more

end ProviderInfo

structure ProvidersResponse where
  requestId : String
  providers : List ProviderInfo
  protocolVersion : Integer := .int EmbeddingDht.protocolVersion

namespace ProvidersResponse

def postInit (m : ProvidersResponse) : Decode Unit := validateStrField "request_id" m.requestId

def toDict (messageType : String) (m : ProvidersResponse) : Fields :=
  [("type", .str messageType), ("protocol_version", m.protocolVersion.toJson),
    ("request_id", .str m.requestId),
    ("providers", .array (m.providers.map fun p => .object p.toDict))]

/-- The list of a response, with no more entries than the cap. -/
def providersRaw (d : Fields) : Decode (List Json) :=
  match get d "providers" with
  | .array xs => do
      refuseIf (maxProvidersPerResponse < xs.length)
        ("providers list exceeds MAX_PROVIDERS_PER_RESPONSE (" ++ toString xs.length ++ " > " ++
          toString maxProvidersPerResponse ++ ")")
      return xs
  | x => malformed ("providers must be a list, got " ++ typeName x)

def fromDict (rt : Runtime) (messageType : String) (d : Fields) : Decode ProvidersResponse := do
  expectType rt d messageType
  let raw ← providersRaw d
  let requestId ← requiredStr d "request_id"
  -- an entry that is no object raises `AttributeError` here
  let providers ← ProviderInfo.readAll rt raw
  let protocolVersion ← requiredInt d "protocol_version"
  let m : ProvidersResponse := { requestId, providers, protocolVersion }
  m.postInit
  return m

end ProvidersResponse

def EmbeddingProvidersResponse.toDict : ProvidersResponse → Fields :=
  ProvidersResponse.toDict "embedding_providers"

def EmbeddingProvidersResponse.fromDict (rt : Runtime) : Fields → Decode ProvidersResponse :=
  ProvidersResponse.fromDict rt "embedding_providers"

def FingerprintProvidersResponse.toDict : ProvidersResponse → Fields :=
  ProvidersResponse.toDict "fingerprint_providers"

def FingerprintProvidersResponse.fromDict (rt : Runtime) : Fields → Decode ProvidersResponse :=
  ProvidersResponse.fromDict rt "fingerprint_providers"

/-! ## `EmbeddingResponse` -/

structure EmbeddingResponse where
  requestId : String
  contentHash : String
  modelId : String
  dimension : Integer
  dtype : String
  vectorB64 : String
  creatorId : String
  createdAt : Number
  signatureB64 : String
  protocolVersion : Integer := .int EmbeddingDht.protocolVersion

namespace EmbeddingResponse

def postInit (rt : Runtime) (m : EmbeddingResponse) : Decode Unit := do
  validateStrField "request_id" m.requestId
  validateStrField "content_hash" m.contentHash
  validateStrField "model_id" m.modelId
  validateStrField "dtype" m.dtype
  validateStrField "vector_b64" m.vectorB64
  validateStrField "creator_id" m.creatorId
  validateStrField "signature_b64" m.signatureB64
  refuseIf (m.dimension.value ≤ 0) ("dimension must be positive, got " ++ m.dimension.text)
  refuseIf (maxVectorDimension < m.dimension.value) (exceedsDimension m.dimension)
  validateDtype rt m.dtype

def toDict (m : EmbeddingResponse) : Fields :=
  [("type", .str "embedding_response"), ("protocol_version", m.protocolVersion.toJson),
    ("request_id", .str m.requestId), ("content_hash", .str m.contentHash),
    ("model_id", .str m.modelId), ("dimension", m.dimension.toJson), ("dtype", .str m.dtype),
    ("vector_b64", .str m.vectorB64), ("creator_id", .str m.creatorId),
    ("created_at", m.createdAt.toJson), ("signature_b64", .str m.signatureB64)]

def fromDict (rt : Runtime) (d : Fields) : Decode EmbeddingResponse := do
  expectType rt d "embedding_response"
  let createdAt ← numericCreatedAt d
  let requestId ← requiredStr d "request_id"
  let contentHash ← requiredStr d "content_hash"
  let modelId ← requiredStr d "model_id"
  let dimension ← requiredInt d "dimension"
  let dtype ← requiredStr d "dtype"
  let vectorB64 ← requiredStr d "vector_b64"
  let creatorId ← requiredStr d "creator_id"
  let createdAt ← createdAt.toFloat rt.toPython
  let signatureB64 ← requiredStr d "signature_b64"
  let protocolVersion ← requiredInt d "protocol_version"
  let m : EmbeddingResponse :=
    { requestId, contentHash, modelId, dimension, dtype, vectorB64, creatorId,
      createdAt := .float createdAt, signatureB64, protocolVersion }
  m.postInit rt
  return m

end EmbeddingResponse

/-! ## `FingerprintResponse` -/

structure FingerprintResponse where
  requestId : String
  contentHash : String
  fingerprintKind : String
  payloadB64 : String
  creatorId : String
  createdAt : Number
  signatureB64 : String
  protocolVersion : Integer := .int EmbeddingDht.protocolVersion

namespace FingerprintResponse

/-- The cap on the length of the text of a payload. -/
def maxB64Len : ℕ := (maxFingerprintPayloadBytes * 4 + 2) / 3

def postInit (rt : Runtime) (m : FingerprintResponse) : Decode Unit := do
  validateStrField "request_id" m.requestId
  validateStrField "content_hash" m.contentHash
  validateFingerprintKind rt m.fingerprintKind
  validateStrField "payload_b64" m.payloadB64
  validateStrField "creator_id" m.creatorId
  validateStrField "signature_b64" m.signatureB64
  refuseIf (maxB64Len < m.payloadB64.toList.length)
    ("payload_b64 length " ++ toString m.payloadB64.toList.length ++
      " exceeds max base64 length " ++ toString maxB64Len ++ " (raw cap = " ++
      toString maxFingerprintPayloadBytes ++ ")")

def toDict (m : FingerprintResponse) : Fields :=
  [("type", .str "fingerprint_response"), ("protocol_version", m.protocolVersion.toJson),
    ("request_id", .str m.requestId), ("content_hash", .str m.contentHash),
    ("fingerprint_kind", .str m.fingerprintKind), ("payload_b64", .str m.payloadB64),
    ("creator_id", .str m.creatorId), ("created_at", m.createdAt.toJson),
    ("signature_b64", .str m.signatureB64)]

def fromDict (rt : Runtime) (d : Fields) : Decode FingerprintResponse := do
  expectType rt d "fingerprint_response"
  let createdAt ← numericCreatedAt d
  let requestId ← requiredStr d "request_id"
  let contentHash ← requiredStr d "content_hash"
  let fingerprintKind ← requiredStr d "fingerprint_kind"
  let payloadB64 ← requiredStr d "payload_b64"
  let creatorId ← requiredStr d "creator_id"
  let createdAt ← createdAt.toFloat rt.toPython
  let signatureB64 ← requiredStr d "signature_b64"
  let protocolVersion ← requiredInt d "protocol_version"
  let m : FingerprintResponse :=
    { requestId, contentHash, fingerprintKind, payloadB64, creatorId,
      createdAt := .float createdAt, signatureB64, protocolVersion }
  m.postInit rt
  return m

end FingerprintResponse

/-! ## `ErrorResponse` -/

structure ErrorResponse where
  requestId : String
  code : String
  message : String
  protocolVersion : Integer := .int EmbeddingDht.protocolVersion

namespace ErrorResponse

def postInit (m : ErrorResponse) : Decode Unit := do
  validateStrField "request_id" m.requestId
  validateStrField "code" m.code

def toDict (m : ErrorResponse) : Fields :=
  [("type", .str "error"), ("protocol_version", m.protocolVersion.toJson),
    ("request_id", .str m.requestId), ("code", .str m.code), ("message", .str m.message)]

/-- The message, which the constructor checks. -/
def readMessage : Json → Decode String
  | .str s => .ok s
  | x => malformed ("message must be a string, got " ++ typeName x)

def fromDict (rt : Runtime) (d : Fields) : Decode ErrorResponse := do
  expectType rt d "error"
  let requestId ← requiredStr d "request_id"
  let code ← requiredStr d "code"
  let protocolVersion ← requiredInt d "protocol_version"
  let message ← readMessage (field d "message" (.str ""))
  return { requestId, code, message, protocolVersion }

end ErrorResponse

/-! ## The dispatcher -/

inductive Message
  | findEmbedding (m : LookupRequest)
  | fetchEmbedding (m : LookupRequest)
  | embeddingProviders (m : ProvidersResponse)
  | embeddingResponse (m : EmbeddingResponse)
  | error (m : ErrorResponse)
  | findFingerprint (m : LookupRequest)
  | fetchFingerprint (m : LookupRequest)
  | fingerprintProviders (m : ProvidersResponse)
  | fingerprintResponse (m : FingerprintResponse)

def Message.toDict : Message → Fields
  | findEmbedding m => FindEmbeddingRequest.toDict m
  | fetchEmbedding m => FetchEmbeddingRequest.toDict m
  | embeddingProviders m => EmbeddingProvidersResponse.toDict m
  | embeddingResponse m => m.toDict
  | error m => m.toDict
  | findFingerprint m => FindFingerprintRequest.toDict m
  | fetchFingerprint m => FetchFingerprintRequest.toDict m
  | fingerprintProviders m => FingerprintProvidersResponse.toDict m
  | fingerprintResponse m => m.toDict

def encodeMessage (m : Message) : Bytes := utf8 (Json.object m.toDict).text

section Parse

variable (rt : Runtime)

/-- `MESSAGE_TYPE_REGISTRY`. -/
def registry : List (String × (Fields → Decode Message)) :=
  [("find_embedding", fun d => .findEmbedding <$> FindEmbeddingRequest.fromDict rt d),
    ("fetch_embedding", fun d => .fetchEmbedding <$> FetchEmbeddingRequest.fromDict rt d),
    ("embedding_providers",
      fun d => .embeddingProviders <$> EmbeddingProvidersResponse.fromDict rt d),
    ("embedding_response", fun d => .embeddingResponse <$> EmbeddingResponse.fromDict rt d),
    ("error", fun d => .error <$> ErrorResponse.fromDict rt d),
    ("find_fingerprint", fun d => .findFingerprint <$> FindFingerprintRequest.fromDict rt d),
    ("fetch_fingerprint", fun d => .fetchFingerprint <$> FetchFingerprintRequest.fromDict rt d),
    ("fingerprint_providers",
      fun d => .fingerprintProviders <$> FingerprintProvidersResponse.fromDict rt d),
    ("fingerprint_response", fun d => .fingerprintResponse <$> FingerprintResponse.fromDict rt d)]

def unknownType (messageType : String) : ProtocolError :=
  .unknownMessageType ("unknown message type " ++ rt.repr (.str messageType) ++ "; known: [" ++
    "'embedding_providers', 'embedding_response', 'error', 'fetch_embedding', " ++
    "'fetch_fingerprint', 'find_embedding', 'find_fingerprint', 'fingerprint_providers', " ++
    "'fingerprint_response']")

/-- The check of the version, which passes what is no integer on to the decoder. -/
def checkVersion (d : Fields) : Decode Unit :=
  let refuse (version : Integer) : Decode Unit :=
    if version.value = protocolVersion then .ok ()
    else .error (.protocol (.incompatibleProtocolVersion ("peer protocol_version=" ++
      version.text ++ "; local EMBEDDING_DHT_PROTOCOL_VERSION=" ++ toString protocolVersion)))
  match get d "protocol_version" with
  | .bool b => refuse (.bool b)
  | .int n => refuse (.int n)
  | _ => .ok ()

/-- What follows once the message is an object. -/
def parseFields (d : Fields) : Decode Message :=
  match get d "type" with
  | .str messageType =>
      match (registry rt).lookup messageType with
      | some constructor => do
          checkVersion d
          constructor d
      | none => .error (.protocol (unknownType rt messageType))
  | x => malformed ("missing or non-string 'type' field; got " ++ rt.repr x)

def parseMessage (payload : Bytes) : Decode Message :=
  if maxMessageBytes < payload.length then
    malformed ("payload exceeds MAX_MESSAGE_BYTES (" ++ toString payload.length ++ " > " ++
      toString maxMessageBytes ++ ")")
  else
    match rt.loads payload with
    | .error .jsonDecodeError =>
        malformed ("JSON parse failed: " ++ rt.jsonDecodeError payload)
    | .error .unicodeDecodeError => .error .unicodeDecodeError
    | .error .recursionError => .error .recursionError
    | .ok (.object d) => parseFields rt d
    | .ok v => malformed ("top-level message must be a dict, got " ++ typeName v)

end Parse

/-! ## What a creator signs -/

section Payloads

variable (rt : Runtime)

/-- `n.to_bytes(width, "big")`. -/
def toBytes (width : ℕ) (n : ℤ) : Decode Bytes :=
  match toBytesBig width n with
  | some bytes => .ok bytes
  | none => .error .overflowError

/-- A field behind its length. -/
def prefixed (bytes : Bytes) : Decode Bytes := do
  let length ← toBytes 4 bytes.length
  return length ++ bytes

/-- `tag.ljust(32, b"\x00")`. -/
def ljust (tag : Bytes) : Bytes := tag ++ List.replicate (32 - tag.length) 0

/-- `int(created_at * 1000)`: exact of an integer, and of a floating-point number what its
product rounds to. -/
def createdAtMs : Number → Decode ℤ
  | .integer n => .ok (n.value * 1000)
  | .float x =>
      match x.value with
      | some q =>
          match double (q * 1000) with
          | some ms => .ok (truncate ms)
          | none => .error .overflowError
      | none => intOfFloat x

def canonicalSigningPayload (contentHash modelId : String) (dimension : Integer) (dtype : String)
    (vectorBytes : Bytes) (createdAt : Number) : Decode Bytes := do
  refuseIf (contentHash = "") "content_hash must be non-empty string"
  refuseIf (modelId = "") "model_id must be non-empty string"
  refuseIf (dimension.value ≤ 0) "dimension must be positive int"
  refuseIf (maxVectorDimension < dimension.value) (exceedsDimension dimension)
  validateDtype rt dtype
  refuseIf ((vectorBytes.length : ℤ) ≠ dimension.value * 4)
    ("vector_bytes length " ++ toString vectorBytes.length ++
      " does not match dimension*4=" ++ toString (dimension.value * 4) ++ " for float32")
  let ms ← createdAtMs createdAt
  let contentHash ← prefixed (utf8 contentHash)
  let modelId ← prefixed (utf8 modelId)
  let dimension ← toBytes 4 dimension.value
  let dtype ← prefixed (utf8 dtype)
  let vectorBytes ← prefixed vectorBytes
  let stamp ← toBytes 8 ms
  return ljust signingDomainTag ++ (contentHash ++ (modelId ++ (dimension ++ (dtype ++
    (vectorBytes ++ stamp)))))

def fingerprintSigningPayload (contentHash fingerprintKind : String) (payloadBytes : Bytes)
    (createdAt : Number) : Decode Bytes := do
  refuseIf (contentHash = "") "content_hash must be non-empty string"
  validateFingerprintKind rt fingerprintKind
  refuseIf (maxFingerprintPayloadBytes < payloadBytes.length)
    ("payload_bytes length " ++ toString payloadBytes.length ++
      " exceeds MAX_FINGERPRINT_PAYLOAD_BYTES (" ++ toString maxFingerprintPayloadBytes ++ ")")
  let ms ← createdAtMs createdAt
  let contentHash ← prefixed (utf8 contentHash)
  let kind ← prefixed (utf8 fingerprintKind)
  let payloadBytes ← prefixed payloadBytes
  let stamp ← toBytes 8 ms
  return ljust fingerprintSigningDomainTag ++ (contentHash ++ (kind ++ (payloadBytes ++ stamp)))

end Payloads

end Prsm.EmbeddingDht
