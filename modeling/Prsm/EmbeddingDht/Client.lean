import Prsm.EmbeddingDht.Protocol

/-!
# The client of the embedding DHT

The routing table, the transport, the anchor of the creators' keys and the verification of a
signature are what the client is built with.  The texts of the client's own errors are left
out; nothing reads them.
-/

namespace Prsm.EmbeddingDht

open Foundations Wire
open Evm (Bytes)
open Settlement (hex)

/-! ## Errors -/

/-- The subclasses of `EmbeddingDHTClientError`. -/
inductive ClientError
  | embeddingNotFound
  | transportFailure
  | signatureVerification

/-- What a fetch raises: an error of the client, or an exception that nothing caught. -/
inductive Failure
  | client (error : ClientError)
  | uncaught (exception : Raised ProtocolError)

@[reducible] def Fetch (α : Type) : Type := Except Failure α

def Fetch.raise {α : Type} (error : ClientError) : Fetch α := .error (.client error)

/-- `if c: raise SignatureVerificationError(…)`. -/
def Fetch.rejectIf (c : Prop) [Decidable c] : Fetch Unit :=
  if c then .raise .signatureVerification else .ok ()

/-- A call outside any `try`. -/
def uncaught {α : Type} (x : Decode α) : Fetch α :=
  match x with
  | .ok a => .ok a
  | .error e => .error (.uncaught e)

/-! ## The client -/

/-- A peer of the routing table: its attributes where they are strings. -/
structure Peer where
  nodeId : Option String
  address : Option String

/-- What the anchor holds. -/
inductive Pubkey
  | bytes (key : Bytes)
  | other

structure EmbeddingDHTClient where
  /-- `routing_table.find_closest_peers`, nothing where it raises. -/
  findClosestPeers : String → ℤ → Option (List Peer)
  /-- The reply to a message, nothing where sending it raises. -/
  sendMessage : String → Bytes → Option Bytes
  creatorPubkeyFor : String → Option Pubkey
  /-- The verdict on a signature, nothing where the verification raises. -/
  verifySignature : Bytes → Bytes → Bytes → Option Bool
  k : ℤ

/-- The bytes of a request's id. -/
@[reducible] def Token : Type := {bytes : Bytes // bytes.length = 16}

def newRequestId (token : Token) : String := hex token.1

namespace EmbeddingDHTClient

variable (client : EmbeddingDHTClient) (rt : Runtime)

/-! ## Fetching -/

/-- The reply to a request, parsed. -/
def exchange (provider : ProviderInfo) (request : Message) : Fetch Message :=
  match client.sendMessage provider.address (encodeMessage request) with
  | none => .raise .transportFailure
  | some bytes =>
      match parseMessage rt bytes with
      | .ok m => .ok m
      | .error (.protocol _) => .raise .transportFailure
      | .error e => .error (.uncaught e)

/-- A response of another type than the expected one. -/
def refuse {α : Type} : Message → Fetch α
  | .error m => .raise (if m.code = "NOT_FOUND" then .embeddingNotFound else .transportFailure)
  | _ => .raise .transportFailure

/-- The key that is anchored for a content. -/
def anchoredKey (contentHash : String) : Fetch Bytes :=
  match client.creatorPubkeyFor contentHash with
  | some (.bytes key) => .ok key
  | _ => .raise .signatureVerification

/-- `base64.b64decode(…, validate=True)`, whose exception is caught. -/
def decodeBase64 (s : String) : Fetch Bytes :=
  match b64decode s with
  | some bytes => .ok bytes
  | none => .raise .signatureVerification

def checkSignature (key message signature : Bytes) : Fetch Unit :=
  match client.verifySignature key message signature with
  | some true => .ok ()
  | _ => .raise .signatureVerification

def verifyCreatorSignature (resp : EmbeddingResponse) : Fetch Unit := do
  let key ← client.anchoredKey resp.contentHash
  let signature ← decodeBase64 resp.signatureB64
  let vectorBytes ← decodeBase64 resp.vectorB64
  Fetch.rejectIf ((vectorBytes.length : ℤ) ≠ resp.dimension.value * 4)
  -- no `except` around the payload
  let message ← uncaught (canonicalSigningPayload rt resp.contentHash resp.modelId resp.dimension
    resp.dtype vectorBytes resp.createdAt)
  client.checkSignature key message signature

def fetchEmbedding (token : Token) (provider : ProviderInfo) (contentHash modelId : String) :
    Fetch EmbeddingResponse := do
  let request : LookupRequest :=
    { contentHash, subject := modelId, requestId := newRequestId token }
  uncaught (FetchEmbeddingRequest.postInit request)
  let reply ← client.exchange rt provider (.fetchEmbedding request)
  match reply with
  | .embeddingResponse resp => do
      Fetch.rejectIf (resp.contentHash ≠ contentHash)
      Fetch.rejectIf (resp.modelId ≠ modelId)
      client.verifyCreatorSignature rt resp
      return resp
  | m => refuse m

def verifyFingerprintSignature (resp : FingerprintResponse) : Fetch Unit := do
  let key ← client.anchoredKey resp.contentHash
  let signature ← decodeBase64 resp.signatureB64
  let payloadBytes ← decodeBase64 resp.payloadB64
  let message ← uncaught (fingerprintSigningPayload rt resp.contentHash resp.fingerprintKind
    payloadBytes resp.createdAt)
  client.checkSignature key message signature

def fetchFingerprint (token : Token) (provider : ProviderInfo)
    (contentHash fingerprintKind : String) : Fetch FingerprintResponse := do
  let request : LookupRequest :=
    { contentHash, subject := fingerprintKind, requestId := newRequestId token }
  uncaught (FetchFingerprintRequest.postInit rt request)
  let reply ← client.exchange rt provider (.fetchFingerprint request)
  match reply with
  | .fingerprintResponse resp => do
      Fetch.rejectIf (resp.contentHash ≠ contentHash)
      Fetch.rejectIf (resp.fingerprintKind ≠ fingerprintKind)
      client.verifyFingerprintSignature rt resp
      return resp
  | m => refuse m

end EmbeddingDHTClient

end Prsm.EmbeddingDht
