import Prsm.EmbeddingDht.Client

/-!
# What is fetched is what the creator signed

Every field of a payload is of a fixed width or behind its length, so a payload has one reading.
The two lanes differ in their first bytes.
-/

namespace Prsm.EmbeddingDht

open Foundations Wire
open Evm (Bytes)
open Settlement (utf8 utf8_injective)

/-! ## The fields of a payload -/

theorem toBytes_eq_ok {width : ℕ} {n : ℤ} {bytes : Bytes} :
    toBytes width n = .ok bytes ↔ (0 ≤ n ∧ n < 256 ^ width) ∧ bytes = bigEndian width n.toNat := by
  rw [← toBytesBig_eq_some, toBytes]
  cases toBytesBig width n with
  | none => simp
  | some x => simp

theorem prefixed_eq_ok {bytes field : Bytes} :
    prefixed bytes = .ok field ↔
      bytes.length < 256 ^ 4 ∧ field = bigEndian 4 bytes.length ++ bytes := by
  rw [prefixed, bind_eq_ok_iff]
  constructor
  · rintro ⟨length, hLength, hField⟩
    obtain ⟨⟨-, hBound⟩, rfl⟩ := toBytes_eq_ok.mp hLength
    cases hField
    exact ⟨by exact_mod_cast hBound, by simp⟩
  · rintro ⟨hBound, rfl⟩
    exact ⟨bigEndian 4 bytes.length,
      toBytes_eq_ok.mpr ⟨⟨by omega, by exact_mod_cast hBound⟩, by simp⟩, rfl⟩

theorem toBytes_append_inj {width : ℕ} {n m : ℤ} {a b x y : Bytes} (ha : toBytes width n = .ok a)
    (hb : toBytes width m = .ok b) (h : a ++ x = b ++ y) : n = m ∧ x = y := by
  obtain ⟨⟨hn, hnBound⟩, rfl⟩ := toBytes_eq_ok.mp ha
  obtain ⟨⟨hm, hmBound⟩, rfl⟩ := toBytes_eq_ok.mp hb
  obtain ⟨hNumber, hRest⟩ := List.append_inj h (by simp)
  have hSame := bigEndian_injective (by zify; omega) (by zify; omega) hNumber
  exact ⟨by omega, hRest⟩

theorem prefixed_append_inj {s t a b x y : Bytes} (ha : prefixed s = .ok a)
    (hb : prefixed t = .ok b) (h : a ++ x = b ++ y) : s = t ∧ x = y := by
  obtain ⟨hs, rfl⟩ := prefixed_eq_ok.mp ha
  obtain ⟨ht, rfl⟩ := prefixed_eq_ok.mp hb
  rw [List.append_assoc, List.append_assoc] at h
  exact Wire.prefixed_append_inj hs ht h

theorem text_append_inj {s t : String} {a b x y : Bytes} (ha : prefixed (utf8 s) = .ok a)
    (hb : prefixed (utf8 t) = .ok b) (h : a ++ x = b ++ y) : s = t ∧ x = y := by
  obtain ⟨hText, hRest⟩ := prefixed_append_inj ha hb h
  exact ⟨utf8_injective hText, hRest⟩

theorem stamp_inj {n m : ℤ} {a b : Bytes} (ha : toBytes 8 n = .ok a) (hb : toBytes 8 m = .ok b)
    (h : a = b) : n = m := by
  have hAppend : a ++ [] = b ++ [] := by rw [h]
  exact (toBytes_append_inj ha hb hAppend).1

/-! ## The two layouts -/

section Layouts

variable {rt : Runtime}

variable {contentHash modelId dtype contentHash' : String} {dimension : Integer}
  {vectorBytes message payloadBytes : Bytes} {createdAt createdAt' : Number}

theorem embedding_layout
    (h : canonicalSigningPayload rt contentHash modelId dimension dtype vectorBytes createdAt =
      .ok message) :
    ∃ ms hash model width type vector stamp,
      createdAtMs createdAt = .ok ms ∧ prefixed (utf8 contentHash) = .ok hash ∧
      prefixed (utf8 modelId) = .ok model ∧ toBytes 4 dimension.value = .ok width ∧
      prefixed (utf8 dtype) = .ok type ∧ prefixed vectorBytes = .ok vector ∧
      toBytes 8 ms = .ok stamp ∧
      message = ljust signingDomainTag ++ (hash ++ (model ++ (width ++ (type ++
        (vector ++ stamp))))) := by
  obtain ⟨-, -, h⟩ := bind_eq_ok_iff.mp h
  obtain ⟨-, -, h⟩ := bind_eq_ok_iff.mp h
  obtain ⟨-, -, h⟩ := bind_eq_ok_iff.mp h
  obtain ⟨-, -, h⟩ := bind_eq_ok_iff.mp h
  obtain ⟨-, -, h⟩ := bind_eq_ok_iff.mp h
  obtain ⟨-, -, h⟩ := bind_eq_ok_iff.mp h
  obtain ⟨ms, hMs, h⟩ := bind_eq_ok_iff.mp h
  obtain ⟨hash, hHash, h⟩ := bind_eq_ok_iff.mp h
  obtain ⟨model, hModel, h⟩ := bind_eq_ok_iff.mp h
  obtain ⟨width, hWidth, h⟩ := bind_eq_ok_iff.mp h
  obtain ⟨type, hType, h⟩ := bind_eq_ok_iff.mp h
  obtain ⟨vector, hVector, h⟩ := bind_eq_ok_iff.mp h
  obtain ⟨stamp, hStamp, h⟩ := bind_eq_ok_iff.mp h
  cases h
  exact ⟨ms, hash, model, width, type, vector, stamp, hMs, hHash, hModel, hWidth, hType, hVector,
    hStamp, rfl⟩

theorem fingerprint_layout {fingerprintKind : String}
    (h : fingerprintSigningPayload rt contentHash fingerprintKind payloadBytes createdAt =
      .ok message) :
    ∃ ms hash kind payload stamp,
      createdAtMs createdAt = .ok ms ∧ prefixed (utf8 contentHash) = .ok hash ∧
      prefixed (utf8 fingerprintKind) = .ok kind ∧ prefixed payloadBytes = .ok payload ∧
      toBytes 8 ms = .ok stamp ∧
      message = ljust fingerprintSigningDomainTag ++ (hash ++ (kind ++ (payload ++ stamp))) := by
  obtain ⟨-, -, h⟩ := bind_eq_ok_iff.mp h
  obtain ⟨-, -, h⟩ := bind_eq_ok_iff.mp h
  obtain ⟨-, -, h⟩ := bind_eq_ok_iff.mp h
  obtain ⟨ms, hMs, h⟩ := bind_eq_ok_iff.mp h
  obtain ⟨hash, hHash, h⟩ := bind_eq_ok_iff.mp h
  obtain ⟨kind, hKind, h⟩ := bind_eq_ok_iff.mp h
  obtain ⟨payload, hPayload, h⟩ := bind_eq_ok_iff.mp h
  obtain ⟨stamp, hStamp, h⟩ := bind_eq_ok_iff.mp h
  cases h
  exact ⟨ms, hash, kind, payload, stamp, hMs, hHash, hKind, hPayload, hStamp, rfl⟩

theorem embedding_payload_injective
    {modelId' dtype' : String}
    {dimension' : Integer} {vectorBytes' : Bytes}
    (h : canonicalSigningPayload rt contentHash modelId dimension dtype vectorBytes createdAt =
      .ok message)
    (h' : canonicalSigningPayload rt contentHash' modelId' dimension' dtype' vectorBytes'
      createdAt' = .ok message) :
    contentHash = contentHash' ∧ modelId = modelId' ∧ dimension.value = dimension'.value ∧
      dtype = dtype' ∧ vectorBytes = vectorBytes' ∧
      createdAtMs createdAt = createdAtMs createdAt' := by
  obtain ⟨ms, hash, model, width, type, vector, stamp, hMs, hHash, hModel, hWidth, hType, hVector,
    hStamp, rfl⟩ := embedding_layout h
  obtain ⟨ms', hash', model', width', type', vector', stamp', hMs', hHash', hModel', hWidth',
    hType', hVector', hStamp', hMessage⟩ := embedding_layout h'
  have hRest := List.append_cancel_left hMessage
  obtain ⟨rfl, hRest⟩ := text_append_inj hHash hHash' hRest
  obtain ⟨rfl, hRest⟩ := text_append_inj hModel hModel' hRest
  obtain ⟨hDimension, hRest⟩ := toBytes_append_inj hWidth hWidth' hRest
  obtain ⟨rfl, hRest⟩ := text_append_inj hType hType' hRest
  obtain ⟨rfl, hRest⟩ := prefixed_append_inj hVector hVector' hRest
  have hSame := stamp_inj hStamp hStamp' hRest
  exact ⟨rfl, rfl, hDimension, rfl, rfl, by rw [hMs, hMs', hSame]⟩

theorem fingerprint_payload_injective {kind kind' : String}
    {payloadBytes' : Bytes}
    (h : fingerprintSigningPayload rt contentHash kind payloadBytes createdAt = .ok message)
    (h' : fingerprintSigningPayload rt contentHash' kind' payloadBytes' createdAt' =
      .ok message) :
    contentHash = contentHash' ∧ kind = kind' ∧ payloadBytes = payloadBytes' ∧
      createdAtMs createdAt = createdAtMs createdAt' := by
  obtain ⟨ms, hash, type, payload, stamp, hMs, hHash, hKind, hPayload, hStamp, rfl⟩ :=
    fingerprint_layout h
  obtain ⟨ms', hash', type', payload', stamp', hMs', hHash', hKind', hPayload', hStamp',
    hMessage⟩ := fingerprint_layout h'
  have hRest := List.append_cancel_left hMessage
  obtain ⟨rfl, hRest⟩ := text_append_inj hHash hHash' hRest
  obtain ⟨rfl, hRest⟩ := text_append_inj hKind hKind' hRest
  obtain ⟨rfl, hRest⟩ := prefixed_append_inj hPayload hPayload' hRest
  have hSame := stamp_inj hStamp hStamp' hRest
  exact ⟨rfl, rfl, rfl, by rw [hMs, hMs', hSame]⟩

theorem length_ljust_tags :
    (ljust signingDomainTag).length = (ljust fingerprintSigningDomainTag).length := by
  decide +kernel

theorem ljust_tags_ne : ljust signingDomainTag ≠ ljust fingerprintSigningDomainTag := by
  decide +kernel

theorem lanes_disjoint {kind : String}
    (h : canonicalSigningPayload rt contentHash modelId dimension dtype vectorBytes createdAt =
      .ok message) :
    fingerprintSigningPayload rt contentHash' kind payloadBytes createdAt' ≠ .ok message := by
  intro h'
  obtain ⟨_, _, _, _, _, _, _, -, -, -, -, -, -, -, rfl⟩ := embedding_layout h
  obtain ⟨_, _, _, _, _, -, -, -, -, -, hMessage⟩ := fingerprint_layout h'
  exact ljust_tags_ne (List.append_inj hMessage length_ljust_tags).1

end Layouts

/-! ## What a fetch returns -/

section Fetches

variable {client : EmbeddingDHTClient} {rt : Runtime}

theorem uncaught_eq_ok {α : Type} {x : Decode α} {a : α} : uncaught x = .ok a ↔ x = .ok a := by
  cases x with
  | ok b => simp [uncaught]
  | error e => simp [uncaught]

theorem rejectIf_eq_ok {c : Prop} [Decidable c] : Fetch.rejectIf c = .ok () ↔ ¬c := by
  unfold Fetch.rejectIf
  split_ifs with h
  · simp [h, Fetch.raise]
  · simp [h]

theorem refuse_ne_ok {α : Type} (m : Message) (a : α) :
    EmbeddingDHTClient.refuse m ≠ .ok a := by
  cases m <;> simp [EmbeddingDHTClient.refuse, Fetch.raise]

theorem anchoredKey_eq_ok {contentHash : String} {key : Bytes} :
    client.anchoredKey contentHash = .ok key ↔
      client.creatorPubkeyFor contentHash = some (.bytes key) := by
  unfold EmbeddingDHTClient.anchoredKey
  split
  · next key' hKey => simp [hKey]
  · next hOther =>
      constructor
      · intro h
        cases h
      · intro h
        exact absurd h (hOther key)

theorem decodeBase64_eq_ok {s : String} {bytes : Bytes} :
    EmbeddingDHTClient.decodeBase64 s = .ok bytes ↔ b64decode s = some bytes := by
  unfold EmbeddingDHTClient.decodeBase64
  cases b64decode s with
  | none => simp [Fetch.raise]
  | some x => simp

theorem checkSignature_eq_ok {key message signature : Bytes} :
    client.checkSignature key message signature = .ok () ↔
      client.verifySignature key message signature = some true := by
  unfold EmbeddingDHTClient.checkSignature
  split
  · next h => simp [h]
  · next hOther =>
      constructor
      · intro h
        cases h
      · intro h
        exact absurd h hOther

theorem verifyCreatorSignature_ok {resp : EmbeddingResponse}
    (h : client.verifyCreatorSignature rt resp = .ok ()) :
    ∃ key signature vectorBytes message,
      client.creatorPubkeyFor resp.contentHash = some (.bytes key) ∧
      b64decode resp.vectorB64 = some vectorBytes ∧
      canonicalSigningPayload rt resp.contentHash resp.modelId resp.dimension resp.dtype
        vectorBytes resp.createdAt = .ok message ∧
      client.verifySignature key message signature = some true := by
  obtain ⟨key, hKey, h⟩ := bind_eq_ok_iff.mp h
  obtain ⟨signature, -, h⟩ := bind_eq_ok_iff.mp h
  obtain ⟨vectorBytes, hVector, h⟩ := bind_eq_ok_iff.mp h
  obtain ⟨-, -, h⟩ := bind_eq_ok_iff.mp h
  obtain ⟨message, hMessage, hVerified⟩ := bind_eq_ok_iff.mp h
  exact ⟨key, signature, vectorBytes, message, anchoredKey_eq_ok.mp hKey,
    decodeBase64_eq_ok.mp hVector, uncaught_eq_ok.mp hMessage,
    checkSignature_eq_ok.mp hVerified⟩

theorem verifyFingerprintSignature_ok {resp : FingerprintResponse}
    (h : client.verifyFingerprintSignature rt resp = .ok ()) :
    ∃ key signature payloadBytes message,
      client.creatorPubkeyFor resp.contentHash = some (.bytes key) ∧
      b64decode resp.payloadB64 = some payloadBytes ∧
      fingerprintSigningPayload rt resp.contentHash resp.fingerprintKind payloadBytes
        resp.createdAt = .ok message ∧
      client.verifySignature key message signature = some true := by
  obtain ⟨key, hKey, h⟩ := bind_eq_ok_iff.mp h
  obtain ⟨signature, -, h⟩ := bind_eq_ok_iff.mp h
  obtain ⟨payloadBytes, hPayload, h⟩ := bind_eq_ok_iff.mp h
  obtain ⟨message, hMessage, hVerified⟩ := bind_eq_ok_iff.mp h
  exact ⟨key, signature, payloadBytes, message, anchoredKey_eq_ok.mp hKey,
    decodeBase64_eq_ok.mp hPayload, uncaught_eq_ok.mp hMessage,
    checkSignature_eq_ok.mp hVerified⟩

theorem fetchEmbedding_ok {token : Token} {provider : ProviderInfo} {contentHash modelId : String}
    {resp : EmbeddingResponse}
    (h : client.fetchEmbedding rt token provider contentHash modelId = .ok resp) :
    resp.contentHash = contentHash ∧ resp.modelId = modelId ∧
      client.verifyCreatorSignature rt resp = .ok () := by
  obtain ⟨-, -, h⟩ := bind_eq_ok_iff.mp h
  obtain ⟨reply, -, h⟩ := bind_eq_ok_iff.mp h
  cases reply with
  | embeddingResponse m =>
      obtain ⟨_, hHash, h⟩ := bind_eq_ok_iff.mp h
      obtain ⟨_, hModel, h⟩ := bind_eq_ok_iff.mp h
      obtain ⟨_, hVerified, h⟩ := bind_eq_ok_iff.mp h
      cases h
      have hHash := not_not.mp (rejectIf_eq_ok.mp hHash)
      have hModel := not_not.mp (rejectIf_eq_ok.mp hModel)
      exact ⟨hHash, hModel, hVerified⟩
  | _ => exact absurd h (refuse_ne_ok _ _)

theorem fetchFingerprint_ok {token : Token} {provider : ProviderInfo}
    {contentHash fingerprintKind : String} {resp : FingerprintResponse}
    (h : client.fetchFingerprint rt token provider contentHash fingerprintKind = .ok resp) :
    resp.contentHash = contentHash ∧ resp.fingerprintKind = fingerprintKind ∧
      client.verifyFingerprintSignature rt resp = .ok () := by
  obtain ⟨-, -, h⟩ := bind_eq_ok_iff.mp h
  obtain ⟨reply, -, h⟩ := bind_eq_ok_iff.mp h
  cases reply with
  | fingerprintResponse m =>
      obtain ⟨_, hHash, h⟩ := bind_eq_ok_iff.mp h
      obtain ⟨_, hKind, h⟩ := bind_eq_ok_iff.mp h
      obtain ⟨_, hVerified, h⟩ := bind_eq_ok_iff.mp h
      cases h
      have hHash := not_not.mp (rejectIf_eq_ok.mp hHash)
      have hKind := not_not.mp (rejectIf_eq_ok.mp hKind)
      exact ⟨hHash, hKind, hVerified⟩
  | _ => exact absurd h (refuse_ne_ok _ _)

end Fetches

/-! ## What the anchored key signed -/

section Signed

variable (client : EmbeddingDHTClient) (rt : Runtime) (signed : Bytes → Bytes → Prop)

/-- The key that is anchored for the content signed an embedding payload of these fields. -/
def SignedEmbedding (contentHash modelId : String) (dimension : Integer) (dtype : String)
    (vectorBytes : Bytes) (createdAt : Number) : Prop :=
  ∃ key message, client.creatorPubkeyFor contentHash = some (.bytes key) ∧
    canonicalSigningPayload rt contentHash modelId dimension dtype vectorBytes createdAt =
      .ok message ∧ signed key message

def SignedFingerprint (contentHash fingerprintKind : String) (payloadBytes : Bytes)
    (createdAt : Number) : Prop :=
  ∃ key message, client.creatorPubkeyFor contentHash = some (.bytes key) ∧
    fingerprintSigningPayload rt contentHash fingerprintKind payloadBytes createdAt =
      .ok message ∧ signed key message

/-- A key signed what its signature verifies, what is fetched was signed as such by the key that
is anchored for it, and a payload is the payload of one lane and of one list of fields. -/
theorem fetched_is_signed
    (hUnforgeable : ∀ key message signature,
      client.verifySignature key message signature = some true → signed key message) :
    (∀ token provider contentHash modelId resp,
      client.fetchEmbedding rt token provider contentHash modelId = .ok resp →
        resp.contentHash = contentHash ∧ resp.modelId = modelId ∧
        ∃ vectorBytes, b64decode resp.vectorB64 = some vectorBytes ∧
          SignedEmbedding client rt signed contentHash modelId resp.dimension resp.dtype
            vectorBytes resp.createdAt) ∧
    (∀ token provider contentHash fingerprintKind resp,
      client.fetchFingerprint rt token provider contentHash fingerprintKind = .ok resp →
        resp.contentHash = contentHash ∧ resp.fingerprintKind = fingerprintKind ∧
        ∃ payloadBytes, b64decode resp.payloadB64 = some payloadBytes ∧
          SignedFingerprint client rt signed contentHash fingerprintKind payloadBytes
            resp.createdAt) ∧
    (∀ contentHash contentHash' modelId modelId' dimension dimension' dtype dtype' vectorBytes
        vectorBytes' createdAt createdAt' message,
      canonicalSigningPayload rt contentHash modelId dimension dtype vectorBytes createdAt =
        .ok message →
      canonicalSigningPayload rt contentHash' modelId' dimension' dtype' vectorBytes' createdAt' =
        .ok message →
      contentHash = contentHash' ∧ modelId = modelId' ∧ dimension.value = dimension'.value ∧
        dtype = dtype' ∧ vectorBytes = vectorBytes' ∧
        createdAtMs createdAt = createdAtMs createdAt') ∧
    (∀ contentHash contentHash' kind kind' payloadBytes payloadBytes' createdAt createdAt' message,
      fingerprintSigningPayload rt contentHash kind payloadBytes createdAt = .ok message →
      fingerprintSigningPayload rt contentHash' kind' payloadBytes' createdAt' = .ok message →
      contentHash = contentHash' ∧ kind = kind' ∧ payloadBytes = payloadBytes' ∧
        createdAtMs createdAt = createdAtMs createdAt') ∧
    (∀ contentHash contentHash' modelId dimension dtype vectorBytes kind payloadBytes createdAt
        createdAt' message,
      canonicalSigningPayload rt contentHash modelId dimension dtype vectorBytes createdAt =
        .ok message →
      fingerprintSigningPayload rt contentHash' kind payloadBytes createdAt' ≠ .ok message) := by
  constructor
  · intro token provider contentHash modelId resp h
    obtain ⟨rfl, rfl, hVerified⟩ := fetchEmbedding_ok h
    obtain ⟨key, signature, vectorBytes, message, hKey, hVector, hMessage, hSignature⟩ :=
      verifyCreatorSignature_ok hVerified
    exact ⟨rfl, rfl, vectorBytes, hVector, key, message, hKey, hMessage,
      hUnforgeable key message signature hSignature⟩
  constructor
  · intro token provider contentHash fingerprintKind resp h
    obtain ⟨rfl, rfl, hVerified⟩ := fetchFingerprint_ok h
    obtain ⟨key, signature, payloadBytes, message, hKey, hPayload, hMessage, hSignature⟩ :=
      verifyFingerprintSignature_ok hVerified
    exact ⟨rfl, rfl, payloadBytes, hPayload, key, message, hKey, hMessage,
      hUnforgeable key message signature hSignature⟩
  constructor
  · intros
    exact embedding_payload_injective ‹_› ‹_›
  constructor
  · intros
    exact fingerprint_payload_injective ‹_› ‹_›
  · intros
    exact lanes_disjoint ‹_›

end Signed

/-! ## A fetch -/

namespace Sample

def response : EmbeddingResponse where
  requestId := "r"
  contentHash := "0x1"
  modelId := "m"
  dimension := .int 1
  dtype := "float32"
  vectorB64 := "AAAAAA=="
  creatorId := "c"
  createdAt := .float (Wire.Sample.floatOf 1)
  signatureB64 := "AQ=="

def reply : Bytes := encodeMessage (.embeddingResponse response)

/-- Reads the reply. -/
def runtime : Runtime where
  toPython := { Wire.Sample.python with
    loads := fun payload =>
      if payload = reply then .ok (.object response.toDict) else .error .jsonDecodeError }
  repr := fun _ => ""
  jsonDecodeError := fun _ => ""
  floatOfText := fun _ => none

def signedBytes : Decode Bytes :=
  canonicalSigningPayload runtime "0x1" "m" (.int 1) "float32" [0, 0, 0, 0]
    (.float (Wire.Sample.floatOf 1))

/-- A client whose peers reply with the response, and whose anchor holds the key that signed. -/
def client : EmbeddingDHTClient where
  findClosestPeers := fun _ _ => none
  sendMessage := fun _ _ => some reply
  creatorPubkeyFor := fun contentHash => if contentHash = "0x1" then some (.bytes [7]) else none
  verifySignature := fun key message signature =>
    some (decide (key = [7] ∧ signedBytes = .ok message ∧ signature = [1]))
  k := 8

def provider : ProviderInfo := ⟨"n", "h:1", by decide, by decide⟩

def token : Token := ⟨List.replicate 16 0, rfl⟩

theorem parse_reply : parseMessage runtime reply = .ok (.embeddingResponse response) := by
  have hSize : ¬maxMessageBytes < reply.length := by decide +kernel
  have hLoads : runtime.loads reply = .ok (.object response.toDict) := by simp [runtime]
  rw [parseMessage, if_neg hSize, hLoads]
  rfl

theorem fetch_response :
    client.fetchEmbedding runtime token provider "0x1" "m" = .ok response := by
  have hExchange : ∀ request, client.exchange runtime provider request =
      .ok (.embeddingResponse response) := by
    intro request
    simp only [EmbeddingDHTClient.exchange, client, parse_reply]
  have hPayload : ∃ message, signedBytes = .ok message := by
    have hOk : signedBytes.isOk = true := by decide +kernel
    cases hSigned : signedBytes with
    | ok message => exact ⟨message, rfl⟩
    | error e =>
        rw [hSigned] at hOk
        cases hOk
  obtain ⟨message, hMessage⟩ := hPayload
  have hVerified : client.verifyCreatorSignature runtime response = .ok () := by
    have hVector : EmbeddingDHTClient.decodeBase64 response.vectorB64 = .ok [0, 0, 0, 0] := rfl
    have hSignature : EmbeddingDHTClient.decodeBase64 response.signatureB64 = .ok [1] := rfl
    have hKey : client.anchoredKey response.contentHash = .ok [7] := rfl
    have hUncaught : uncaught (canonicalSigningPayload runtime response.contentHash
        response.modelId response.dimension response.dtype [0, 0, 0, 0] response.createdAt) =
          .ok message := uncaught_eq_ok.mpr hMessage
    rw [EmbeddingDHTClient.verifyCreatorSignature, hKey, ok_bind, hSignature, ok_bind, hVector,
      ok_bind]
    show (uncaught _ >>= _) = _
    rw [hUncaught, ok_bind, checkSignature_eq_ok]
    simp [client, hMessage]
  have hHash : Fetch.rejectIf (response.contentHash ≠ "0x1") = .ok () := rfl
  have hModel : Fetch.rejectIf (response.modelId ≠ "m") = .ok () := rfl
  have hInit : uncaught (FetchEmbeddingRequest.postInit
      { contentHash := "0x1", subject := "m", requestId := newRequestId token }) = .ok () := rfl
  simp only [EmbeddingDHTClient.fetchEmbedding, hInit, ok_bind, hExchange, hHash, hModel,
    hVerified]
  rfl

/-- What the client fetched was signed by the key that is anchored for it. -/
theorem response_is_signed :
    ∃ vectorBytes, b64decode response.vectorB64 = some vectorBytes ∧
      SignedEmbedding client runtime (fun key message => key = [7] ∧ signedBytes = .ok message)
        "0x1" "m" response.dimension response.dtype vectorBytes response.createdAt :=
  ((fetched_is_signed client runtime (fun key message => key = [7] ∧ signedBytes = .ok message)
    (by simp +contextual [client])).1 token provider "0x1" "m" response fetch_response).2.2

end Sample

end Prsm.EmbeddingDht
