import Prsm.ChainRpc.Readback
import Prsm.Storage.Sha256

/-!
# What a stage signs

A stage signs the canonical JSON of its response, and with the same key a line of an
activation proof and the digest of a settlement leaf.  The response of a request that is not
a prefill commits to the activation it was computed from.
-/

namespace Prsm.ChainRpc

open Foundations Wire
open Foundations.Json (lookup canonical sortedFields ReadsBack Printable)
open Evm (Bytes)
open Settlement (utf8)
open Storage (Sha256)

/-! ## The commitment to the input -/

section Commitment

variable (sha : Sha256)

def requestInputCommitment (activationBlob : Bytes) : Option ShardManifest → String
  | some manifest => manifest.payloadSha256
  | none => sha.hexdigest activationBlob

/-- `response_input_commitment_for_request`; there is none for a prefill. -/
def responseInputCommitmentForRequest (r : RunLayerSliceRequestArgs) : Option String :=
  if r.decodeMode = .prefill then none
  else some (requestInputCommitment sha r.activationBlob r.activationManifest)

/-- The activation that a request brings: inline, or reassembled from chunks whose digest is
that of the manifest. -/
def CarriesInput (r : RunLayerSliceRequestArgs) (input : Bytes) : Prop :=
  match r.activationManifest with
  | some manifest => manifest.payloadSha256 = sha.hexdigest input
  | none => input = r.activationBlob

theorem requestInputCommitment_eq {r : RunLayerSliceRequestArgs} {input : Bytes}
    (h : CarriesInput sha r input) :
    requestInputCommitment sha r.activationBlob r.activationManifest = sha.hexdigest input := by
  unfold CarriesInput at h
  cases hManifest : r.activationManifest with
  | none =>
      rw [hManifest] at h
      rw [requestInputCommitment, h]
  | some manifest =>
      rw [hManifest] at h
      exact h

end Commitment

/-! ## Signing -/

/-- What a stage computed for a request. -/
structure StageOutput where
  activationBlob : Bytes
  activationShape : List ℤ
  activationDtype : String
  durationSeconds : Number
  teeAttestation : Bytes
  teeType : TEEType
  epsilonSpent : Number
  activationManifest : Option ShardManifest
  nextTokenId : Option ℤ
  isTerminal : Bool
  verifiedTokenIds : Option (List ℤ)
  acceptedCount : Option ℤ

def RunLayerSliceResponseArgs.output (m : RunLayerSliceResponseArgs) : StageOutput where
  activationBlob := m.activationBlob
  activationShape := m.activationShape
  activationDtype := m.activationDtype
  durationSeconds := m.durationSeconds
  teeAttestation := m.teeAttestation
  teeType := m.teeType
  epsilonSpent := m.epsilonSpent
  activationManifest := m.activationManifest
  nextTokenId := m.nextTokenId
  isTerminal := m.isTerminal
  verifiedTokenIds := m.verifiedTokenIds
  acceptedCount := m.acceptedCount

/-- The fields of `signing_payload`, with the two numbers as `float` gives them. -/
def payloadFields (requestId : String) (o : StageOutput) (duration epsilon : PyFloat)
    (stageNodeId : String) (inputCommitment : Option String) : Fields :=
  [("request_id", .str requestId), ("activation_blob_hex", hexJson o.activationBlob),
    ("activation_shape", intsJson o.activationShape),
    ("activation_dtype", .str o.activationDtype), ("duration_seconds", .float duration),
    ("tee_attestation_hex", hexJson o.teeAttestation), ("tee_type", .str o.teeType.text),
    ("epsilon_spent", .float epsilon), ("stage_node_id", .str stageNodeId)] ++
  whenSet "activation_manifest_envelope" manifestJson o.activationManifest ++
  whenSet "next_token_id" .int o.nextTokenId ++
  (if o.isTerminal then [("is_terminal", .bool true)] else []) ++
  whenSet "verified_token_ids" intsJson o.verifiedTokenIds ++
  whenSet "accepted_count" .int (o.verifiedTokenIds.bind fun _ => o.acceptedCount) ++
  whenSet "input_commitment" .str inputCommitment

def signingPayload (py : Python) (requestId : String) (o : StageOutput) (stageNodeId : String)
    (inputCommitment : Option String) : Decode Bytes := do
  let duration ← toFloat py o.durationSeconds.toJson
  let epsilon ← toFloat py o.epsilonSpent.toJson
  if o.verifiedTokenIds.isSome ∧ o.acceptedCount = none then malformed
  else
    .ok (utf8 (Json.object
      (payloadFields requestId o duration epsilon stageNodeId inputCommitment)).text)

/-- The identity of a stage, and whether its proofs bind the attestation. -/
structure Stage where
  nodeId : String
  publicKeyB64 : String
  sign : Bytes → String
  bindAttestation : Bool

/-- The optional arguments of `sign`. -/
structure SignContext where
  stageInputBlob : Option Bytes
  chainStageIndex : Option ℤ
  settlementJobId : Option String
  settlementStageIndex : Option ℤ
  settlementExecutedAtUnix : Option ℤ

section Sign

variable (py : Python) (sha : Sha256) (keccak : Bytes → Bytes) (stage : Stage)

def teeAttestationHashFor (attestation : Bytes) : String :=
  if attestation = [] then "" else if stage.bindAttestation then sha.hexdigest attestation else ""

/-- `StageActivationProof.signing_bytes`. -/
def proofSigningBytes (requestId : String) (stageIndex : ℤ) (inputHash outputHash : String)
    (teeAttestationHash : String) : Bytes :=
  utf8 ("\n".intercalate
    (["prsm-stage-activation-proof-v1", requestId, toString stageIndex, stage.nodeId, inputHash,
        outputHash] ++
      if teeAttestationHash ≠ "" then ["tee_attestation_hash=" ++ teeAttestationHash] else []))

/-- The activation proof, on the paths that give the input. -/
def activationProof (requestId : String) (o : StageOutput) (c : SignContext) : Option Bytes :=
  if o.activationBlob = [] then none
  else
    c.stageInputBlob.bind fun input => c.chainStageIndex.map fun index =>
      proofSigningBytes stage requestId index (sha.hexdigest input)
        (sha.hexdigest o.activationBlob) (teeAttestationHashFor sha stage o.teeAttestation)

def buildReceiptSigningPayload (jobId : String) (shardIndex : ℤ) (outputHash : String)
    (executedAtUnix : ℤ) : Bytes :=
  keccak (utf8 (jobId ++ "||" ++ toString shardIndex ++ "||" ++ outputHash ++ "||" ++
    toString executedAtUnix))

/-- The settlement leaf, on the paths that give its job. -/
def settlementLeaf (o : StageOutput) (c : SignContext) : Option Bytes :=
  if o.activationBlob = [] then none
  else
    c.settlementJobId.bind fun jobId => c.settlementStageIndex.bind fun index =>
      c.settlementExecutedAtUnix.map fun executedAt =>
        buildReceiptSigningPayload keccak jobId index (sha.hexdigest o.activationBlob) executedAt

/-- The fields of a signed response. -/
def signedArgs (requestId : String) (o : StageOutput) (c : SignContext)
    (duration epsilon : PyFloat) (payload : Bytes) : RunLayerSliceResponseArgs :=
  let proof := activationProof sha stage requestId o c
  let leaf := settlementLeaf sha keccak o c
  { requestId, activationBlob := o.activationBlob, activationShape := o.activationShape,
    activationDtype := o.activationDtype, durationSeconds := .float duration,
    teeAttestation := o.teeAttestation, teeType := o.teeType, epsilonSpent := .float epsilon,
    stageSignatureB64 := stage.sign payload, stageNodeId := stage.nodeId,
    activationManifest := o.activationManifest, nextTokenId := o.nextTokenId,
    isTerminal := o.isTerminal, verifiedTokenIds := o.verifiedTokenIds,
    acceptedCount := o.acceptedCount,
    stageInputActivationHash := proof.bind fun _ => c.stageInputBlob.map sha.hexdigest,
    stageOutputActivationHash :=
      (proof.or leaf).map fun _ => sha.hexdigest o.activationBlob,
    stageActivationProofB64 := proof.map stage.sign,
    stageSettlementSignatureB64 := leaf.map stage.sign,
    stageSettlementPubkeyB64 := leaf.map fun _ => stage.publicKeyB64,
    stageSettlementExecutedAtUnix := leaf.bind fun _ => c.settlementExecutedAtUnix,
    protocolVersion := 2, messageType := "run_layer_slice_response" }

/-- `RunLayerSliceResponse.sign`, with what the key has signed. -/
def RunLayerSliceResponse.sign (requestId : String) (o : StageOutput)
    (inputCommitment : Option String) (c : SignContext) :
    Decode (RunLayerSliceResponse × List Bytes) := do
  let payload ← signingPayload py requestId o stage.nodeId inputCommitment
  let duration ← toFloat py o.durationSeconds.toJson
  let epsilon ← toFloat py o.epsilonSpent.toJson
  let response ← construct RunLayerSliceResponseArgs.accepted
    (signedArgs sha keccak stage requestId o c duration epsilon payload)
  return (response, payload :: (activationProof sha stage requestId o c).toList ++
    (settlementLeaf sha keccak o c).toList)

end Sign

/-! ## Verifying -/

def verifyWithAnchor (py : Python) (verifySignature : String → Bytes → String → Bool)
    (anchor : String → Option String) (m : RunLayerSliceResponse) (expectedStageNodeId : String)
    (expectedInputCommitment : Option String) : Decode Bool :=
  if expectedStageNodeId = "" then .ok false
  else if m.1.stageNodeId ≠ expectedStageNodeId then .ok false
  else
    match (anchor expectedStageNodeId).filter fun key => key ≠ "" with
    | none => .ok false
    | some stagePubkeyB64 => do
        let payload ← signingPayload py m.1.requestId m.1.output m.1.stageNodeId
          expectedInputCommitment
        return verifySignature stagePubkeyB64 payload m.1.stageSignatureB64

/-! ## What the bytes bind -/

section Payload

variable {read : String → Option PyFloat} {requestId stageNodeId : String} {o : StageOutput}
  {duration epsilon : PyFloat} {inputCommitment : Option String}

theorem keys_payload : ((payloadFields requestId o duration epsilon stageNodeId
    inputCommitment).map Prod.fst).Nodup := by
  have hKeys : ((payloadFields requestId o duration epsilon stageNodeId
      inputCommitment).map Prod.fst).Sublist
      (["request_id", "activation_blob_hex", "activation_shape", "activation_dtype",
        "duration_seconds", "tee_attestation_hex", "tee_type", "epsilon_spent",
        "stage_node_id"] ++ ["activation_manifest_envelope"] ++ ["next_token_id"] ++
        ["is_terminal"] ++ ["verified_token_ids"] ++ ["accepted_count"] ++
        ["input_commitment"]) := by
    unfold payloadFields
    repeat' apply keys_append
    any_goals exact keys_whenSet _ _ _
    · exact List.Sublist.refl _
    · exact keys_flagged _ _ _
  exact hKeys.nodup (by decide +kernel)

theorem printable_payload (hDuration : ReadsBack read duration)
    (hEpsilon : ReadsBack read epsilon) :
    Printable read 2 (.object (payloadFields requestId o duration epsilon stageNodeId
      inputCommitment)) := by
  refine ⟨keys_payload, ?_⟩
  show AllPrintable read 1 _
  unfold payloadFields
  repeat' apply allPrintable_append
  · repeat' apply allPrintable_cons
    any_goals first | exact printable_str _ _ | exact printable_ints _ _
    · exact printable_float _ hDuration
    · exact printable_float _ hEpsilon
    · exact allPrintable_nil _
  · exact allPrintable_whenSet _ fun x _ => printable_manifest 0 x
  · exact allPrintable_whenSet _ fun x _ => printable_int _ x
  · exact allPrintable_flagged _ (printable_bool _ _) _
  · exact allPrintable_whenSet _ fun x _ => printable_ints 0 x
  · exact allPrintable_whenSet _ fun x _ => printable_int _ x
  · exact allPrintable_whenSet _ fun x _ => printable_str _ x

theorem lookup_eq_of_text_eq {n : ℕ} {fields fields' : Fields}
    (h : Printable read (n + 1) (.object fields)) (h' : Printable read (n + 1) (.object fields'))
    (hText : utf8 (Json.object fields).text = utf8 (Json.object fields').text) (key : String) :
    (lookup key fields).map canonical = (lookup key fields').map canonical := by
  have hCanonical :=
    Json.canonical_eq_of_text_eq h h' (Settlement.utf8_injective hText)
  rw [Json.canonical_object, Json.canonical_object, Json.object.injEq] at hCanonical
  rw [← Json.lookup_sortedFields h.1, ← Json.lookup_sortedFields h'.1, hCanonical]

theorem str_canonical_injective {s s' : Option String}
    (h : (s.map Json.str).map canonical = (s'.map Json.str).map canonical) : s = s' := by
  cases s <;> cases s' <;> simp_all [canonical]

theorem int_canonical_injective {n n' : Option ℤ}
    (h : (n.map Json.int).map canonical = (n'.map Json.int).map canonical) : n = n' := by
  cases n <;> cases n' <;> simp_all [canonical]

theorem intsJson_injective : Function.Injective intsJson := by
  intro ints ints' h
  exact List.map_injective_iff.mpr (fun _ _ hSame => Json.int.inj hSame) (Json.array.inj h)

theorem ints_canonical_injective {a a' : Option (List ℤ)}
    (h : (a.map intsJson).map canonical = (a'.map intsJson).map canonical) : a = a' := by
  have hMap : ∀ b : Option (List ℤ), (b.map intsJson).map canonical = b.map intsJson := by
    intro b
    cases b with
    | none => rfl
    | some ints => simp [canonical_ints]
  rw [hMap, hMap] at h
  exact Option.map_injective intsJson_injective h

theorem manifestJson_injective {m m' : ShardManifest}
    (h : (manifestJson m).canonical = (manifestJson m').canonical) : m = m' := by
  have hLookup : ∀ key,
      (lookup key m.toDict).map canonical = (lookup key m'.toDict).map canonical := by
    intro key
    have hFields := Json.object.inj h
    change sortedFields m.toDict = sortedFields m'.toDict at hFields
    rw [← Json.lookup_sortedFields (keys_manifest m), hFields,
      Json.lookup_sortedFields (keys_manifest m')]
  have hShard := hLookup "shard_id"
  have hSha := hLookup "payload_sha256"
  have hBytes := hLookup "payload_bytes"
  have hChunks := hLookup "total_chunks"
  have hChunk := hLookup "chunk_bytes"
  simp [ShardManifest.toDict, canonical] at hShard hSha hBytes hChunks hChunk
  cases m
  cases m'
  simp_all

/-- The signed fields, key by key. -/
structure Reads (fields : Fields) (requestId : String) (o : StageOutput) (stageNodeId : String)
    (inputCommitment : Option String) : Prop where
  requestId : lookup "request_id" fields =
    some (.str requestId)
  activationBlob : lookup "activation_blob_hex" fields =
    some (hexJson o.activationBlob)
  activationShape : lookup "activation_shape" fields =
    some (intsJson o.activationShape)
  activationDtype : lookup "activation_dtype" fields =
    some (.str o.activationDtype)
  stageNodeId : lookup "stage_node_id" fields =
    some (.str stageNodeId)
  activationManifest : lookup "activation_manifest_envelope" fields =
    o.activationManifest.map manifestJson
  nextTokenId : lookup "next_token_id" fields =
    o.nextTokenId.map .int
  isTerminal : lookup "is_terminal" fields =
    if o.isTerminal then some (.bool true) else none
  verifiedTokenIds : lookup "verified_token_ids" fields =
    o.verifiedTokenIds.map intsJson
  acceptedCount : lookup "accepted_count" fields =
    (o.verifiedTokenIds.bind fun _ => o.acceptedCount).map .int
  inputCommitment : lookup "input_commitment" fields =
    inputCommitment.map .str

theorem reads_payload : Reads (payloadFields requestId o duration epsilon stageNodeId
    inputCommitment) requestId o stageNodeId inputCommitment where
  requestId := by simp [payloadFields]
  activationBlob := by simp [payloadFields]
  activationShape := by simp [payloadFields]
  activationDtype := by simp [payloadFields]
  stageNodeId := by simp [payloadFields]
  activationManifest := by simp [payloadFields]
  nextTokenId := by simp [payloadFields]
  isTerminal := by simp [payloadFields]
  verifiedTokenIds := by simp [payloadFields]
  acceptedCount := by simp [payloadFields]
  inputCommitment := by simp [payloadFields]

/-- What the signed bytes say of a response. -/
structure SamePayload (requestId requestId' : String) (o o' : StageOutput)
    (stageNodeId stageNodeId' : String) (inputCommitment inputCommitment' : Option String) :
    Prop where
  requestId : requestId = requestId'
  stageNodeId : stageNodeId = stageNodeId'
  activationBlob : o.activationBlob = o'.activationBlob
  activationShape : o.activationShape = o'.activationShape
  activationDtype : o.activationDtype = o'.activationDtype
  activationManifest : o.activationManifest = o'.activationManifest
  nextTokenId : o.nextTokenId = o'.nextTokenId
  isTerminal : o.isTerminal = o'.isTerminal
  verifiedTokenIds : o.verifiedTokenIds = o'.verifiedTokenIds
  acceptedCount : (o.verifiedTokenIds.bind fun _ => o.acceptedCount) =
    o'.verifiedTokenIds.bind fun _ => o'.acceptedCount
  inputCommitment : inputCommitment = inputCommitment'

theorem manifest_canonical_injective {a a' : Option ShardManifest}
    (h : (a.map manifestJson).map canonical = (a'.map manifestJson).map canonical) : a = a' := by
  cases a <;> cases a'
  · rfl
  · cases h
  · cases h
  · rw [manifestJson_injective (Option.some.inj h)]

theorem samePayload_of_reads {fields fields' : Fields} {requestId' stageNodeId' : String}
    {o' : StageOutput} {inputCommitment' : Option String}
    (h : Reads fields requestId o stageNodeId inputCommitment)
    (h' : Reads fields' requestId' o' stageNodeId' inputCommitment')
    (hLookup : ∀ key, (lookup key fields).map canonical = (lookup key fields').map canonical) :
    SamePayload requestId requestId' o o' stageNodeId stageNodeId' inputCommitment
      inputCommitment' where
  requestId := by
    have hKey := hLookup "request_id"
    rw [h.requestId, h'.requestId] at hKey
    exact Json.str.inj (Option.some.inj hKey)
  stageNodeId := by
    have hKey := hLookup "stage_node_id"
    rw [h.stageNodeId, h'.stageNodeId] at hKey
    exact Json.str.inj (Option.some.inj hKey)
  activationBlob := by
    have hKey := hLookup "activation_blob_hex"
    rw [h.activationBlob, h'.activationBlob] at hKey
    exact Storage.hex_injective (Json.str.inj (Option.some.inj hKey))
  activationShape := by
    have hKey := hLookup "activation_shape"
    rw [h.activationShape, h'.activationShape, Option.map_some, Option.map_some, canonical_ints,
      canonical_ints] at hKey
    exact intsJson_injective (Option.some.inj hKey)
  activationDtype := by
    have hKey := hLookup "activation_dtype"
    rw [h.activationDtype, h'.activationDtype] at hKey
    exact Json.str.inj (Option.some.inj hKey)
  activationManifest := by
    have hKey := hLookup "activation_manifest_envelope"
    rw [h.activationManifest, h'.activationManifest] at hKey
    exact manifest_canonical_injective hKey
  nextTokenId := by
    have hKey := hLookup "next_token_id"
    rw [h.nextTokenId, h'.nextTokenId] at hKey
    exact int_canonical_injective hKey
  isTerminal := by
    have hKey := hLookup "is_terminal"
    rw [h.isTerminal, h'.isTerminal] at hKey
    cases hTerminal : o.isTerminal <;> cases hTerminal' : o'.isTerminal <;>
      simp [hTerminal, hTerminal'] at hKey ⊢
  verifiedTokenIds := by
    have hKey := hLookup "verified_token_ids"
    rw [h.verifiedTokenIds, h'.verifiedTokenIds] at hKey
    exact ints_canonical_injective hKey
  acceptedCount := by
    have hKey := hLookup "accepted_count"
    rw [h.acceptedCount, h'.acceptedCount] at hKey
    exact int_canonical_injective hKey
  inputCommitment := by
    have hKey := hLookup "input_commitment"
    rw [h.inputCommitment, h'.inputCommitment] at hKey
    exact str_canonical_injective hKey

end Payload

/-! ## The other bytes that the key signs -/

section Lanes

theorem length_utf8 (s : String) : s.toList.length ≤ (utf8 s).length := by
  have hBytes : (utf8 s).length = s.utf8ByteSize := by
    rw [utf8, List.length_map]
    rfl
  rw [hBytes, ← String.ofList_toList (s := s), String.utf8ByteSize_ofList, String.toList_ofList]
  induction s.toList with
  | nil => simp
  | cons c cs ih =>
      have hPos := c.utf8Size_pos
      rw [String.utf8Len_cons, List.length_cons]
      omega

variable {requestId stageNodeId : String} {o : StageOutput} {duration epsilon : PyFloat}
  {inputCommitment : Option String}

theorem payload_ne_digest {digest : Bytes} (h : digest.length = 32) :
    utf8 (Json.object
      (payloadFields requestId o duration epsilon stageNodeId inputCommitment)).text ≠ digest := by
  rintro rfl
  have hFields : 9 ≤
      (payloadFields requestId o duration epsilon stageNodeId inputCommitment).length := by
    simp only [payloadFields, List.length_append, List.length_cons, List.length_nil]
    omega
  have hText := Json.length_le_text
    (payloadFields requestId o duration epsilon stageNodeId inputCommitment)
  have hBytes := length_utf8 (Json.object
    (payloadFields requestId o duration epsilon stageNodeId inputCommitment)).text
  omega

theorem payload_ne_proof {stage : Stage} {proofRequest inputHash outputHash teeHash : String}
    {index : ℤ} :
    utf8 (Json.object
      (payloadFields requestId o duration epsilon stageNodeId inputCommitment)).text ≠
        proofSigningBytes stage proofRequest index inputHash outputHash teeHash := by
  intro h
  have hText := congrArg String.toList (Settlement.utf8_injective h)
  obtain ⟨rest, hBrace⟩ := Json.text_object_cons
    (payloadFields requestId o duration epsilon stageNodeId inputCommitment)
  rw [hBrace, List.cons_append, List.cons_append, String.intercalate_cons_cons,
    String.toList_append, String.toList_append] at hText
  have hDomain : "prsm-stage-activation-proof-v1".toList =
      'p' :: "rsm-stage-activation-proof-v1".toList := rfl
  rw [hDomain] at hText
  exact absurd (List.cons.inj hText).1 (by decide)

end Lanes

/-! ## Sessions -/

section Sessions

variable {py : Python} {read : String → Option PyFloat} {sha : Sha256} {keccak : Bytes → Bytes}
  {stage : Stage} {verifySignature : String → Bytes → String → Bool}
  {anchor : String → Option String}

/-- A request that a stage received, with the response it computed and signed for it. -/
structure Exchange (py : Python) (sha : Sha256) (keccak : Bytes → Bytes) (stage : Stage) where
  request : {m : RunLayerSliceRequestArgs // m.accepted = true}
  input : Bytes
  carries : CarriesInput sha request.1 input
  output : StageOutput
  context : SignContext
  response : RunLayerSliceResponse
  signedBytes : List Bytes
  signed : RunLayerSliceResponse.sign py sha keccak stage request.1.requestId output
    (responseInputCommitmentForRequest sha request.1) context = .ok (response, signedBytes)

/-- The fields that a response is used for. -/
structure RunLayerSliceResponseArgs.Agrees (m m' : RunLayerSliceResponseArgs) : Prop where
  activationBlob : m.activationBlob = m'.activationBlob
  activationManifest : m.activationManifest = m'.activationManifest
  activationShape : m.activationShape = m'.activationShape
  activationDtype : m.activationDtype = m'.activationDtype
  nextTokenId : m.nextTokenId = m'.nextTokenId
  isTerminal : m.isTerminal = m'.isTerminal
  verifiedTokenIds : m.verifiedTokenIds = m'.verifiedTokenIds
  acceptedCount : m.acceptedCount = m'.acceptedCount

/-- What `float` makes of the two numbers prints to a text that is read back. -/
def PrintsBack (py : Python) (read : String → Option PyFloat) (m : RunLayerSliceResponseArgs) :
    Prop :=
  ∀ x ∈ [m.durationSeconds, m.epsilonSpent], ∀ y,
    toFloat (ε := ProtocolError) py x.toJson = .ok y → ReadsBack read y

theorem signingPayload_eq_ok {requestId stageNodeId : String} {o : StageOutput}
    {inputCommitment : Option String} {payload : Bytes}
    (h : signingPayload py requestId o stageNodeId inputCommitment = .ok payload) :
    ∃ duration epsilon, toFloat (ε := ProtocolError) py o.durationSeconds.toJson = .ok duration ∧
      toFloat (ε := ProtocolError) py o.epsilonSpent.toJson = .ok epsilon ∧
      payload = utf8 (Json.object
        (payloadFields requestId o duration epsilon stageNodeId inputCommitment)).text := by
  obtain ⟨duration, hDuration, h⟩ := bind_eq_ok_iff.mp h
  obtain ⟨epsilon, hEpsilon, h⟩ := bind_eq_ok_iff.mp h
  refine ⟨duration, epsilon, hDuration, hEpsilon, ?_⟩
  split_ifs at h
  · cases h
  · exact (Except.ok.inj h).symm

theorem Exchange.spec (e : Exchange py sha keccak stage) :
    ∃ duration epsilon, e.response.1 = signedArgs sha keccak stage e.request.1.requestId e.output
        e.context duration epsilon (utf8 (Json.object (payloadFields e.request.1.requestId e.output
          duration epsilon stage.nodeId
          (responseInputCommitmentForRequest sha e.request.1))).text) ∧
      e.signedBytes = utf8 (Json.object (payloadFields e.request.1.requestId e.output duration
          epsilon stage.nodeId (responseInputCommitmentForRequest sha e.request.1))).text ::
        (activationProof sha stage e.request.1.requestId e.output e.context).toList ++
          (settlementLeaf sha keccak e.output e.context).toList := by
  obtain ⟨payload, hPayload, h⟩ := bind_eq_ok_iff.mp e.signed
  obtain ⟨duration, hDuration, h⟩ := bind_eq_ok_iff.mp h
  obtain ⟨epsilon, hEpsilon, h⟩ := bind_eq_ok_iff.mp h
  obtain ⟨response, hResponse, h⟩ := bind_eq_ok_iff.mp h
  obtain ⟨duration', epsilon', hDuration', hEpsilon', hText⟩ := signingPayload_eq_ok hPayload
  rw [hDuration'] at hDuration
  rw [hEpsilon'] at hEpsilon
  cases hDuration
  cases hEpsilon
  change Except.ok _ = Except.ok (e.response, e.signedBytes) at h
  have hFirst : response = e.response := congrArg Prod.fst (Except.ok.inj h)
  have hSecond := congrArg Prod.snd (Except.ok.inj h)
  refine ⟨duration, epsilon, ?_, ?_⟩
  · rw [← hText, ← hFirst]
    exact construct_eq_ok.mp hResponse
  · rw [← hText]
    exact hSecond.symm

theorem Exchange.payload_mem (hKeccak : ∀ data, (keccak data).length = 32)
    (e : Exchange py sha keccak stage) {requestId stageNodeId : String} {o : StageOutput}
    {duration epsilon : PyFloat} {inputCommitment : Option String}
    (h : utf8 (Json.object
      (payloadFields requestId o duration epsilon stageNodeId inputCommitment)).text ∈
        e.signedBytes) :
    ∃ duration' epsilon', e.response.1.durationSeconds = .float duration' ∧
      e.response.1.epsilonSpent = .float epsilon' ∧
      utf8 (Json.object
        (payloadFields requestId o duration epsilon stageNodeId inputCommitment)).text =
      utf8 (Json.object (payloadFields e.request.1.requestId e.response.1.output duration' epsilon'
        stage.nodeId (responseInputCommitmentForRequest sha e.request.1))).text := by
  obtain ⟨duration', epsilon', hResponse, hBytes⟩ := e.spec
  rw [hBytes, List.cons_append, List.mem_cons, List.mem_append] at h
  refine ⟨duration', epsilon', by rw [hResponse]; rfl, by rw [hResponse]; rfl, ?_⟩
  rcases h with hPayload | hProof | hLeaf
  · rw [hPayload, hResponse]
    rfl
  · rw [Option.mem_toList, activationProof] at hProof
    split_ifs at hProof
    obtain ⟨input, -, hProof⟩ := Option.bind_eq_some_iff.mp hProof
    obtain ⟨index, -, hProof⟩ := Option.map_eq_some_iff.mp hProof
    exact absurd hProof.symm payload_ne_proof
  · rw [Option.mem_toList, settlementLeaf] at hLeaf
    split_ifs at hLeaf
    obtain ⟨jobId, -, hLeaf⟩ := Option.bind_eq_some_iff.mp hLeaf
    obtain ⟨index, -, hLeaf⟩ := Option.bind_eq_some_iff.mp hLeaf
    obtain ⟨executedAt, -, hLeaf⟩ := Option.map_eq_some_iff.mp hLeaf
    exact absurd hLeaf.symm (payload_ne_digest (hKeccak _))

theorem verified_payload {m : RunLayerSliceResponse} {node key : String}
    {inputCommitment : Option String} (hAnchor : anchor node = some key)
    (h : verifyWithAnchor py verifySignature anchor m node inputCommitment = .ok true) :
    ∃ payload, signingPayload py m.1.requestId m.1.output node inputCommitment = .ok payload ∧
      verifySignature key payload m.1.stageSignatureB64 = true := by
  unfold verifyWithAnchor at h
  split_ifs at h with hEmpty hNode
  · cases h
  · cases h
  · rw [hAnchor, Option.filter_some] at h
    split_ifs at h with hKey
    · obtain ⟨payload, hPayload, hVerify⟩ := bind_eq_ok_iff.mp h
      rw [not_not.mp hNode] at hPayload
      exact ⟨payload, hPayload, Except.ok.inj hVerify⟩
    · cases h

theorem acceptedCount_signed (m : RunLayerSliceResponse) :
    (m.1.verifiedTokenIds.bind fun _ => m.1.acceptedCount) = m.1.acceptedCount := by
  have hAccepted := m.2
  simp only [RunLayerSliceResponseArgs.accepted, ne_eq, decide_eq_true_eq] at hAccepted
  obtain ⟨-, -, -, -, -, -, -, -, hVerified, -⟩ := hAccepted
  cases hTokens : m.1.verifiedTokenIds with
  | some tokens => rfl
  | none =>
      cases hCount : m.1.acceptedCount with
      | none => rfl
      | some count => simp [validVerified, hTokens, hCount] at hVerified

theorem SamePayload.agrees {m m' : RunLayerSliceResponse} {requestId requestId' : String}
    {node node' : String} {commitment commitment' : Option String}
    (h : SamePayload requestId requestId' m.1.output m'.1.output node node' commitment
      commitment') : m.1.Agrees m'.1 where
  activationBlob := h.activationBlob
  activationManifest := h.activationManifest
  activationShape := h.activationShape
  activationDtype := h.activationDtype
  nextTokenId := h.nextTokenId
  isTerminal := h.isTerminal
  verifiedTokenIds := h.verifiedTokenIds
  acceptedCount := by
    have hCount := h.acceptedCount
    change (m.1.verifiedTokenIds.bind fun _ => m.1.acceptedCount) =
      m'.1.verifiedTokenIds.bind fun _ => m'.1.acceptedCount at hCount
    rwa [acceptedCount_signed, acceptedCount_signed] at hCount

theorem sameInput_of_commitment {r r' : RunLayerSliceRequestArgs} {input input' : Bytes}
    (h : CarriesInput sha r input) (h' : CarriesInput sha r' input') {inputs : Set Bytes}
    (hCollisionFree : Set.InjOn sha.digest inputs) (hInput : input ∈ inputs)
    (hInput' : input' ∈ inputs)
    (hSame : responseInputCommitmentForRequest sha r = responseInputCommitmentForRequest sha r') :
    r.decodeMode = .prefill ∧ r'.decodeMode = .prefill ∨
      r.decodeMode ≠ .prefill ∧ r'.decodeMode ≠ .prefill ∧ input' = input := by
  unfold responseInputCommitmentForRequest at hSame
  by_cases hPrefill : r.decodeMode = .prefill
  · by_cases hPrefill' : r'.decodeMode = .prefill
    · exact Or.inl ⟨hPrefill, hPrefill'⟩
    · rw [if_pos hPrefill, if_neg hPrefill'] at hSame
      cases hSame
  · by_cases hPrefill' : r'.decodeMode = .prefill
    · rw [if_neg hPrefill, if_pos hPrefill'] at hSame
      cases hSame
    · rw [if_neg hPrefill, if_neg hPrefill', requestInputCommitment_eq sha h,
        requestInputCommitment_eq sha h', Option.some.injEq] at hSame
      exact Or.inr ⟨hPrefill, hPrefill',
        (Storage.injOn_hexdigest hCollisionFree hInput hInput' hSame).symm⟩

end Sessions

/-! ## Two requests of one session -/

namespace Sample

def sha : Sha256 := Sha256.ofTable []

def keccak (_ : Bytes) : Bytes := Storage.digestBytes 0

def stage : Stage where
  nodeId := "n"
  publicKeyB64 := "k"
  sign := fun _ => "s"
  bindAttestation := false

def anchor (node : String) : Option String := if node = "n" then some "k" else none

def token (index : ℤ) : HandoffToken :=
  ⟨{ requestId := "r", settlerNodeId := "u", chainStageIndex := index % 2, chainTotalStages := 2,
      deadlineUnix := .int 1, signatureB64 := "t", ephemeralPubkey := none, layerRange := none,
      modelId := none }, by
    have hLow := Int.emod_nonneg index (b := 2) (by decide)
    have hHigh := Int.emod_lt_of_pos index (b := 2) (by decide)
    simp [HandoffTokenArgs.accepted, hLow, hHigh]⟩

/-- A request to the stage, of one session. -/
def request (mode : DecodeMode) (index : ℤ) (blob : Bytes) (hBlob : blob ≠ []) :
    {m : RunLayerSliceRequestArgs // m.accepted = true} :=
  ⟨{ requestId := "r", modelId := "m", layerRange := (0, 1), privacyTier := .none,
      contentTier := .a, activationBlob := blob, activationShape := [1], activationDtype := "f",
      upstreamToken := token index, deadlineUnix := .int 1, activationManifest := none,
      streaming := false, maxTokens := none, temperature := none, decodeMode := mode,
      proposedTokenIds := if mode = .verify then some [7] else none,
      proposedTokenProbs := none, encryptedProposedTokenProbs := none, protocolVersion := 2,
      messageType := "run_layer_slice_request" }, by
    cases mode <;>
      simp [RunLayerSliceRequestArgs.accepted, onePayload, validProposal, validProbs, token,
        hBlob, maxVerifyBatchTokens]⟩

def output (blob : Bytes) : StageOutput where
  activationBlob := blob
  activationShape := [1]
  activationDtype := "f"
  durationSeconds := .float (Wire.Sample.floatOf 0)
  teeAttestation := []
  teeType := .none
  epsilonSpent := .float (Wire.Sample.floatOf 0)
  activationManifest := none
  nextTokenId := none
  isTerminal := false
  verifiedTokenIds := none
  acceptedCount := none

def context : SignContext where
  stageInputBlob := none
  chainStageIndex := none
  settlementJobId := none
  settlementStageIndex := none
  settlementExecutedAtUnix := none

def signedPayload (blob : Bytes) (commitment : Option String) : Bytes :=
  utf8 (Json.object (payloadFields "r" (output blob) (Wire.Sample.floatOf 0)
    (Wire.Sample.floatOf 0) "n" commitment)).text

theorem signingPayload_output (blob : Bytes) (commitment : Option String) :
    signingPayload Wire.Sample.python "r" (output blob) "n" commitment =
      .ok (signedPayload blob commitment) := by
  have hNumber : toFloat (ε := ProtocolError) Wire.Sample.python
      (Number.float (Wire.Sample.floatOf 0)).toJson = .ok (Wire.Sample.floatOf 0) := rfl
  simp only [signingPayload, output, hNumber, ok_bind]
  exact if_neg (by simp)

def answerArgs (blob : Bytes) (commitment : Option String) : RunLayerSliceResponseArgs :=
  signedArgs sha keccak stage "r" (output blob) context (Wire.Sample.floatOf 0)
    (Wire.Sample.floatOf 0) (signedPayload blob commitment)

theorem accepted_answer {blob : Bytes} (h : blob ≠ []) (commitment : Option String) :
    (answerArgs blob commitment).accepted = true := by
  simp [answerArgs, signedArgs, output, stage, settlementLeaf, context, h, onePayload,
    validVerified, RunLayerSliceResponseArgs.accepted, Number.negative, Wire.Sample.floatOf]

/-- The response that the stage signs. -/
def response (blob : Bytes) (h : blob ≠ []) (commitment : Option String) : RunLayerSliceResponse :=
  ⟨answerArgs blob commitment, accepted_answer h commitment⟩

theorem sign_output {blob : Bytes} (h : blob ≠ []) (commitment : Option String) :
    RunLayerSliceResponse.sign Wire.Sample.python sha keccak stage "r" (output blob) commitment
      context = .ok (response blob h commitment, [signedPayload blob commitment]) := by
  have hNumber : toFloat (ε := ProtocolError) Wire.Sample.python
      (Number.float (Wire.Sample.floatOf 0)).toJson = .ok (Wire.Sample.floatOf 0) := rfl
  have hDuration : (output blob).durationSeconds = .float (Wire.Sample.floatOf 0) := rfl
  have hEpsilon : (output blob).epsilonSpent = .float (Wire.Sample.floatOf 0) := rfl
  have hNode : stage.nodeId = "n" := rfl
  have hProof : activationProof sha stage "r" (output blob) context = none := by
    simp [activationProof, context]
  have hLeaf : settlementLeaf sha keccak (output blob) context = none := by
    simp [settlementLeaf, context]
  have hArgs : construct RunLayerSliceResponseArgs.accepted
      (signedArgs sha keccak stage "r" (output blob) context (Wire.Sample.floatOf 0)
        (Wire.Sample.floatOf 0) (signedPayload blob commitment)) =
      .ok ⟨answerArgs blob commitment, accepted_answer h commitment⟩ :=
    dif_pos (accepted_answer h commitment)
  rw [RunLayerSliceResponse.sign, hNode, signingPayload_output, ok_bind, hDuration, hEpsilon,
    hNumber, ok_bind, ok_bind, hArgs, ok_bind, hProof, hLeaf]
  rfl

/-- The stage answers a request with the activation. -/
def exchange (mode : DecodeMode) (index : ℤ) (input answer : Bytes) (hInput : input ≠ [])
    (hAnswer : answer ≠ []) : Exchange Wire.Sample.python sha keccak stage where
  request := request mode index input hInput
  input := input
  carries := rfl
  output := output answer
  context := context
  response := response answer hAnswer (responseInputCommitmentForRequest sha
    (request mode index input hInput).1)
  signedBytes := [signedPayload answer (responseInputCommitmentForRequest sha
    (request mode index input hInput).1)]
  signed := sign_output hAnswer _

def prefills : List (Exchange Wire.Sample.python sha keccak stage) :=
  [exchange .prefill 0 [1] [10] (by decide) (by decide),
    exchange .prefill 1 [2] [20] (by decide) (by decide)]

/-- An incremental step and a verification with one activation. -/
def decodes : List (Exchange Wire.Sample.python sha keccak stage) :=
  [exchange .incremental 0 [3] [30] (by decide) (by decide),
    exchange .verify 0 [3] [40] (by decide) (by decide)]

/-- A signature is good for what has been signed in a session. -/
def verifySignature (session : List (Exchange Wire.Sample.python sha keccak stage)) (key : String)
    (data : Bytes) (signature : String) : Bool :=
  key = "k" ∧ signature = "s" ∧ session.any fun e => e.signedBytes.any fun signed => signed = data

/-- Every response of a session that verifies for a request of it is one that was computed in
the same phase for the same activation. -/
def AnswersOnlyItsOwn (session : List (Exchange Wire.Sample.python sha keccak stage)) : Prop :=
  ∀ r ∈ session, ∀ response : RunLayerSliceResponse,
    verifyWithAnchor Wire.Sample.python (verifySignature session) anchor response "n"
      (responseInputCommitmentForRequest sha r.request.1) = .ok true →
    ∃ e ∈ session, response.1.Agrees e.response.1 ∧
      e.request.1.decodeMode = r.request.1.decodeMode ∧ e.input = r.input

theorem verified_answer (session : List (Exchange Wire.Sample.python sha keccak stage))
    {answer : Bytes} (hAnswer : answer ≠ []) {commitment : Option String}
    (h : ∃ e ∈ session, e.signedBytes = [signedPayload answer commitment]) :
    verifyWithAnchor Wire.Sample.python (verifySignature session) anchor
      (response answer hAnswer commitment) "n" commitment = .ok true := by
  obtain ⟨e, hMem, hBytes⟩ := h
  have hSigned : verifySignature session "k" (signedPayload answer commitment) "s" = true := by
    simp only [verifySignature, List.any_eq_true, decide_eq_true_eq, true_and]
    exact ⟨e, hMem, signedPayload answer commitment, by simp [hBytes], rfl⟩
  have hAnchor : (anchor "n").filter (fun key => key ≠ "") = some "k" := by
    simp [anchor]
  have hPayload := signingPayload_output answer commitment
  have hNode : ¬(response answer hAnswer commitment).1.stageNodeId ≠ "n" := by
    show ¬"n" ≠ "n"
    simp
  rw [verifyWithAnchor, if_neg (by simp), if_neg hNode, hAnchor]
  show (signingPayload Wire.Sample.python "r" (output answer) "n" commitment >>= fun data =>
    Except.ok (verifySignature session "k" data "s")) = Except.ok true
  rw [hPayload, ok_bind, hSigned]

theorem prints_output (blob : Bytes) (h : blob ≠ []) (commitment : Option String) :
    PrintsBack Wire.Sample.python Wire.Sample.readFloat (response blob h commitment).1 := by
  intro x hx y hy
  have hZero : x = .float (Wire.Sample.floatOf 0) := by
    change x ∈ [Number.float (Wire.Sample.floatOf 0), .float (Wire.Sample.floatOf 0)] at hx
    simpa using hx
  subst hZero
  obtain rfl : Wire.Sample.floatOf 0 = y := Except.ok.inj hy
  exact Wire.Sample.roundTrips.readsBack_floatOf 0 (by decide +kernel)

theorem signed_of_verified (session : List (Exchange Wire.Sample.python sha keccak stage))
    (data : Bytes) (sig : String)
    (h : verifySignature session stage.publicKeyB64 data sig = true) :
    ∃ e ∈ session, data ∈ e.signedBytes := by
  simp only [verifySignature, List.any_eq_true, decide_eq_true_eq] at h
  obtain ⟨-, -, e, hMem, signed, hSigned, rfl⟩ := h
  exact ⟨e, hMem, hSigned⟩

theorem collisionFree_decodes :
    Set.InjOn sha.digest {data | data = [3] ∨ ∃ e ∈ decodes, data = e.input} := by
  have hOnly : ∀ data, (data = [3] ∨ ∃ e ∈ decodes, data = e.input) → data = [3] := by
    rintro data (rfl | ⟨e, hMem, rfl⟩)
    · rfl
    · simp only [decodes, List.mem_cons, List.not_mem_nil, or_false] at hMem
      rcases hMem with rfl | rfl <;> rfl
  intro a ha b hb _
  rw [hOnly a ha, hOnly b hb]

theorem prints_decodes : ∀ e ∈ decodes,
    PrintsBack Wire.Sample.python Wire.Sample.readFloat e.response.1 := by
  intro e hMem
  simp only [decodes, List.mem_cons, List.not_mem_nil, or_false] at hMem
  rcases hMem with rfl | rfl
  · exact prints_output [30] (by decide) _
  · exact prints_output [40] (by decide) _

end Sample

end Prsm.ChainRpc
