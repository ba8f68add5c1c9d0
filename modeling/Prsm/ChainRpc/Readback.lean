import Prsm.ChainRpc.Codec

/-!
# Writing a message and reading it

A message is written with its fields in the order of their keys, so a decoder sees an object
that `Encodes` the fields of `to_dict`.  Each reader gives back what its field was written
from; a number comes back as the double it is.
-/

namespace Prsm.ChainRpc

open Foundations Wire
open Foundations.Json (field lookup canonical sortedFields ReadsBack Printable)
open Evm (Bytes)
open Settlement (hex)

/-! ## What a decoder sees -/

/-- The object has the fields, each with its value in order. -/
structure Encodes (fields d : Fields) : Prop where
  lookup : ∀ key, lookup key d = (lookup key fields).map canonical

theorem encodes_sortedFields {fields : Fields} (h : (fields.map Prod.fst).Nodup) :
    Encodes fields (sortedFields fields) where
  lookup := Json.lookup_sortedFields h

@[simp] theorem lookup_append (key : String) (fields more : Fields) :
    lookup key (fields ++ more) = (lookup key fields).or (lookup key more) := by
  induction fields with
  | nil => rfl
  | cons f rest ih =>
      rw [List.cons_append, lookup, lookup, ih]
      split_ifs <;> rfl

@[simp] theorem lookup_whenSet {α : Type} (key k : String) (toJson : α → Json) (a : Option α) :
    lookup key (whenSet k toJson a) = if k = key then a.map toJson else none := by
  cases a with
  | none => simp [whenSet]
  | some a => simp [whenSet]

@[simp] theorem lookup_flagged (key k : String) (v : Json) (c : Prop) [Decidable c] :
    lookup key (if c then [(k, v)] else []) =
      if k = key then if c then some v else none else none := by
  by_cases hc : c
  · simp [hc]
  · simp [hc]

@[simp] theorem lookup_flagged_not (key k : String) (v : Json) (c : Prop) [Decidable c] :
    lookup key (if c then [] else [(k, v)]) =
      if k = key then if c then none else some v else none := by
  by_cases hc : c
  · simp [hc]
  · simp [hc]

section Get

variable {fields d : Fields}

theorem Encodes.get (h : Encodes fields d) (key : String) :
    get d key = ((Json.lookup key fields).map canonical).getD .null := by
  rw [ChainRpc.get, field, h.lookup]

theorem Encodes.get_some (h : Encodes fields d) {key : String} {v : Json}
    (hv : Json.lookup key fields = some v) : ChainRpc.get d key = v.canonical := by
  rw [h.get, hv]
  rfl

theorem Encodes.get_map {α : Type} (h : Encodes fields d) {key : String} {toJson : α → Json}
    {a : Option α} (ha : Json.lookup key fields = a.map toJson) :
    ChainRpc.get d key = (a.map fun a => (toJson a).canonical).getD .null := by
  rw [h.get, ha, Option.map_map]
  rfl

end Get

/-! ## The readers -/

section Readers

variable {fields d : Fields} {key : String} {py : Python}

variable {α : Type} {s : String} {bytes : Bytes}

theorem construct_eq_ok {accepted : α → Bool} {args : α}
    {a : {args : α // accepted args = true}} : construct accepted args = .ok a ↔ a.1 = args := by
  unfold construct
  split_ifs with h
  · rw [Except.ok.injEq, Subtype.ext_iff]
    exact eq_comm
  · simp only [malformed, reduceCtorEq, false_iff]
    rintro rfl
    exact h a.2

theorem expect_eq {pick : Json → Option α} {x : Json} {a : α} (h : pick x = some a) :
    expect pick x = .ok a := by rw [expect, h]

theorem text_eq (hs : s ≠ "") : text (.str s) = some s := by
  rw [text, anyText, Option.filter_some, if_pos (decide_eq_true hs)]

theorem requiredStr_eq (h : Encodes fields d)
    (hv : lookup key fields = some (.str s)) (hs : s ≠ "") : requiredStr d key = .ok s := by
  rw [requiredStr, h.get_some hv]
  exact expect_eq (text_eq hs)

theorem requiredInt_eq {n : ℤ} (h : Encodes fields d)
    (hv : lookup key fields = some (.int n)) : requiredInt d key = .ok n := by
  rw [requiredInt, h.get_some hv]
  rfl

/-- A check. -/
def ensure (c : Prop) [Decidable c] : Decode Unit := if c then .ok () else malformed

theorem ensure_eq_ok {c : Prop} [Decidable c] : ensure c = .ok () ↔ c := by
  unfold ensure
  split_ifs with h
  · simp [h]
  · simp [h, malformed]

theorem expectType_eq {tag : String} (h : Encodes fields d)
    (hv : lookup "type" fields = some (.str s)) :
    expectType d tag = ensure (s = tag) := by
  rw [expectType, h.get_some hv, ensure]
  by_cases hTag : s = tag
  · rw [if_pos hTag]
    exact expect_eq (by simp [canonical, typeTag, anyText, hTag])
  · rw [if_neg hTag]
    simp [canonical, expect, typeTag, anyText, hTag]

theorem optional_eq {pick : Json → Option α} {toJson : α → Json} {a : Option α}
    (h : Encodes fields d) (ha : lookup key fields = a.map toJson)
    (hPick : ∀ x, a = some x → pick (toJson x).canonical = some x)
    (hNull : ∀ x, (toJson x).canonical ≠ .null) : expect (orNull pick) (get d key) = .ok a := by
  rw [h.get_map ha]
  cases a with
  | none => rfl
  | some x =>
      refine expect_eq ?_
      have hSet := hPick x rfl
      have hNe := hNull x
      simp only [Option.map_some, Option.getD_some]
      unfold orNull
      split
      · next hNullJson => exact absurd hNullJson hNe
      · rw [hSet]
        rfl

theorem optionalInt_eq {a : Option ℤ} (h : Encodes fields d)
    (ha : lookup key fields = a.map .int) : optionalInt d key = .ok a :=
  optional_eq h ha (fun _ _ => rfl) (by simp [canonical])

theorem optionalStr_eq {a : Option String} (h : Encodes fields d)
    (ha : lookup key fields = a.map .str) : optionalStr d key = .ok a :=
  optional_eq h ha (fun _ _ => rfl) (by simp [canonical])

theorem hexText_hexJson (bytes : Bytes) : hexText (hexJson bytes) = some bytes := by
  simp [hexText, hexJson, anyText, Settlement.fromhex_hex]

theorem canonical_hexJson (bytes : Bytes) : (hexJson bytes).canonical = hexJson bytes := rfl

theorem optionalHex_eq {a : Option Bytes} (h : Encodes fields d)
    (ha : lookup key fields = a.map hexJson) : optionalHex d key = .ok a :=
  optional_eq h ha (fun bytes _ => hexText_hexJson bytes) (by simp [hexJson, canonical])

theorem expect_hexText_eq (h : Encodes fields d)
    (hv : lookup key fields = some (hexJson bytes)) :
    expect hexText (get d key) = .ok bytes := by
  rw [h.get_some hv]
  exact expect_eq (hexText_hexJson bytes)

theorem hex_eq_empty : hex bytes = "" ↔ bytes = [] := by
  constructor
  · intro h
    have hBack := Settlement.fromhex_hex bytes
    rw [h] at hBack
    exact (Option.some.inj hBack).symm
  · rintro rfl
    rfl

theorem expect_nonemptyHex_eq (h : Encodes fields d)
    (hv : lookup key fields = some (hexJson bytes)) :
    expect nonemptyHex (get d key) = (fun _ => bytes) <$> ensure (bytes ≠ []) := by
  rw [h.get_some hv, ensure]
  have hPick : nonemptyHex (hexJson bytes) = if bytes ≠ [] then some bytes else none := by
    by_cases hEmpty : bytes = []
    · subst hEmpty
      rfl
    · have hText : hex bytes ≠ "" := fun h => hEmpty (hex_eq_empty.mp h)
      rw [if_pos hEmpty, nonemptyHex, hexJson, text_eq hText]
      exact Settlement.fromhex_hex bytes
  rw [canonical_hexJson, expect, hPick]
  split_ifs <;> rfl

theorem named_eq {ofText : String → Option α} (toText : α → String) {a : α}
    (h : Encodes fields d) (hv : lookup key fields = some (.str (toText a)))
    (hNe : toText a ≠ "") (hBack : ofText (toText a) = some a) :
    enumeration d key ofText = .ok a := by
  rw [enumeration, h.get_some hv]
  refine expect_eq ?_
  simp only [canonical, named, text_eq hNe]
  exact hBack

theorem flag_eq {b : Bool} (h : Encodes fields d)
    (hv : lookup key fields = if b then some (.bool true) else none) : flag d key = .ok b := by
  rw [flag, field, h.lookup, hv]
  cases b <;> rfl

end Readers

/-! ## Lists and manifests -/

section Nested

variable {fields d : Fields} {key : String} {py : Python}

theorem canonical_ints (ints : List ℤ) : (intsJson ints).canonical = intsJson ints := by
  rw [intsJson, Json.canonical_array, List.map_map]
  rfl

theorem mapM_integer (ints : List ℤ) : (ints.map Json.int).mapM integer = some ints := by
  induction ints with
  | nil => rfl
  | cons n rest ih =>
      rw [List.map_cons, List.mapM_cons, ih]
      rfl

theorem convertAll_toInt (ints : List ℤ) :
    convertAll (toInt py) (ints.map Json.int) = .ok ints := by
  induction ints with
  | nil => rfl
  | cons n rest ih =>
      rw [List.map_cons, convertAll, ih]
      rfl

theorem optionalInts_eq {a : Option (List ℤ)} (h : Encodes fields d)
    (ha : lookup key fields = a.map intsJson) :
    expect (orNull integers) (get d key) = .ok a := by
  refine optional_eq h ha ?_ ?_
  · intro ints _
    rw [canonical_ints]
    exact mapM_integer ints
  · intro ints
    rw [canonical_ints]
    simp [intsJson]

theorem keys_manifest (m : ShardManifest) : (m.toDict.map Prod.fst).Nodup := by
  simp [ShardManifest.toDict]

theorem manifest_fromDict {m : ShardManifest} (hValid : m.valid = true)
    (h : Encodes m.toDict d) : ShardManifest.fromDict d = some m := by
  simp only [ShardManifest.valid, ne_eq, Bool.decide_and] at hValid
  have hSha : m.payloadSha256 ≠ "" := by
    intro hEmpty
    simp [hEmpty] at hValid
  have hShard : m.shardId ≠ "" := by
    intro hEmpty
    simp [hEmpty] at hValid
  rw [ShardManifest.fromDict, h.get_some (v := .str m.shardId) rfl,
    h.get_some (v := .str m.payloadSha256) rfl, h.get_some (v := .int m.payloadBytes) rfl,
    h.get_some (v := .int m.totalChunks) rfl, h.get_some (v := .int m.chunkBytes) rfl]
  simp only [canonical, text_eq hSha, text_eq hShard, integer]
  rfl

theorem optionalManifest_eq {a : Option ShardManifest} (h : Encodes fields d)
    (hValid : ∀ m, a = some m → m.valid = true)
    (ha : lookup "activation_manifest" fields = a.map manifestJson) :
    optionalManifest d = .ok a := by
  refine optional_eq h ha ?_ ?_
  · intro m hm
    rw [manifestJson, Json.canonical_object]
    exact manifest_fromDict (hValid m hm) (encodes_sortedFields (keys_manifest m))
  · intro m
    rw [manifestJson, Json.canonical_object]
    simp

end Nested

/-! ## Numbers -/

section Numbers

variable {fields d : Fields} {key : String} {py : Python}

theorem canonical_number (x : Number) : x.toJson.canonical = x.toJson := by
  cases x <;> rfl

theorem requiredNumber_eq {x : Number} (h : Encodes fields d)
    (hv : lookup key fields = some x.toJson) :
    requiredNumber d key py = toFloat py x.toJson := by
  rw [requiredNumber, h.get_some hv, canonical_number]
  cases x <;> rfl

end Numbers

/-! ## Tokens -/

section Tokens

variable {d : Fields} {py : Python}

theorem tokenRange_eq {a : Option (ℤ × ℤ)} (h : ∀ range, a = some range → validLayerRange range) :
    tokenRange ((a.map fun range => (rangeJson range).canonical).getD .null) = some a := by
  cases a with
  | none => rfl
  | some range =>
      have hValid := h range rfl
      simp only [Option.map_some, Option.getD_some, rangeJson, Json.canonical_array, List.map,
        canonical, tokenRange]
      rw [if_pos hValid]

attribute [local simp] HandoffTokenArgs.toDict RunLayerSliceResponseArgs.toDict

theorem token_fromDict (token : HandoffToken) (h : Encodes token.1.toDict d) :
    HandoffToken.fromDict py d =
      (fun y => ⟨{ token.1 with deadlineUnix := .float y }, token.2⟩) <$>
        toFloat py token.1.deadlineUnix.toJson := by
  obtain ⟨t, hAccepted⟩ := token
  have hChecks := hAccepted
  simp only [HandoffTokenArgs.accepted, ne_eq, decide_eq_true_eq] at hChecks
  obtain ⟨hRequest, hSettler, hSignature, hRange, -⟩ := hChecks
  have hKey : optionalHex d "ephemeral_pubkey_hex" = .ok t.ephemeralPubkey :=
    optionalHex_eq h (by simp)
  have hRequestId : requiredStr d "request_id" = .ok t.requestId :=
    requiredStr_eq h (by simp) hRequest
  have hSettlerId : requiredStr d "settler_node_id" = .ok t.settlerNodeId :=
    requiredStr_eq h (by simp) hSettler
  have hIndex : requiredInt d "chain_stage_index" = .ok t.chainStageIndex :=
    requiredInt_eq h (by simp)
  have hTotal : requiredInt d "chain_total_stages" = .ok t.chainTotalStages :=
    requiredInt_eq h (by simp)
  have hDeadline : requiredNumber d "deadline_unix" py = toFloat py t.deadlineUnix.toJson :=
    requiredNumber_eq h (by simp)
  have hSigned : requiredStr d "signature_b64" = .ok t.signatureB64 :=
    requiredStr_eq h (by simp) hSignature
  have hLayers : expect tokenRange (get d "layer_range") = .ok t.layerRange := by
    have hGet : get d "layer_range" =
        (t.layerRange.map fun range => (rangeJson range).canonical).getD .null :=
      h.get_map (by simp)
    rw [hGet]
    refine expect_eq (tokenRange_eq ?_)
    rintro range hSome
    simpa [hSome] using hRange
  have hModel : anyText (get d "model_id") = t.modelId := by
    have hGet : get d "model_id" = (t.modelId.map fun s => (Json.str s).canonical).getD .null :=
      h.get_map (by simp)
    rw [hGet]
    cases t.modelId <;> rfl
  simp only [HandoffToken.fromDict, hKey, hRequestId, hSettlerId, hIndex, hTotal, hDeadline,
    hSigned, hLayers, hModel, ok_bind]
  cases toFloat (ε := ProtocolError) py t.deadlineUnix.toJson with
  | error e => rfl
  | ok y => exact dif_pos hAccepted

/-! ## Responses -/

theorem tee_ofText (tee : TEEType) : TEEType.ofText tee.text = some tee ∧ tee.text ≠ "" := by
  cases tee <;> decide

theorem expect_items_eq {fields : Fields} {key : String} {ints : List ℤ} (h : Encodes fields d)
    (hv : lookup key fields = some (intsJson ints)) :
    expect items (get d key) = .ok (ints.map .int) := by
  rw [h.get_some hv, canonical_ints]
  rfl

theorem verifiedTokens_eq {m : RunLayerSliceResponseArgs} (h : Encodes m.toDict d)
    (hValid : validVerified m.verifiedTokenIds m.acceptedCount = true)
    (hv : lookup "verified_token_ids" m.toDict = m.verifiedTokenIds.map intsJson) :
    expect (orNull verifiedTokens) (get d "verified_token_ids") = .ok m.verifiedTokenIds := by
  refine optional_eq h hv ?_ ?_
  · intro ints hInts
    have hLength : ints.length ≤ maxVerifyBatchTokens := by
      rw [hInts] at hValid
      cases hCount : m.acceptedCount with
      | none => simp [validVerified, hCount] at hValid
      | some count =>
          simp only [validVerified, hCount, ne_eq, decide_eq_true_eq] at hValid
          exact hValid.2.1
    rw [canonical_ints, verifiedTokens, intsJson, items, Option.filter_some,
      if_pos (by simpa using hLength)]
    exact mapM_integer ints
  · intro ints
    rw [canonical_ints]
    simp [intsJson]

theorem manifest_valid {blob : Bytes} {a : Option ShardManifest}
    (h : onePayload blob a = true) : ∀ m, a = some m → m.valid = true := by
  rintro m rfl
  simp only [onePayload, Bool.decide_and, Bool.and_eq_true] at h
  simpa using h.1

theorem response_fromDict (m : RunLayerSliceResponse) (h : Encodes m.1.toDict d) :
    RunLayerSliceResponse.fromDict py d = (do
      ensure (m.1.messageType = "run_layer_slice_response")
      ensure (m.1.teeAttestation ≠ [])
      let duration ← toFloat py m.1.durationSeconds.toJson
      let epsilon ← toFloat py m.1.epsilonSpent.toJson
      construct RunLayerSliceResponseArgs.accepted
        { m.1 with
          durationSeconds := .float duration, epsilonSpent := .float epsilon,
          messageType := "run_layer_slice_response" }) := by
  obtain ⟨m, hAccepted⟩ := m
  simp only [RunLayerSliceResponseArgs.accepted, ne_eq, decide_eq_true_eq] at hAccepted
  obtain ⟨hRequest, hDtype, hSignature, hNode, -, -, hPayload, -, hVerified, -⟩ := hAccepted
  have hType : expectType d "run_layer_slice_response" =
      ensure (m.messageType = "run_layer_slice_response") := expectType_eq h (by simp)
  have hShape : expect items (get d "activation_shape") = .ok (m.activationShape.map .int) :=
    expect_items_eq h (by simp)
  have hBlob : expect hexText (get d "activation_blob_hex") = .ok m.activationBlob :=
    expect_hexText_eq h (by simp)
  have hTee : expect nonemptyHex (get d "tee_attestation_hex") =
      (fun _ => m.teeAttestation) <$> ensure (m.teeAttestation ≠ []) :=
    expect_nonemptyHex_eq h (by simp)
  have hTeeType : enumeration d "tee_type" TEEType.ofText = .ok m.teeType :=
    named_eq TEEType.text h (by simp) (tee_ofText _).2 (tee_ofText _).1
  have hManifest : optionalManifest d = .ok m.activationManifest :=
    optionalManifest_eq h (manifest_valid hPayload) (by simp)
  have hToken : optionalInt d "next_token_id" = .ok m.nextTokenId := optionalInt_eq h (by simp)
  have hTerminal : flag d "is_terminal" = .ok m.isTerminal := flag_eq h (by simp)
  have hTokens := verifiedTokens_eq h hVerified (by simp)
  have hCount : optionalInt d "accepted_count" = .ok m.acceptedCount := optionalInt_eq h (by simp)
  have hRequestId : requiredStr d "request_id" = .ok m.requestId :=
    requiredStr_eq h (by simp) hRequest
  have hDtypeText : requiredStr d "activation_dtype" = .ok m.activationDtype :=
    requiredStr_eq h (by simp) hDtype
  have hDuration : requiredNumber d "duration_seconds" py = toFloat py m.durationSeconds.toJson :=
    requiredNumber_eq h (by simp)
  have hEpsilon : requiredNumber d "epsilon_spent" py = toFloat py m.epsilonSpent.toJson :=
    requiredNumber_eq h (by simp)
  have hSigned : requiredStr d "stage_signature_b64" = .ok m.stageSignatureB64 :=
    requiredStr_eq h (by simp) hSignature
  have hNodeId : requiredStr d "stage_node_id" = .ok m.stageNodeId :=
    requiredStr_eq h (by simp) hNode
  have hInput : optionalStr d "stage_input_activation_hash" = .ok m.stageInputActivationHash :=
    optionalStr_eq h (by simp)
  have hOutput : optionalStr d "stage_output_activation_hash" = .ok m.stageOutputActivationHash :=
    optionalStr_eq h (by simp)
  have hProof : optionalStr d "stage_activation_proof_b64" = .ok m.stageActivationProofB64 :=
    optionalStr_eq h (by simp)
  have hSettlement :
      optionalStr d "stage_settlement_signature_b64" = .ok m.stageSettlementSignatureB64 :=
    optionalStr_eq h (by simp)
  have hPubkey : optionalStr d "stage_settlement_pubkey_b64" = .ok m.stageSettlementPubkeyB64 :=
    optionalStr_eq h (by simp)
  have hExecuted :
      optionalInt d "stage_settlement_executed_at_unix" = .ok m.stageSettlementExecutedAtUnix :=
    optionalInt_eq h (by simp)
  have hVersion : requiredInt d "protocol_version" = .ok m.protocolVersion :=
    requiredInt_eq h (by simp)
  simp only [RunLayerSliceResponse.fromDict, hType, hShape, hBlob, hTee, hTeeType, hManifest,
    hToken, hTerminal, hTokens, hCount, hRequestId, convertAll_toInt, hDtypeText, hDuration,
    hEpsilon, hSigned, hNodeId, hInput, hOutput, hProof, hSettlement, hPubkey, hExecuted, hVersion,
    ok_bind, bind_map_left]
  rfl

end Tokens

section Requests

variable {d : Fields} {py : Python}

attribute [local simp] RunLayerSliceRequestArgs.toDict

theorem privacy_ofText (level : PrivacyLevel) :
    PrivacyLevel.ofText level.text = some level ∧ level.text ≠ "" := by
  cases level <;> decide

theorem content_ofText (tier : ContentTier) :
    ContentTier.ofText tier.text = some tier ∧ tier.text ≠ "" := by
  cases tier <;> decide

theorem decodeMode_eq {mode : DecodeMode}
    (hGet : get d "decode_mode" = if mode ≠ .prefill then .str mode.text else .null) :
    expect (orNull modeText) (get d "decode_mode") =
      .ok (if mode ≠ .prefill then some mode else none) := by
  rw [hGet]
  cases mode <;> rfl

/-- A number as it is written for `temperature` and the probabilities. -/
def asDouble (py : Python) (x : Number) : Number := .float (x.asFloat py)

theorem convertAll_floats (probs : List Number) :
    convertAll (toFloat (ε := ProtocolError) py) (probs.map fun p => .float (p.asFloat py)) =
      .ok (probs.map fun p => p.asFloat py) := by
  induction probs with
  | nil => rfl
  | cons p rest ih =>
      rw [List.map_cons, convertAll, ih]
      rfl

theorem mapM_floats (floats : List PyFloat) :
    (floats.map Json.float).mapM plainNumber = some (floats.map Json.float) := by
  induction floats with
  | nil => rfl
  | cons x rest ih =>
      rw [List.map_cons, List.mapM_cons, ih]
      rfl

theorem canonical_probs (probs : List Number) :
    (probsJson py probs).canonical = probsJson py probs := by
  rw [probsJson, Json.canonical_array, List.map_map]
  rfl

theorem temperature_eq {fields : Fields} {a : Option Number} (h : Encodes fields d)
    (ha : lookup "temperature" fields = a.map fun t => .float (t.asFloat py)) :
    expect (orNull plainNumber) (get d "temperature") =
      .ok (a.map fun t => .float (t.asFloat py)) := by
  rw [h.get_map ha]
  cases a <;> rfl

theorem convert_temperature (a : Option Number) :
    convertOption (toFloat (ε := ProtocolError) py) (a.map fun t => .float (t.asFloat py)) =
      .ok (a.map fun t => t.asFloat py) := by
  cases a <;> rfl

theorem probs_eq {fields : Fields} {a : Option (List Number)} (h : Encodes fields d)
    (ha : lookup "proposed_token_probs" fields = a.map (probsJson py)) :
    expect (orNull plainNumbers) (get d "proposed_token_probs") =
      .ok (a.map fun probs => probs.map fun p => .float (p.asFloat py)) := by
  rw [h.get_map ha]
  cases a with
  | none => rfl
  | some probs =>
      have hItems := mapM_floats (probs.map fun p => p.asFloat py)
      rw [List.map_map] at hItems
      have hPlain : plainNumbers (probsJson py probs) =
          some (probs.map fun p => .float (p.asFloat py)) := hItems
      simp only [Option.map_some, Option.getD_some, canonical_probs]
      refine expect_eq ?_
      show (plainNumbers (probsJson py probs)).map some = _
      rw [hPlain]
      rfl

theorem convert_probs (a : Option (List Number)) :
    convertOption (convertAll (toFloat (ε := ProtocolError) py))
        (a.map fun probs => probs.map fun p => .float (p.asFloat py)) =
      .ok (a.map fun probs => probs.map fun p => p.asFloat py) := by
  cases a with
  | none => rfl
  | some probs =>
      simp only [Option.map_some, convertOption, convertAll_floats]
      rfl

theorem request_fromDict (m : {m : RunLayerSliceRequestArgs // m.accepted = true})
    (h : Encodes (m.1.toDict py) d) :
    RunLayerSliceRequest.fromDict py d = (do
      ensure (m.1.messageType = "run_layer_slice_request")
      let token ← HandoffToken.fromDict py (sortedFields m.1.upstreamToken.1.toDict)
      let deadline ← toFloat py m.1.deadlineUnix.toJson
      construct RunLayerSliceRequestArgs.accepted
        { m.1 with
          upstreamToken := token, deadlineUnix := .float deadline,
          temperature := m.1.temperature.map (asDouble py),
          proposedTokenProbs := m.1.proposedTokenProbs.map (List.map (asDouble py)),
          messageType := "run_layer_slice_request" }) := by
  obtain ⟨m, hAccepted⟩ := m
  simp only [RunLayerSliceRequestArgs.accepted, ne_eq, decide_eq_true_eq] at hAccepted
  obtain ⟨hRequest, hModel, hDtype, -, -, -, -, hPayload, -⟩ := hAccepted
  have hType : expectType d "run_layer_slice_request" =
      ensure (m.messageType = "run_layer_slice_request") := expectType_eq h (by simp)
  have hToken : expect object (get d "upstream_token") =
      .ok (sortedFields m.upstreamToken.1.toDict) := by
    have hGet : get d "upstream_token" = (Json.object m.upstreamToken.1.toDict).canonical :=
      h.get_some (by simp)
    rw [hGet, Json.canonical_object]
    rfl
  have hRange : expect pair (get d "layer_range") =
      .ok (.int m.layerRange.1, .int m.layerRange.2) := by
    have hGet : get d "layer_range" = (rangeJson m.layerRange).canonical := h.get_some (by simp)
    rw [hGet]
    rfl
  have hShape : expect items (get d "activation_shape") = .ok (m.activationShape.map .int) :=
    expect_items_eq h (by simp)
  have hBlob : expect hexText (get d "activation_blob_hex") = .ok m.activationBlob :=
    expect_hexText_eq h (by simp)
  have hPrivacy : enumeration d "privacy_tier" PrivacyLevel.ofText = .ok m.privacyTier :=
    named_eq PrivacyLevel.text h (by simp) (privacy_ofText _).2 (privacy_ofText _).1
  have hContent : enumeration d "content_tier" ContentTier.ofText = .ok m.contentTier :=
    named_eq ContentTier.text h (by simp) (content_ofText _).2 (content_ofText _).1
  have hManifest : optionalManifest d = .ok m.activationManifest :=
    optionalManifest_eq h (manifest_valid hPayload) (by simp)
  have hStreaming : flag d "streaming" = .ok m.streaming := flag_eq h (by simp)
  have hMaxTokens : optionalInt d "max_tokens" = .ok m.maxTokens := optionalInt_eq h (by simp)
  have hTemperature : expect (orNull plainNumber) (get d "temperature") =
      .ok (m.temperature.map fun t => .float (t.asFloat py)) := temperature_eq h (by simp)
  have hMode : expect (orNull modeText) (get d "decode_mode") =
      .ok (if m.decodeMode ≠ .prefill then some m.decodeMode else none) := by
    refine decodeMode_eq ?_
    rw [h.get]
    cases hMode : m.decodeMode <;> simp [hMode, canonical]
  have hIds : expect (orNull integers) (get d "proposed_token_ids") = .ok m.proposedTokenIds :=
    optionalInts_eq h (by simp)
  have hProbs : expect (orNull plainNumbers) (get d "proposed_token_probs") =
      .ok (m.proposedTokenProbs.map fun probs => probs.map fun p => .float (p.asFloat py)) :=
    probs_eq h (by simp)
  have hEncrypted : optionalHex d "encrypted_proposed_token_probs_hex" =
      .ok m.encryptedProposedTokenProbs := optionalHex_eq h (by simp)
  have hRequestId : requiredStr d "request_id" = .ok m.requestId :=
    requiredStr_eq h (by simp) hRequest
  have hModelId : requiredStr d "model_id" = .ok m.modelId :=
    requiredStr_eq h (by simp) hModel
  have hDtypeText : requiredStr d "activation_dtype" = .ok m.activationDtype :=
    requiredStr_eq h (by simp) hDtype
  have hDeadline : requiredNumber d "deadline_unix" py = toFloat py m.deadlineUnix.toJson :=
    requiredNumber_eq h (by simp)
  have hVersion : requiredInt d "protocol_version" = .ok m.protocolVersion :=
    requiredInt_eq h (by simp)
  have hModeBack : (if m.decodeMode ≠ .prefill then some m.decodeMode else none).getD .prefill =
      m.decodeMode := by
    cases m.decodeMode <;> rfl
  have hTemperatureBack : (m.temperature.map fun t => t.asFloat py).map .float =
      m.temperature.map (asDouble py) := by
    rw [Option.map_map]
    rfl
  have hProbsBack : (m.proposedTokenProbs.map fun probs => probs.map fun p => p.asFloat py).map
      (List.map .float) = m.proposedTokenProbs.map (List.map (asDouble py)) := by
    rw [Option.map_map]
    exact Option.map_congr fun probs _ => List.map_map
  simp only [RunLayerSliceRequest.fromDict, hType, hToken, hRange, hShape, hBlob, hPrivacy,
    hContent, hManifest, hStreaming, hMaxTokens, hTemperature, convert_temperature, hMode, hIds,
    hProbs, convert_probs, hEncrypted, hRequestId, hModelId, toInt, convertAll_toInt, hDtypeText,
    hDeadline, hVersion, ok_bind, hModeBack, hTemperatureBack, hProbsBack]

end Requests

/-! ## The other messages -/

section Others

variable {d : Fields} {py : Python}

attribute [local simp] StageErrorArgs.toDict ActivationChunkArgs.toDict TokenFrameArgs.toDict
  StreamFinalFrame.toDict EvictCacheRequestArgs.toDict EvictCacheResponseArgs.toDict
  RollbackCacheRequestArgs.toDict RollbackCacheResponseArgs.toDict

theorem stageError_fromDict (m : {m : StageErrorArgs // m.accepted = true})
    (h : Encodes m.1.toDict d) :
    StageError.fromDict d = (do
      ensure (m.1.messageType = "stage_error")
      construct StageErrorArgs.accepted { m.1 with messageType := "stage_error" }) := by
  obtain ⟨m, hAccepted⟩ := m
  simp only [StageErrorArgs.accepted, ne_eq, decide_eq_true_eq] at hAccepted
  obtain ⟨hRequest, hCode⟩ := hAccepted
  have hType : expectType d "stage_error" = ensure (m.messageType = "stage_error") :=
    expectType_eq h (by simp)
  have hRequestId : requiredStr d "request_id" = .ok m.requestId :=
    requiredStr_eq h (by simp) hRequest
  have hCodeText : requiredStr d "code" = .ok m.code := requiredStr_eq h (by simp) hCode
  have hMessage : get d "message" = .str m.message :=
    h.get_some (v := .str m.message) (by simp)
  have hVersion : requiredInt d "protocol_version" = .ok m.protocolVersion :=
    requiredInt_eq h (by simp)
  simp only [StageError.fromDict, hType, hRequestId, hCodeText, hMessage, hVersion, ok_bind]
  rfl

theorem activationChunk_fromDict (m : {m : ActivationChunkArgs // m.accepted = true})
    (h : Encodes m.1.toDict d) :
    ActivationChunk.fromDict d = (do
      ensure (m.1.messageType = "activation_chunk")
      ensure (m.1.data ≠ [])
      construct ActivationChunkArgs.accepted { m.1 with messageType := "activation_chunk" }) := by
  obtain ⟨m, hAccepted⟩ := m
  simp only [ActivationChunkArgs.accepted, ne_eq, decide_eq_true_eq] at hAccepted
  obtain ⟨hRequest, hSha, -⟩ := hAccepted
  have hType : expectType d "activation_chunk" = ensure (m.messageType = "activation_chunk") :=
    expectType_eq h (by simp)
  have hData : expect nonemptyHex (get d "data_hex") =
      (fun _ => m.data) <$> ensure (m.data ≠ []) := expect_nonemptyHex_eq h (by simp)
  have hRequestId : requiredStr d "request_id" = .ok m.requestId :=
    requiredStr_eq h (by simp) hRequest
  have hSequence : requiredInt d "sequence" = .ok m.sequence := requiredInt_eq h (by simp)
  have hShaText : requiredStr d "chunk_sha256" = .ok m.chunkSha256 :=
    requiredStr_eq h (by simp) hSha
  have hVersion : requiredInt d "protocol_version" = .ok m.protocolVersion :=
    requiredInt_eq h (by simp)
  simp only [ActivationChunk.fromDict, hType, hData, hRequestId, hSequence, hShaText, hVersion,
    ok_bind, bind_map_left]

theorem tokenFrame_fromDict (m : {m : TokenFrameArgs // m.accepted = true})
    (h : Encodes m.1.toDict d) :
    TokenFrame.fromDict d = (do
      ensure (m.1.messageType = "token_frame")
      construct TokenFrameArgs.accepted { m.1 with messageType := "token_frame" }) := by
  obtain ⟨m, hAccepted⟩ := m
  simp only [TokenFrameArgs.accepted, ne_eq, decide_eq_true_eq] at hAccepted
  have hType : expectType d "token_frame" = ensure (m.messageType = "token_frame") :=
    expectType_eq h (by simp)
  have hToken : optionalInt d "token_id" = .ok m.tokenId := optionalInt_eq h (by simp)
  have hReason : optionalStr d "finish_reason" = .ok m.finishReason := optionalStr_eq h (by simp)
  have hDelta : expect anyText (get d "text_delta") = .ok m.textDelta := by
    have hGet : get d "text_delta" = .str m.textDelta :=
      h.get_some (v := .str m.textDelta) (by simp)
    rw [hGet]
    rfl
  have hRequestId : requiredStr d "request_id" = .ok m.requestId :=
    requiredStr_eq h (by simp) hAccepted.1
  have hIndex : requiredInt d "sequence_index" = .ok m.sequenceIndex := requiredInt_eq h (by simp)
  have hVersion : requiredInt d "protocol_version" = .ok m.protocolVersion :=
    requiredInt_eq h (by simp)
  simp only [TokenFrame.fromDict, hType, hToken, hReason, hDelta, hRequestId, hIndex, hVersion,
    ok_bind]

theorem finalFrame_fromDict (m : StreamFinalFrame) (h : Encodes m.toDict d) :
    StreamFinalFrame.fromDict py d = (do
      ensure (m.messageType = "stream_final_frame")
      let response ← RunLayerSliceResponse.fromDict py (sortedFields m.response.1.toDict)
      return { m with response, messageType := "stream_final_frame" }) := by
  have hType : expectType d "stream_final_frame" =
      ensure (m.messageType = "stream_final_frame") := expectType_eq h (by simp)
  have hResponse : expect object (get d "response") = .ok (sortedFields m.response.1.toDict) := by
    have hGet : get d "response" = (Json.object m.response.1.toDict).canonical :=
      h.get_some (by simp)
    rw [hGet, Json.canonical_object]
    rfl
  have hVersion : requiredInt d "protocol_version" = .ok m.protocolVersion :=
    requiredInt_eq h (by simp)
  simp only [StreamFinalFrame.fromDict, hType, hResponse, hVersion, ok_bind]

theorem length_sortedFields (fields : Fields) : (sortedFields fields).length = fields.length := by
  rw [sortedFields, List.length_insertionSort, Json.canonicalFields_eq, List.length_map]

theorem optionalToken_eq (py : Python) {fields : Fields} {a : Option HandoffToken}
    (h : Encodes fields d)
    (ha : lookup "upstream_token" fields = a.map tokenJson) :
    optionalToken py d =
      convertOption (fun token : HandoffToken =>
        HandoffToken.fromDict py (sortedFields token.1.toDict)) a := by
  have hGet : get d "upstream_token" =
      (a.map fun token => (tokenJson token).canonical).getD .null := h.get_map ha
  unfold optionalToken
  rw [hGet]
  cases a with
  | none => rfl
  | some token =>
      have hCanonical : (tokenJson token).canonical = .object (sortedFields token.1.toDict) :=
        Json.canonical_object _
      have hTruthy : (Json.object (sortedFields token.1.toDict)).truthy = true := by
        have hLength := length_sortedFields token.1.toDict
        cases hSorted : sortedFields token.1.toDict with
        | cons f rest => rfl
        | nil =>
            rw [hSorted] at hLength
            simp [HandoffTokenArgs.toDict] at hLength
      simp only [Option.map_some, Option.getD_some, hCanonical, hTruthy, if_true, tokenFields,
        ok_bind, convertOption]
      rfl

theorem evict_fromDict (m : {m : EvictCacheRequestArgs // m.accepted = true})
    (h : Encodes m.1.toDict d) :
    EvictCacheRequest.fromDict py d = (do
      ensure (m.1.messageType = "evict_cache_request")
      let token ← convertOption (fun token : HandoffToken =>
        HandoffToken.fromDict py (sortedFields token.1.toDict)) m.1.upstreamToken
      construct EvictCacheRequestArgs.accepted
        { m.1 with upstreamToken := token, messageType := "evict_cache_request" }) := by
  obtain ⟨m, hAccepted⟩ := m
  simp only [EvictCacheRequestArgs.accepted, ne_eq, decide_eq_true_eq] at hAccepted
  have hType : expectType d "evict_cache_request" =
      ensure (m.messageType = "evict_cache_request") := expectType_eq h (by simp)
  have hRequestId : requiredStr d "request_id" = .ok m.requestId :=
    requiredStr_eq h (by simp) hAccepted
  have hVersion : requiredInt d "protocol_version" = .ok m.protocolVersion :=
    requiredInt_eq h (by simp)
  have hToken := optionalToken_eq py (a := m.upstreamToken) h (by simp)
  simp only [EvictCacheRequest.fromDict, hType, hRequestId, hVersion, hToken, ok_bind]

theorem evictResponse_fromDict (m : {m : EvictCacheResponseArgs // m.accepted = true})
    (h : Encodes m.1.toDict d) :
    EvictCacheResponse.fromDict d = (do
      ensure (m.1.messageType = "evict_cache_response")
      construct EvictCacheResponseArgs.accepted
        { m.1 with messageType := "evict_cache_response" }) := by
  obtain ⟨m, hAccepted⟩ := m
  simp only [EvictCacheResponseArgs.accepted, ne_eq, decide_eq_true_eq] at hAccepted
  have hType : expectType d "evict_cache_response" =
      ensure (m.messageType = "evict_cache_response") := expectType_eq h (by simp)
  have hEvicted : expect truth (get d "evicted") = .ok m.evicted := by
    have hGet : get d "evicted" = .bool m.evicted :=
      h.get_some (v := .bool m.evicted) (by simp)
    rw [hGet]
    rfl
  have hRequestId : requiredStr d "request_id" = .ok m.requestId :=
    requiredStr_eq h (by simp) hAccepted
  have hVersion : requiredInt d "protocol_version" = .ok m.protocolVersion :=
    requiredInt_eq h (by simp)
  simp only [EvictCacheResponse.fromDict, hType, hEvicted, hRequestId, hVersion, ok_bind]

theorem rollback_fromDict (m : {m : RollbackCacheRequestArgs // m.accepted = true})
    (h : Encodes m.1.toDict d) :
    RollbackCacheRequest.fromDict py d = (do
      ensure (m.1.messageType = "rollback_cache_request")
      let token ← convertOption (fun token : HandoffToken =>
        HandoffToken.fromDict py (sortedFields token.1.toDict)) m.1.upstreamToken
      construct RollbackCacheRequestArgs.accepted
        { m.1 with upstreamToken := token, messageType := "rollback_cache_request" }) := by
  obtain ⟨m, hAccepted⟩ := m
  simp only [RollbackCacheRequestArgs.accepted, ne_eq, decide_eq_true_eq] at hAccepted
  have hType : expectType d "rollback_cache_request" =
      ensure (m.messageType = "rollback_cache_request") := expectType_eq h (by simp)
  have hDrop : requiredInt d "n_positions_to_drop" = .ok m.nPositionsToDrop :=
    requiredInt_eq h (by simp)
  have hReplay : expect (orNull items) (get d "replay_accepted_prefix") =
      .ok (m.replayAcceptedPrefix.map fun ints => ints.map .int) := by
    have hGet : get d "replay_accepted_prefix" =
        (m.replayAcceptedPrefix.map fun ints => (intsJson ints).canonical).getD .null :=
      h.get_map (by simp)
    rw [hGet]
    cases m.replayAcceptedPrefix with
    | none => rfl
    | some ints =>
        simp only [Option.map_some, Option.getD_some, canonical_ints]
        rfl
  have hConvert : convertOption (convertAll (toInt (ε := ProtocolError) py))
      (m.replayAcceptedPrefix.map fun ints => ints.map .int) = .ok m.replayAcceptedPrefix := by
    cases m.replayAcceptedPrefix with
    | none => rfl
    | some ints =>
        simp only [Option.map_some, convertOption, convertAll_toInt]
        rfl
  have hEncrypted : optionalHex d "encrypted_replay_accepted_prefix_hex" =
      .ok m.encryptedReplayAcceptedPrefix := optionalHex_eq h (by simp)
  have hTarget : optionalInt d "target_stage_index" = .ok m.targetStageIndex :=
    optionalInt_eq h (by simp)
  have hRequestId : requiredStr d "request_id" = .ok m.requestId :=
    requiredStr_eq h (by simp) hAccepted.1
  have hToken := optionalToken_eq py (a := m.upstreamToken) h (by simp)
  have hVersion : requiredInt d "protocol_version" = .ok m.protocolVersion :=
    requiredInt_eq h (by simp)
  simp only [RollbackCacheRequest.fromDict, hType, hDrop, hReplay, hConvert, hEncrypted, hTarget,
    hRequestId, hToken, hVersion, ok_bind]

theorem rollbackResponse_fromDict (m : {m : RollbackCacheResponseArgs // m.accepted = true})
    (h : Encodes m.1.toDict d) :
    RollbackCacheResponse.fromDict d = (do
      ensure (m.1.messageType = "rollback_cache_response")
      construct RollbackCacheResponseArgs.accepted
        { m.1 with messageType := "rollback_cache_response" }) := by
  obtain ⟨m, hAccepted⟩ := m
  simp only [RollbackCacheResponseArgs.accepted, ne_eq, decide_eq_true_eq] at hAccepted
  have hType : expectType d "rollback_cache_response" =
      ensure (m.messageType = "rollback_cache_response") := expectType_eq h (by simp)
  have hRolledBack : expect truth (get d "rolled_back") = .ok m.rolledBack := by
    have hGet : get d "rolled_back" = .bool m.rolledBack :=
      h.get_some (v := .bool m.rolledBack) (by simp)
    rw [hGet]
    rfl
  have hDropped : requiredInt d "actual_dropped" = .ok m.actualDropped :=
    requiredInt_eq h (by simp)
  have hRequestId : requiredStr d "request_id" = .ok m.requestId :=
    requiredStr_eq h (by simp) hAccepted.1
  have hVersion : requiredInt d "protocol_version" = .ok m.protocolVersion :=
    requiredInt_eq h (by simp)
  simp only [RollbackCacheResponse.fromDict, hType, hRolledBack, hDropped, hRequestId, hVersion,
    ok_bind]

end Others

/-! ## Fields that can be written and read -/

section Printable

variable {read : String → Option PyFloat}

theorem keys_whenSet {α : Type} (key : String) (toJson : α → Json) (a : Option α) :
    ((whenSet key toJson a).map Prod.fst).Sublist [key] := by
  cases a <;> simp [whenSet]

theorem keys_flagged (key : String) (v : Json) (c : Prop) [Decidable c] :
    ((if c then [(key, v)] else []).map Prod.fst).Sublist [key] := by
  by_cases hc : c <;> simp [hc]

theorem keys_append {fields more : Fields} {keys moreKeys : List String}
    (h : (fields.map Prod.fst).Sublist keys) (hMore : (more.map Prod.fst).Sublist moreKeys) :
    ((fields ++ more).map Prod.fst).Sublist (keys ++ moreKeys) := by
  rw [List.map_append]
  exact h.append hMore

/-- Every value of an object can be written and read. -/
def AllPrintable (read : String → Option PyFloat) (n : ℕ) (fields : Fields) : Prop :=
  ∀ f ∈ fields, Printable read n f.2

theorem printable_str (n : ℕ) (s : String) : Printable read n (.str s) := by
  cases n <;> trivial

theorem printable_int (n : ℕ) (z : ℤ) : Printable read n (.int z) := by
  cases n <;> trivial

theorem printable_bool (n : ℕ) (b : Bool) : Printable read n (.bool b) := by
  cases n <;> trivial

theorem printable_float (n : ℕ) {x : PyFloat} (h : ReadsBack read x) :
    Printable read n (.float x) := by
  cases n <;> exact h

theorem printable_ints (n : ℕ) (ints : List ℤ) : Printable read (n + 1) (intsJson ints) := by
  intro v hv
  obtain ⟨z, -, rfl⟩ := List.mem_map.mp hv
  exact printable_int n z

theorem printable_range (n : ℕ) (range : ℤ × ℤ) : Printable read (n + 1) (rangeJson range) :=
  printable_ints n [range.1, range.2]

theorem allPrintable_whenSet {α : Type} {n : ℕ} (key : String) {toJson : α → Json} {a : Option α}
    (h : ∀ x, a = some x → Printable read n (toJson x)) :
    AllPrintable read n (whenSet key toJson a) := by
  cases a with
  | none => simp [AllPrintable, whenSet]
  | some x => simpa [AllPrintable, whenSet] using h x rfl

theorem allPrintable_append {n : ℕ} {fields more : Fields} (h : AllPrintable read n fields)
    (hMore : AllPrintable read n more) : AllPrintable read n (fields ++ more) := by
  intro f hf
  rcases List.mem_append.mp hf with hMem | hMem
  · exact h f hMem
  · exact hMore f hMem

theorem allPrintable_cons {n : ℕ} {key : String} {v : Json} {fields : Fields}
    (hv : Printable read n v) (h : AllPrintable read n fields) :
    AllPrintable read n ((key, v) :: fields) := by
  intro f hf
  rcases List.mem_cons.mp hf with rfl | hMem
  · exact hv
  · exact h f hMem

theorem allPrintable_nil (n : ℕ) : AllPrintable read n [] := by simp [AllPrintable]

theorem allPrintable_flagged {n : ℕ} (key : String) {v : Json} (hv : Printable read n v)
    (c : Prop) [Decidable c] : AllPrintable read n (if c then [(key, v)] else []) := by
  by_cases hc : c
  · rw [if_pos hc]
    exact allPrintable_cons hv (allPrintable_nil n)
  · rw [if_neg hc]
    exact allPrintable_nil n

theorem printable_manifest (n : ℕ) (m : ShardManifest) :
    Printable read (n + 1) (manifestJson m) := by
  refine ⟨keys_manifest m, ?_⟩
  show AllPrintable read n m.toDict
  unfold ShardManifest.toDict
  repeat' apply allPrintable_cons
  any_goals first | exact printable_str n _ | exact printable_int n _
  exact allPrintable_nil n

end Printable

end Prsm.ChainRpc
