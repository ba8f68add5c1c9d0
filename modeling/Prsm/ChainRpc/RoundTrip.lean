import Prsm.ChainRpc.FailsClosed
import Prsm.ChainRpc.Readback

/-!
# The round trip of a message

Python compares two messages field by field, and numbers by value.  A message that is encoded
and parsed comes back equal to itself exactly if it is `restorable`.
-/

namespace Prsm.ChainRpc

open Foundations Wire
open Foundations.Json (lookup sortedFields ReadsBack Printable)
open Evm (Bytes)

/-! ## Equal messages -/

section Equal

/-- `x == y` of finite numbers. -/
def Number.Equal (x y : Number) : Prop := ∃ q, x.value = some q ∧ y.value = some q

def HandoffTokenArgs.Equal (t t' : HandoffTokenArgs) : Prop :=
  t.deadlineUnix.Equal t'.deadlineUnix ∧ { t with deadlineUnix := t'.deadlineUnix } = t'

def equalTokens (t t' : Option HandoffToken) : Prop :=
  Option.Rel (fun t t' : HandoffToken => t.1.Equal t'.1) t t'

def RunLayerSliceRequestArgs.Equal (m m' : RunLayerSliceRequestArgs) : Prop :=
  m.upstreamToken.1.Equal m'.upstreamToken.1 ∧ m.deadlineUnix.Equal m'.deadlineUnix ∧
    Option.Rel Number.Equal m.temperature m'.temperature ∧
    Option.Rel (List.Forall₂ Number.Equal) m.proposedTokenProbs m'.proposedTokenProbs ∧
    { m with
      upstreamToken := m'.upstreamToken, deadlineUnix := m'.deadlineUnix,
      temperature := m'.temperature, proposedTokenProbs := m'.proposedTokenProbs } = m'

def RunLayerSliceResponseArgs.Equal (m m' : RunLayerSliceResponseArgs) : Prop :=
  m.durationSeconds.Equal m'.durationSeconds ∧ m.epsilonSpent.Equal m'.epsilonSpent ∧
    { m with durationSeconds := m'.durationSeconds, epsilonSpent := m'.epsilonSpent } = m'

def StreamFinalFrame.Equal (m m' : StreamFinalFrame) : Prop :=
  m.response.1.Equal m'.response.1 ∧ m.protocolVersion = m'.protocolVersion ∧
    m.messageType = m'.messageType

def EvictCacheRequestArgs.Equal (m m' : EvictCacheRequestArgs) : Prop :=
  equalTokens m.upstreamToken m'.upstreamToken ∧
    { m with upstreamToken := m'.upstreamToken } = m'

def RollbackCacheRequestArgs.Equal (m m' : RollbackCacheRequestArgs) : Prop :=
  equalTokens m.upstreamToken m'.upstreamToken ∧
    { m with upstreamToken := m'.upstreamToken } = m'

/-- `m == m'`: the same class and equal fields, where numbers are equal by value. -/
def Message.Equal : Message → Message → Prop
  | runLayerSliceRequest m, runLayerSliceRequest m' => m.1.Equal m'.1
  | runLayerSliceResponse m, runLayerSliceResponse m' => m.1.Equal m'.1
  | stageError m, stageError m' => m = m'
  | activationChunk m, activationChunk m' => m = m'
  | tokenFrame m, tokenFrame m' => m = m'
  | streamFinalFrame m, streamFinalFrame m' => m.Equal m'
  | evictCacheRequest m, evictCacheRequest m' => m.1.Equal m'.1
  | evictCacheResponse m, evictCacheResponse m' => m = m'
  | rollbackCacheRequest m, rollbackCacheRequest m' => m.1.Equal m'.1
  | rollbackCacheResponse m, rollbackCacheResponse m' => m = m'
  | _, _ => False

end Equal

/-! ## Messages that come back -/

/-- The number is one of the doubles. -/
def Number.exact : Number → Bool
  | int n => double n = some (n : ℚ)
  | float _ => true

def exactDeadline (token : HandoffToken) : Bool := token.1.deadlineUnix.exact

def RunLayerSliceResponseArgs.restorable (m : RunLayerSliceResponseArgs) : Bool :=
  m.messageType = "run_layer_slice_response" ∧ m.teeAttestation ≠ [] ∧ m.durationSeconds.exact ∧
    m.epsilonSpent.exact

/-- The type tag is that of the class, the attestation of a response and the data of a chunk
are not empty, and the numbers that `float` is applied to are doubles. -/
def Message.restorable : Message → Bool
  | runLayerSliceRequest m =>
      m.1.messageType = "run_layer_slice_request" ∧ m.1.deadlineUnix.exact ∧
        exactDeadline m.1.upstreamToken
  | runLayerSliceResponse m => m.1.restorable
  | stageError m => m.1.messageType = "stage_error"
  | activationChunk m => m.1.messageType = "activation_chunk" ∧ m.1.data ≠ []
  | tokenFrame m => m.1.messageType = "token_frame"
  | streamFinalFrame m => m.messageType = "stream_final_frame" ∧ m.response.1.restorable
  | evictCacheRequest m =>
      m.1.messageType = "evict_cache_request" ∧ m.1.upstreamToken.all exactDeadline
  | evictCacheResponse m => m.1.messageType = "evict_cache_response"
  | rollbackCacheRequest m =>
      m.1.messageType = "rollback_cache_request" ∧ m.1.upstreamToken.all exactDeadline
  | rollbackCacheResponse m => m.1.messageType = "rollback_cache_response"

/-! ## The numeric fields -/

/-- A number with a value, whose text `json.loads` reads. -/
def Number.Finite (read : String → Option PyFloat) : Number → Prop
  | int _ => True
  | float x => x.value.isSome ∧ ReadsBack read x

def tokenNumbers (token : HandoffToken) : List Number := [token.1.deadlineUnix]

def RunLayerSliceResponseArgs.numbers (m : RunLayerSliceResponseArgs) : List Number :=
  [m.durationSeconds, m.epsilonSpent]

/-- The fields annotated `float`. -/
def Message.numbers : Message → List Number
  | runLayerSliceRequest m =>
      m.1.deadlineUnix :: tokenNumbers m.1.upstreamToken ++ m.1.temperature.toList ++
        m.1.proposedTokenProbs.getD []
  | runLayerSliceResponse m => m.1.numbers
  | streamFinalFrame m => m.response.1.numbers
  | evictCacheRequest m => (m.1.upstreamToken.map tokenNumbers).getD []
  | rollbackCacheRequest m => (m.1.upstreamToken.map tokenNumbers).getD []
  | _ => []

def Message.protocolVersion : Message → ℤ
  | runLayerSliceRequest m => m.1.protocolVersion
  | runLayerSliceResponse m => m.1.protocolVersion
  | stageError m => m.1.protocolVersion
  | activationChunk m => m.1.protocolVersion
  | tokenFrame m => m.1.protocolVersion
  | streamFinalFrame m => m.protocolVersion
  | evictCacheRequest m => m.1.protocolVersion
  | evictCacheResponse m => m.1.protocolVersion
  | rollbackCacheRequest m => m.1.protocolVersion
  | rollbackCacheResponse m => m.1.protocolVersion

/-! ## Doubles -/

section Doubles

variable {py : Python}

theorem exact_iff (py : Python) {read : String → Option PyFloat} {x : Number}
    (hFinite : x.Finite read) :
    x.exact = true ↔
      ∃ y, toFloat (ε := ProtocolError) py x.toJson = .ok y ∧ x.Equal (.float y) := by
  cases x with
  | float x =>
      obtain ⟨q, hq⟩ := Option.isSome_iff_exists.mp hFinite.1
      simp only [Number.exact, Number.toJson, toFloat, true_iff]
      exact ⟨x, rfl, q, hq, hq⟩
  | int n =>
      simp only [Number.exact, Number.toJson, toFloat, decide_eq_true_eq]
      constructor
      · intro hExact
        exact ⟨py.floatOf n, floatOfInt_of_double py hExact, n, rfl, py.value_floatOf n⟩
      · rintro ⟨y, hRead, q, hn, hy⟩
        cases hDouble : double n with
        | none =>
            rw [floatOfInt_of_overflow py hDouble] at hRead
            cases hRead
        | some r =>
            rw [floatOfInt_of_double py hDouble, Except.ok.injEq] at hRead
            subst hRead
            rw [Number.value, py.value_floatOf, Option.some.injEq] at hy
            rw [Number.value, Option.some.injEq] at hn
            rw [hy, hn]

theorem Number.Equal.negative {x : Number} {y : PyFloat} (h : x.Equal (.float y)) :
    (Number.float y).negative = x.negative := by
  obtain ⟨q, hx, hy⟩ := h
  have hFloat : y.value = some q := hy
  cases x with
  | float x =>
      have hSame : x.value = some q := hx
      simp [Number.negative, hFloat, hSame]
  | int n =>
      have hSame : (n : ℚ) = q := Option.some.inj hx
      simp only [Number.negative, hFloat, ← hSame]
      simp

theorem abs_lt_of_within {n : ℤ} {bound : ℕ} (hBound : bound < 2 ^ 53)
    (h : (Number.int n).within bound = true) : |n| < 2 ^ 53 := by
  simp only [Number.within, Number.value, decide_eq_true_eq] at h
  have hLow : 0 ≤ n := by exact_mod_cast h.1
  have hHigh : n ≤ bound := by exact_mod_cast h.2
  rw [abs_of_nonneg hLow]
  omega

theorem asFloat_equal {read : String → Option PyFloat} {x : Number} (bound : ℕ)
    (hFinite : x.Finite read) (hBound : bound < 2 ^ 53) (h : x.within bound = true) :
    x.Equal (.float (x.asFloat py)) := by
  cases x with
  | float x =>
      obtain ⟨q, hq⟩ := Option.isSome_iff_exists.mp hFinite.1
      exact ⟨q, hq, hq⟩
  | int n =>
      refine ⟨n, rfl, ?_⟩
      rw [Number.asFloat, nearestDouble_int (abs_lt_of_within hBound h)]
      exact py.value_floatOf n

theorem Number.Equal.within {x y : Number} (h : x.Equal y) (bound : ℚ) :
    y.within bound = x.within bound := by
  obtain ⟨q, hx, hy⟩ := h
  rw [Number.within, Number.within, hx, hy]

end Doubles

/-! ## What is written can be read -/

section Printed

variable {py : Python} {read : String → Option PyFloat}

theorem keys_token (t : HandoffTokenArgs) : (t.toDict.map Prod.fst).Nodup := by
  have hKeys : (t.toDict.map Prod.fst).Sublist
      (["request_id", "settler_node_id", "chain_stage_index", "chain_total_stages",
        "deadline_unix", "signature_b64"] ++ ["ephemeral_pubkey_hex"] ++ ["layer_range"] ++
        ["model_id"]) :=
    keys_append (keys_append (keys_append (List.Sublist.refl _) (keys_whenSet _ _ _))
      (keys_whenSet _ _ _)) (keys_whenSet _ _ _)
  exact hKeys.nodup (by decide +kernel)

theorem keys_response (m : RunLayerSliceResponseArgs) : (m.toDict.map Prod.fst).Nodup := by
  have hKeys : (m.toDict.map Prod.fst).Sublist
      (["type", "protocol_version", "request_id", "activation_blob_hex", "activation_shape",
        "activation_dtype", "duration_seconds", "tee_attestation_hex", "tee_type",
        "epsilon_spent", "stage_signature_b64", "stage_node_id"] ++ ["activation_manifest"] ++
        ["next_token_id"] ++ ["is_terminal"] ++ ["verified_token_ids"] ++ ["accepted_count"] ++
        ["stage_input_activation_hash"] ++ ["stage_output_activation_hash"] ++
        ["stage_activation_proof_b64"] ++ ["stage_settlement_signature_b64"] ++
        ["stage_settlement_pubkey_b64"] ++ ["stage_settlement_executed_at_unix"]) := by
    unfold RunLayerSliceResponseArgs.toDict
    repeat' apply keys_append
    any_goals exact keys_whenSet _ _ _
    · exact List.Sublist.refl _
    · exact keys_flagged _ _ _
  exact hKeys.nodup (by decide +kernel)

theorem keys_request (m : RunLayerSliceRequestArgs) : ((m.toDict py).map Prod.fst).Nodup := by
  have hKeys : ((m.toDict py).map Prod.fst).Sublist
      (["type", "protocol_version", "request_id", "model_id", "layer_range", "privacy_tier",
        "content_tier", "activation_blob_hex", "activation_shape", "activation_dtype",
        "upstream_token", "deadline_unix"] ++ ["activation_manifest"] ++ ["streaming"] ++
        ["max_tokens"] ++ ["temperature"] ++ ["decode_mode"] ++ ["proposed_token_ids"] ++
        ["proposed_token_probs"] ++ ["encrypted_proposed_token_probs_hex"]) := by
    unfold RunLayerSliceRequestArgs.toDict
    repeat' apply keys_append
    any_goals exact keys_whenSet _ _ _
    · exact List.Sublist.refl _
    · exact keys_flagged _ _ _
    · exact keys_flagged _ _ _
  exact hKeys.nodup (by decide +kernel)

theorem keys_tokenFrame (m : TokenFrameArgs) : (m.toDict.map Prod.fst).Nodup := by
  have hKeys : (m.toDict.map Prod.fst).Sublist
      (["type", "protocol_version", "request_id", "sequence_index", "text_delta"] ++
        ["token_id"] ++ ["finish_reason"]) :=
    keys_append (keys_append (List.Sublist.refl _) (keys_whenSet _ _ _)) (keys_whenSet _ _ _)
  exact hKeys.nodup (by decide +kernel)

theorem keys_evict (m : EvictCacheRequestArgs) : (m.toDict.map Prod.fst).Nodup := by
  have hKeys : (m.toDict.map Prod.fst).Sublist
      (["type", "protocol_version", "request_id"] ++ ["upstream_token"]) :=
    keys_append (List.Sublist.refl _) (keys_whenSet _ _ _)
  exact hKeys.nodup (by decide +kernel)

theorem keys_rollback (m : RollbackCacheRequestArgs) : (m.toDict.map Prod.fst).Nodup := by
  have hKeys : (m.toDict.map Prod.fst).Sublist
      (["type", "protocol_version", "request_id", "n_positions_to_drop"] ++
        ["replay_accepted_prefix"] ++ ["encrypted_replay_accepted_prefix_hex"] ++
        ["target_stage_index"] ++ ["upstream_token"]) :=
    keys_append (keys_append (keys_append (keys_append (List.Sublist.refl _)
      (keys_whenSet _ _ _)) (keys_whenSet _ _ _)) (keys_whenSet _ _ _)) (keys_whenSet _ _ _)
  exact hKeys.nodup (by decide +kernel)

theorem printable_number (n : ℕ) {x : Number} (h : x.Finite read) :
    Printable read n x.toJson := by
  cases x with
  | int z => exact printable_int n z
  | float x => exact printable_float n h.2

theorem printable_token (n : ℕ) {t : HandoffTokenArgs} (h : t.deadlineUnix.Finite read) :
    Printable read (n + 2) (.object t.toDict) := by
  refine ⟨keys_token t, ?_⟩
  show AllPrintable read (n + 1) t.toDict
  unfold HandoffTokenArgs.toDict
  repeat' apply allPrintable_append
  · repeat' apply allPrintable_cons
    any_goals first | exact printable_str _ _ | exact printable_int _ _
    · exact printable_number _ h
    · exact allPrintable_nil _
  · exact allPrintable_whenSet _ fun bytes _ => printable_str _ _
  · exact allPrintable_whenSet _ fun range _ => printable_range n range
  · exact allPrintable_whenSet _ fun s _ => printable_str _ s

theorem printable_response (n : ℕ) {m : RunLayerSliceResponseArgs}
    (h : ∀ x ∈ m.numbers, x.Finite read) : Printable read (n + 2) (.object m.toDict) := by
  refine ⟨keys_response m, ?_⟩
  show AllPrintable read (n + 1) m.toDict
  unfold RunLayerSliceResponseArgs.toDict
  repeat' apply allPrintable_append
  · repeat' apply allPrintable_cons
    any_goals first | exact printable_str _ _ | exact printable_int _ _ | exact printable_ints _ _
    · exact printable_number _ (h _ (by simp [RunLayerSliceResponseArgs.numbers]))
    · exact printable_number _ (h _ (by simp [RunLayerSliceResponseArgs.numbers]))
    · exact allPrintable_nil _
  · exact allPrintable_whenSet _ fun x _ => printable_manifest n x
  · exact allPrintable_whenSet _ fun x _ => printable_int _ x
  · exact allPrintable_flagged _ (printable_bool _ _) _
  · exact allPrintable_whenSet _ fun x _ => printable_ints n x
  · exact allPrintable_whenSet _ fun x _ => printable_int _ x
  all_goals
    refine allPrintable_whenSet _ fun x _ => ?_
    first | exact printable_str _ _ | exact printable_int _ _

theorem asFloat_readsBack (hPy : py.RoundTrips read) {x : Number} (bound : ℕ)
    (hFinite : x.Finite read) (hBound : bound < 2 ^ 53) (h : x.within bound = true) :
    ReadsBack read (x.asFloat py) := by
  cases x with
  | float x => exact hFinite.2
  | int n =>
      have hAbs := abs_lt_of_within hBound h
      refine hPy.readsBack_floatOf _ ?_
      rw [nearestDouble_int hAbs]
      exact double_int hAbs

theorem printable_request (hPy : py.RoundTrips read) (n : ℕ) {m : RunLayerSliceRequestArgs}
    (hToken : m.upstreamToken.1.deadlineUnix.Finite read) (hDeadline : m.deadlineUnix.Finite read)
    (hTemperature : ∀ t, m.temperature = some t → t.Finite read ∧ t.within 2 = true)
    (hProbs : ∀ probs, m.proposedTokenProbs = some probs →
      ∀ p ∈ probs, p.Finite read ∧ p.within 1 = true) :
    Printable read (n + 3) (.object (m.toDict py)) := by
  refine ⟨keys_request m, ?_⟩
  show AllPrintable read (n + 2) (m.toDict py)
  unfold RunLayerSliceRequestArgs.toDict
  repeat' apply allPrintable_append
  · repeat' apply allPrintable_cons
    any_goals first | exact printable_str _ _ | exact printable_int _ _ | exact printable_ints _ _
    · exact printable_range _ _
    · exact printable_token n hToken
    · exact printable_number _ hDeadline
    · exact allPrintable_nil _
  · exact allPrintable_whenSet _ fun x _ => printable_manifest _ x
  · exact allPrintable_flagged _ (printable_bool _ _) _
  · exact allPrintable_whenSet _ fun x _ => printable_int _ x
  · refine allPrintable_whenSet _ fun t ht => printable_float _ ?_
    exact asFloat_readsBack hPy 2 (hTemperature t ht).1 (by norm_num)
      (hTemperature t ht).2
  · exact allPrintable_flagged _ (printable_str _ _) _
  · exact allPrintable_whenSet _ fun x _ => printable_ints _ x
  · refine allPrintable_whenSet _ fun probs hSet => ?_
    intro v hv
    obtain ⟨p, hp, rfl⟩ := List.mem_map.mp hv
    have hp := hProbs probs hSet p hp
    exact printable_float _ (asFloat_readsBack hPy 1 hp.1 (by norm_num)
      (by exact_mod_cast hp.2))
  · exact allPrintable_whenSet _ fun bytes _ => printable_str _ _

theorem printable_optionalToken (n : ℕ) {a : Option HandoffToken}
    (h : ∀ token, a = some token → token.1.deadlineUnix.Finite read) :
    AllPrintable read (n + 2) (whenSet "upstream_token" tokenJson a) :=
  allPrintable_whenSet _ fun token hToken => printable_token n (h token hToken)

/-- The numbers of a request, one by one. -/
structure RequestNumbers (read : String → Option PyFloat) (m : RunLayerSliceRequestArgs) :
    Prop where
  token : m.upstreamToken.1.deadlineUnix.Finite read
  deadline : m.deadlineUnix.Finite read
  temperature : ∀ t, m.temperature = some t → t.Finite read
  probs : ∀ probs, m.proposedTokenProbs = some probs → ∀ p ∈ probs, p.Finite read

theorem numbers_request (m : RunLayerSliceRequestArgs)
    (h : ∀ x ∈ m.deadlineUnix :: tokenNumbers m.upstreamToken ++ m.temperature.toList ++
      m.proposedTokenProbs.getD [], x.Finite read) : RequestNumbers read m where
  token := h _ (by simp [tokenNumbers])
  deadline := h _ (by simp)
  temperature t ht := h t (by simp [ht])
  probs probs hSet p hp := h p (by simp [hSet, hp])

theorem temperature_within (m : {m : RunLayerSliceRequestArgs // m.accepted = true}) (t : Number)
    (ht : m.1.temperature = some t) : t.within 2 = true := by
  have hAccepted := m.2
  simp only [RunLayerSliceRequestArgs.accepted, ne_eq, decide_eq_true_eq] at hAccepted
  obtain ⟨-, -, -, -, -, -, -, -, -, hTemperature, -⟩ := hAccepted
  simpa [ht] using hTemperature

theorem probs_within (m : {m : RunLayerSliceRequestArgs // m.accepted = true})
    (probs : List Number) (hSet : m.1.proposedTokenProbs = some probs) :
    ∀ p ∈ probs, p.within 1 = true := by
  have hAccepted := m.2
  simp only [RunLayerSliceRequestArgs.accepted, ne_eq, decide_eq_true_eq] at hAccepted
  obtain ⟨-, -, -, -, -, -, -, -, -, -, -, hProbs⟩ := hAccepted
  simp only [validProbs, hSet, Bool.decide_and, Bool.and_eq_true, Option.all_some,
    List.all_eq_true, decide_eq_true_eq] at hProbs
  exact hProbs.1.2

theorem printable_message (hPy : py.RoundTrips read) (m : Message)
    (hFinite : ∀ x ∈ m.numbers, x.Finite read) :
    Printable read 4 (.object (m.toDict py)) := by
  cases m with
  | runLayerSliceRequest m =>
      have hNumbers := numbers_request m.1 hFinite
      refine printable_request hPy 1 hNumbers.token hNumbers.deadline ?_ ?_
      · intro t ht
        exact ⟨hNumbers.temperature t ht, temperature_within m t ht⟩
      · intro probs hSet p hp
        exact ⟨hNumbers.probs probs hSet p hp, probs_within m probs hSet p hp⟩
  | runLayerSliceResponse m => exact printable_response 2 hFinite
  | stageError m =>
      refine ⟨by simp [Message.toDict, StageErrorArgs.toDict], ?_⟩
      simp [Message.toDict, StageErrorArgs.toDict, printable_str, printable_int]
  | activationChunk m =>
      refine ⟨by simp [Message.toDict, ActivationChunkArgs.toDict], ?_⟩
      simp [Message.toDict, ActivationChunkArgs.toDict, printable_str, printable_int, hexJson]
  | tokenFrame m =>
      refine ⟨keys_tokenFrame m.1, ?_⟩
      refine allPrintable_append (allPrintable_append ?_ ?_) ?_
      · simp [AllPrintable, printable_str, printable_int]
      · exact allPrintable_whenSet _ fun x _ => printable_int _ x
      · exact allPrintable_whenSet _ fun x _ => printable_str _ x
  | streamFinalFrame m =>
      refine ⟨by simp [Message.toDict, StreamFinalFrame.toDict], ?_⟩
      have hResponse : Printable read 3 (.object m.response.1.toDict) :=
        printable_response 1 hFinite
      simp [Message.toDict, StreamFinalFrame.toDict, printable_str, printable_int, hResponse]
  | evictCacheRequest m =>
      refine ⟨keys_evict m.1, allPrintable_append ?_ (printable_optionalToken 1 ?_)⟩
      · simp [AllPrintable, printable_str, printable_int]
      · intro token hToken
        exact hFinite _ (by simp [Message.numbers, hToken, tokenNumbers])
  | evictCacheResponse m =>
      refine ⟨by simp [Message.toDict, EvictCacheResponseArgs.toDict], ?_⟩
      simp [Message.toDict, EvictCacheResponseArgs.toDict, printable_str, printable_int,
        printable_bool]
  | rollbackCacheRequest m =>
      refine ⟨keys_rollback m.1, allPrintable_append (allPrintable_append (allPrintable_append
        (allPrintable_append ?_ ?_) ?_) ?_) (printable_optionalToken 1 ?_)⟩
      · simp [AllPrintable, printable_str, printable_int]
      · exact allPrintable_whenSet _ fun x _ => printable_ints _ x
      · exact allPrintable_whenSet _ fun bytes _ => printable_str _ _
      · exact allPrintable_whenSet _ fun x _ => printable_int _ x
      · intro token hToken
        exact hFinite _ (by simp [Message.numbers, hToken, tokenNumbers])
  | rollbackCacheResponse m =>
      refine ⟨by simp [Message.toDict, RollbackCacheResponseArgs.toDict], ?_⟩
      simp [Message.toDict, RollbackCacheResponseArgs.toDict, printable_str, printable_int,
        printable_bool]

end Printed

/-! ## What comes back -/

section Back

variable {py : Python} {read : String → Option PyFloat} {d : Fields}

variable {α : Type} {m : Message}

theorem back_iff {accepted : α → Bool} (m : {args : α // accepted args = true})
    {x : Decode Unit} {args : α} (hArgs : x = .ok () → args = m.1) :
    (∃ m', (x >>= fun _ => construct accepted args) = .ok m' ∧ m = m') ↔ x = .ok () := by
  constructor
  · rintro ⟨m', hRead, -⟩
    obtain ⟨_, hx, -⟩ := bind_eq_ok_iff.mp hRead
    exact hx
  · intro hx
    refine ⟨m, bind_eq_ok_iff.mpr ⟨(), hx, ?_⟩, rfl⟩
    rw [construct_eq_ok, hArgs hx]

theorem token_back (py : Python) (token : HandoffToken) (h : Encodes token.1.toDict d)
    (hFinite : token.1.deadlineUnix.Finite read) :
    (∃ t', HandoffToken.fromDict py d = .ok t' ∧ token.1.Equal t'.1) ↔
      exactDeadline token = true := by
  rw [exactDeadline, exact_iff py hFinite, token_fromDict token h]
  constructor
  · rintro ⟨t', hRead, hEqual⟩
    obtain ⟨y, hy, rfl⟩ := map_eq_ok.mp hRead
    exact ⟨y, hy, hEqual.1⟩
  · rintro ⟨y, hy, hEqual⟩
    exact ⟨_, map_eq_ok.mpr ⟨y, hy, rfl⟩, hEqual, rfl⟩

theorem optionalToken_back (py : Python) (a : Option HandoffToken)
    (hFinite : ∀ token, a = some token → token.1.deadlineUnix.Finite read) :
    (∃ a', convertOption (fun token : HandoffToken =>
        HandoffToken.fromDict py (sortedFields token.1.toDict)) a = .ok a' ∧ equalTokens a a') ↔
      a.all exactDeadline = true := by
  cases a with
  | none => exact ⟨fun _ => rfl, fun _ => ⟨none, rfl, Option.Rel.none⟩⟩
  | some token =>
      rw [Option.all_some, ← token_back py token (encodes_sortedFields (keys_token token.1))
        (hFinite token rfl)]
      constructor
      · rintro ⟨a', hRead, hEqual⟩
        obtain ⟨t', hToken, hSome⟩ := bind_eq_ok_iff.mp hRead
        obtain rfl : some t' = a' := Except.ok.inj hSome
        cases hEqual with
        | some hSame => exact ⟨t', hToken, hSame⟩
      · rintro ⟨t', hToken, hEqual⟩
        exact ⟨some t', bind_eq_ok_iff.mpr ⟨t', hToken, rfl⟩, Option.Rel.some hEqual⟩

theorem response_back (py : Python) (m : RunLayerSliceResponse) (h : Encodes m.1.toDict d)
    (hFinite : ∀ x ∈ m.1.numbers, x.Finite read) :
    (∃ m', RunLayerSliceResponse.fromDict py d = .ok m' ∧ m.1.Equal m'.1) ↔
      m.1.restorable = true := by
  have hDuration := exact_iff py (hFinite m.1.durationSeconds (by
    simp [RunLayerSliceResponseArgs.numbers]))
  have hEpsilon := exact_iff py (hFinite m.1.epsilonSpent (by
    simp [RunLayerSliceResponseArgs.numbers]))
  simp only [RunLayerSliceResponseArgs.restorable, decide_eq_true_eq, hDuration, hEpsilon]
  rw [response_fromDict m h]
  constructor
  · rintro ⟨m', hRead, hEqual⟩
    obtain ⟨_, hType, hRead⟩ := bind_eq_ok_iff.mp hRead
    obtain ⟨_, hTee, hRead⟩ := bind_eq_ok_iff.mp hRead
    obtain ⟨duration, hDuration, hRead⟩ := bind_eq_ok_iff.mp hRead
    obtain ⟨epsilon, hEpsilon, hRead⟩ := bind_eq_ok_iff.mp hRead
    have hArgs := construct_eq_ok.mp hRead
    rw [hArgs] at hEqual
    exact ⟨ensure_eq_ok.mp hType, ensure_eq_ok.mp hTee, ⟨duration, hDuration, hEqual.1⟩,
      ⟨epsilon, hEpsilon, hEqual.2.1⟩⟩
  · rintro ⟨hType, hTee, ⟨duration, hDuration, hSame⟩, ⟨epsilon, hEpsilon, hSame'⟩⟩
    have hAccepted : ({ m.1 with
        durationSeconds := .float duration, epsilonSpent := .float epsilon,
        messageType := "run_layer_slice_response" } : RunLayerSliceResponseArgs).accepted
          = true := by
      have hAll := m.2
      simp only [RunLayerSliceResponseArgs.accepted] at hAll ⊢
      rw [hSame.negative]
      exact hAll
    refine ⟨⟨_, hAccepted⟩, ?_, hSame, hSame', ?_⟩
    · rw [ensure_eq_ok.mpr hType, ensure_eq_ok.mpr hTee, hDuration, hEpsilon]
      exact construct_eq_ok.mpr rfl
    · simp only [← hType]

theorem all_within_eq {bound : ℚ} {a b : Option Number} (h : Option.Rel Number.Equal a b) :
    (b.all fun t => t.within bound) = a.all fun t => t.within bound := by
  cases h with
  | none => rfl
  | some hSame => exact hSame.within bound

theorem validProbs_eq {ids : Option (List ℤ)} {a b : Option (List Number)}
    {encrypted : Option Bytes} (h : Option.Rel (List.Forall₂ Number.Equal) a b) :
    validProbs ids b encrypted = validProbs ids a encrypted := by
  cases h with
  | none => rfl
  | @some probs probs' hSame =>
      have hAll : (probs'.all fun p => p.within 1) = probs.all fun p => p.within 1 := by
        induction hSame with
        | nil => rfl
        | cons hHead hTail ih => rw [List.all_cons, List.all_cons, hHead.within, ih]
      simp only [validProbs, Option.all_some, hSame.length_eq, hAll, reduceCtorEq]

theorem request_back (m : {m : RunLayerSliceRequestArgs // m.accepted = true})
    (h : Encodes (m.1.toDict py) d) (hNumbers : RequestNumbers read m.1) :
    (∃ m', RunLayerSliceRequest.fromDict py d = .ok m' ∧ m.1.Equal m'.1) ↔
      m.1.messageType = "run_layer_slice_request" ∧ m.1.deadlineUnix.exact = true ∧
        exactDeadline m.1.upstreamToken = true := by
  have hToken := token_back py m.1.upstreamToken
    (encodes_sortedFields (keys_token m.1.upstreamToken.1)) hNumbers.token
  rw [exact_iff py hNumbers.deadline, ← hToken, request_fromDict m h]
  constructor
  · rintro ⟨m', hRead, hEqual⟩
    obtain ⟨_, hType, hRead⟩ := bind_eq_ok_iff.mp hRead
    obtain ⟨token, hToken, hRead⟩ := bind_eq_ok_iff.mp hRead
    obtain ⟨deadline, hDeadline, hRead⟩ := bind_eq_ok_iff.mp hRead
    have hArgs := construct_eq_ok.mp hRead
    rw [hArgs] at hEqual
    exact ⟨ensure_eq_ok.mp hType, ⟨deadline, hDeadline, hEqual.2.1⟩, ⟨token, hToken, hEqual.1⟩⟩
  · rintro ⟨hType, ⟨deadline, hDeadline, hSame⟩, ⟨token, hToken, hSameToken⟩⟩
    have hTemperature : Option.Rel Number.Equal m.1.temperature
        (m.1.temperature.map (asDouble py)) := by
      cases ht : m.1.temperature with
      | none => exact Option.Rel.none
      | some t =>
          exact Option.Rel.some (asFloat_equal 2 (hNumbers.temperature t ht) (by norm_num)
            (temperature_within m t ht))
    have hProbs : Option.Rel (List.Forall₂ Number.Equal) m.1.proposedTokenProbs
        (m.1.proposedTokenProbs.map (List.map (asDouble py))) := by
      cases hSet : m.1.proposedTokenProbs with
      | none => exact Option.Rel.none
      | some probs =>
          refine Option.Rel.some (List.forall₂_map_right_iff.mpr (List.forall₂_same.mpr ?_))
          intro p hp
          exact asFloat_equal 1 (hNumbers.probs probs hSet p hp) (by norm_num)
            (by exact_mod_cast probs_within m probs hSet p hp)
    have hAccepted : ({ m.1 with
        upstreamToken := token, deadlineUnix := .float deadline,
        temperature := m.1.temperature.map (asDouble py),
        proposedTokenProbs := m.1.proposedTokenProbs.map (List.map (asDouble py)),
        messageType := "run_layer_slice_request" } : RunLayerSliceRequestArgs).accepted
          = true := by
      have hAll := m.2
      have hRequestId : token.1.requestId = m.1.upstreamToken.1.requestId :=
        (congrArg HandoffTokenArgs.requestId hSameToken.2).symm
      simp only [RunLayerSliceRequestArgs.accepted] at hAll ⊢
      rw [all_within_eq hTemperature, validProbs_eq hProbs, hRequestId]
      exact hAll
    refine ⟨⟨_, hAccepted⟩, ?_, hSameToken, hSame, hTemperature, hProbs, ?_⟩
    · rw [ensure_eq_ok.mpr hType, hToken, hDeadline]
      exact construct_eq_ok.mpr rfl
    · simp only [← hType]

/-- The decoder that is registered for the class of a message. -/
def Message.decoder (py : Python) : Message → Fields → Decode Message
  | runLayerSliceRequest _ => fun d => .runLayerSliceRequest <$> RunLayerSliceRequest.fromDict py d
  | runLayerSliceResponse _ =>
      fun d => .runLayerSliceResponse <$> RunLayerSliceResponse.fromDict py d
  | stageError _ => fun d => .stageError <$> StageError.fromDict d
  | activationChunk _ => fun d => .activationChunk <$> ActivationChunk.fromDict d
  | tokenFrame _ => fun d => .tokenFrame <$> TokenFrame.fromDict d
  | streamFinalFrame _ => fun d => .streamFinalFrame <$> StreamFinalFrame.fromDict py d
  | evictCacheRequest _ => fun d => .evictCacheRequest <$> EvictCacheRequest.fromDict py d
  | evictCacheResponse _ => fun d => .evictCacheResponse <$> EvictCacheResponse.fromDict d
  | rollbackCacheRequest _ => fun d => .rollbackCacheRequest <$> RollbackCacheRequest.fromDict py d
  | rollbackCacheResponse _ => fun d => .rollbackCacheResponse <$> RollbackCacheResponse.fromDict d

/-- The tag of the class of a message. -/
def Message.kind : Message → String
  | runLayerSliceRequest _ => "run_layer_slice_request"
  | runLayerSliceResponse _ => "run_layer_slice_response"
  | stageError _ => "stage_error"
  | activationChunk _ => "activation_chunk"
  | tokenFrame _ => "token_frame"
  | streamFinalFrame _ => "stream_final_frame"
  | evictCacheRequest _ => "evict_cache_request"
  | evictCacheResponse _ => "evict_cache_response"
  | rollbackCacheRequest _ => "rollback_cache_request"
  | rollbackCacheResponse _ => "rollback_cache_response"

def Message.messageType : Message → String
  | runLayerSliceRequest m => m.1.messageType
  | runLayerSliceResponse m => m.1.messageType
  | stageError m => m.1.messageType
  | activationChunk m => m.1.messageType
  | tokenFrame m => m.1.messageType
  | streamFinalFrame m => m.messageType
  | evictCacheRequest m => m.1.messageType
  | evictCacheResponse m => m.1.messageType
  | rollbackCacheRequest m => m.1.messageType
  | rollbackCacheResponse m => m.1.messageType

theorem lookup_registry (m : Message) : (registry py).lookup m.kind = some (m.decoder py) := by
  cases m <;> rfl

theorem kind_of_registered {kind : String} {constructor : Fields → Decode Message}
    (hMem : (kind, constructor) ∈ registry py) (h : constructor d = .ok m) : m.kind = kind := by
  simp only [registry, List.mem_cons, Prod.mk.injEq, List.not_mem_nil, or_false] at hMem
  rcases hMem with ⟨rfl, rfl⟩ | ⟨rfl, rfl⟩ | ⟨rfl, rfl⟩ | ⟨rfl, rfl⟩ | ⟨rfl, rfl⟩ |
    ⟨rfl, rfl⟩ | ⟨rfl, rfl⟩ | ⟨rfl, rfl⟩ | ⟨rfl, rfl⟩ | ⟨rfl, rfl⟩ <;>
  · obtain ⟨_, -, rfl⟩ := map_eq_ok.mp h
    rfl

theorem Message.Equal.kind {m' : Message} (h : m.Equal m') : m'.kind = m.kind := by
  cases m <;> cases m' <;> first | rfl | exact h.elim

theorem Message.messageType_of_restorable (h : m.restorable = true) :
    m.messageType = m.kind := by
  cases m with
  | stageError m => exact of_decide_eq_true h
  | tokenFrame m => exact of_decide_eq_true h
  | evictCacheResponse m => exact of_decide_eq_true h
  | rollbackCacheResponse m => exact of_decide_eq_true h
  | runLayerSliceResponse m =>
      simp only [restorable, RunLayerSliceResponseArgs.restorable, decide_eq_true_eq] at h
      exact h.1
  | _ =>
      simp only [restorable, decide_eq_true_eq] at h
      exact h.1

theorem require_message_back {accepted : α → Bool}
    (m : {args : α // accepted args = true}) {c : Prop} [Decidable c] {args : α}
    (hArgs : c → args = m.1) :
    (∃ m', (ensure c >>= fun _ => construct accepted args) = .ok m' ∧ m = m') ↔ c := by
  rw [back_iff m (fun h => hArgs (ensure_eq_ok.mp h)), ensure_eq_ok]

theorem finalFrame_back (m : StreamFinalFrame) (h : Encodes m.toDict d)
    (hFinite : ∀ x ∈ m.response.1.numbers, x.Finite read) :
    (∃ m', StreamFinalFrame.fromDict py d = .ok m' ∧ m.Equal m') ↔
      m.messageType = "stream_final_frame" ∧ m.response.1.restorable = true := by
  rw [← response_back py m.response
    (encodes_sortedFields (keys_response m.response.1)) hFinite, finalFrame_fromDict m h]
  constructor
  · rintro ⟨m', hRead, hEqual⟩
    obtain ⟨_, hType, hRead⟩ := bind_eq_ok_iff.mp hRead
    obtain ⟨response, hResponse, hRead⟩ := bind_eq_ok_iff.mp hRead
    obtain rfl := Except.ok.inj hRead
    exact ⟨ensure_eq_ok.mp hType, response, hResponse, hEqual.1⟩
  · rintro ⟨hType, response, hResponse, hEqual⟩
    refine ⟨{ m with response, messageType := "stream_final_frame" }, ?_, hEqual, rfl, hType⟩
    rw [ensure_eq_ok.mpr hType, hResponse]
    rfl

theorem evict_back (m : {m : EvictCacheRequestArgs // m.accepted = true})
    (h : Encodes m.1.toDict d)
    (hFinite : ∀ token, m.1.upstreamToken = some token → token.1.deadlineUnix.Finite read) :
    (∃ m', EvictCacheRequest.fromDict py d = .ok m' ∧ m.1.Equal m'.1) ↔
      m.1.messageType = "evict_cache_request" ∧ m.1.upstreamToken.all exactDeadline = true := by
  rw [← optionalToken_back py m.1.upstreamToken hFinite, evict_fromDict m h]
  constructor
  · rintro ⟨m', hRead, hEqual⟩
    obtain ⟨_, hType, hRead⟩ := bind_eq_ok_iff.mp hRead
    obtain ⟨token, hToken, hRead⟩ := bind_eq_ok_iff.mp hRead
    have hArgs := construct_eq_ok.mp hRead
    rw [hArgs] at hEqual
    exact ⟨ensure_eq_ok.mp hType, token, hToken, hEqual.1⟩
  · rintro ⟨hType, token, hToken, hEqual⟩
    refine ⟨⟨{ m.1 with upstreamToken := token, messageType := "evict_cache_request" }, m.2⟩,
      ?_, hEqual, ?_⟩
    · rw [ensure_eq_ok.mpr hType, hToken]
      exact construct_eq_ok.mpr rfl
    · simp only [← hType]

theorem rollback_back (m : {m : RollbackCacheRequestArgs // m.accepted = true})
    (h : Encodes m.1.toDict d)
    (hFinite : ∀ token, m.1.upstreamToken = some token → token.1.deadlineUnix.Finite read) :
    (∃ m', RollbackCacheRequest.fromDict py d = .ok m' ∧ m.1.Equal m'.1) ↔
      m.1.messageType = "rollback_cache_request" ∧
        m.1.upstreamToken.all exactDeadline = true := by
  rw [← optionalToken_back py m.1.upstreamToken hFinite, rollback_fromDict m h]
  constructor
  · rintro ⟨m', hRead, hEqual⟩
    obtain ⟨_, hType, hRead⟩ := bind_eq_ok_iff.mp hRead
    obtain ⟨token, hToken, hRead⟩ := bind_eq_ok_iff.mp hRead
    have hArgs := construct_eq_ok.mp hRead
    rw [hArgs] at hEqual
    exact ⟨ensure_eq_ok.mp hType, token, hToken, hEqual.1⟩
  · rintro ⟨hType, token, hToken, hEqual⟩
    refine ⟨⟨{ m.1 with upstreamToken := token, messageType := "rollback_cache_request" }, m.2⟩,
      ?_, hEqual, ?_⟩
    · rw [ensure_eq_ok.mpr hType, hToken]
      exact construct_eq_ok.mpr rfl
    · simp only [← hType]

theorem map_back {x : Decode α} {make : α → Message} :
    (∃ m', make <$> x = .ok m' ∧ m.Equal m') ↔ ∃ a, x = .ok a ∧ m.Equal (make a) := by
  constructor
  · rintro ⟨m', hRead, hEqual⟩
    obtain ⟨a, ha, rfl⟩ := map_eq_ok.mp hRead
    exact ⟨a, ha, hEqual⟩
  · rintro ⟨a, ha, hEqual⟩
    exact ⟨make a, map_eq_ok.mpr ⟨a, ha, rfl⟩, hEqual⟩

theorem decoder_back (m : Message) (h : Encodes (m.toDict py) d)
    (hFinite : ∀ x ∈ m.numbers, x.Finite read) :
    (∃ m', m.decoder py d = .ok m' ∧ m.Equal m') ↔ m.restorable = true := by
  cases m with
  | runLayerSliceRequest m =>
      refine map_back.trans ?_
      simp only [Message.restorable, decide_eq_true_eq]
      exact request_back m h (numbers_request m.1 hFinite)
  | runLayerSliceResponse m =>
      refine map_back.trans ?_
      exact response_back py m h hFinite
  | stageError m =>
      refine map_back.trans ?_
      simp only [Message.restorable, decide_eq_true_eq]
      rw [stageError_fromDict m h]
      exact require_message_back m fun hType => by simp only [← hType]
  | activationChunk m =>
      refine map_back.trans ?_
      simp only [Message.restorable, decide_eq_true_eq]
      rw [activationChunk_fromDict m h, ← bind_assoc]
      refine (back_iff m ?_).trans ?_
      · intro hChecks
        obtain ⟨_, hType, -⟩ := bind_eq_ok_iff.mp hChecks
        simp only [← ensure_eq_ok.mp hType]
      · rw [bind_eq_ok_iff]
        constructor
        · rintro ⟨_, hType, hData⟩
          exact ⟨ensure_eq_ok.mp hType, ensure_eq_ok.mp hData⟩
        · rintro ⟨hType, hData⟩
          exact ⟨(), ensure_eq_ok.mpr hType, ensure_eq_ok.mpr hData⟩
  | tokenFrame m =>
      refine map_back.trans ?_
      simp only [Message.restorable, decide_eq_true_eq]
      rw [tokenFrame_fromDict m h]
      exact require_message_back m fun hType => by simp only [← hType]
  | streamFinalFrame m =>
      refine map_back.trans ?_
      simp only [Message.restorable, decide_eq_true_eq]
      exact finalFrame_back m h hFinite
  | evictCacheRequest m =>
      refine map_back.trans ?_
      simp only [Message.restorable, decide_eq_true_eq]
      refine evict_back m h fun token hToken => hFinite _ ?_
      simp [Message.numbers, hToken, tokenNumbers]
  | evictCacheResponse m =>
      refine map_back.trans ?_
      simp only [Message.restorable, decide_eq_true_eq]
      rw [evictResponse_fromDict m h]
      exact require_message_back m fun hType => by simp only [← hType]
  | rollbackCacheRequest m =>
      refine map_back.trans ?_
      simp only [Message.restorable, decide_eq_true_eq]
      refine rollback_back m h fun token hToken => hFinite _ ?_
      simp [Message.numbers, hToken, tokenNumbers]
  | rollbackCacheResponse m =>
      refine map_back.trans ?_
      simp only [Message.restorable, decide_eq_true_eq]
      rw [rollbackResponse_fromDict m h]
      exact require_message_back m fun hType => by simp only [← hType]

theorem lookup_header (m : Message) :
    lookup "type" (m.toDict py) = some (.str m.messageType) ∧
      lookup "protocol_version" (m.toDict py) = some (.int m.protocolVersion) := by
  cases m <;> exact ⟨rfl, rfl⟩

theorem parseMessage_encodeMessage (hPy : py.RoundTrips read) (m : Message)
    (hVersion : m.protocolVersion ∈ supportedProtocolVersions)
    (hFinite : ∀ x ∈ m.numbers, x.Finite read)
    (hSize : (encodeMessage py m).length ≤ maxHandshakeBytes) :
    parseMessage py (encodeMessage py m) =
      ((registry py).lookup m.messageType).elim (.error (.protocol .unknownType))
        fun constructor => constructor (sortedFields (m.toDict py)) := by
  have hPrintable := printable_message hPy m hFinite
  have hEncodes : Encodes (m.toDict py) (sortedFields (m.toDict py)) :=
    encodes_sortedFields hPrintable.1
  have hLoads : loaded py (encodeMessage py m) = .ok (.object (sortedFields (m.toDict py))) := by
    rw [loaded, encodeMessage, hPy.loads_text _ hPrintable, Json.canonical_object]
  have hType : get (sortedFields (m.toDict py)) "type" = .str m.messageType :=
    hEncodes.get_some (lookup_header m).1
  have hVersionOf : versionOf (sortedFields (m.toDict py)) = .ok m.protocolVersion := by
    rw [versionOf, hEncodes.lookup, (lookup_header m).2]
    exact if_pos hVersion
  rw [parseMessage, checkSize, if_neg (by omega), ok_bind, hLoads, ok_bind]
  show (constructorOf py (sortedFields (m.toDict py)) >>= fun constructor =>
    versionOf (sortedFields (m.toDict py)) >>= fun _ =>
      constructor (sortedFields (m.toDict py))) = _
  cases hLookup : (registry py).lookup m.messageType with
  | none =>
      have hConstructor : constructorOf py (sortedFields (m.toDict py)) =
          .error (.protocol .unknownType) := by
        simp only [constructorOf, hType, hLookup]
      rw [hConstructor]
      rfl
  | some constructor =>
      have hConstructor : constructorOf py (sortedFields (m.toDict py)) = .ok constructor := by
        simp only [constructorOf, hType, hLookup]
      rw [hConstructor, hVersionOf]
      rfl

end Back

/-! ## A chunk without data -/

namespace Sample

def chunkArgs (data : Bytes) : ActivationChunkArgs where
  requestId := "r"
  sequence := 0
  data := data
  chunkSha256 := "s"
  protocolVersion := 2
  messageType := "activation_chunk"

theorem accepted_chunk (data : Bytes) : (chunkArgs data).accepted = true := by
  show ActivationChunkArgs.accepted (chunkArgs []) = true
  decide

def chunk (data : Bytes) : Message := .activationChunk ⟨chunkArgs data, accepted_chunk data⟩

theorem finite_chunk (data : Bytes) :
    ∀ x ∈ (chunk data).numbers, x.Finite Wire.Sample.readFloat := by
  simp [chunk, Message.numbers]

end Sample

end Prsm.ChainRpc
