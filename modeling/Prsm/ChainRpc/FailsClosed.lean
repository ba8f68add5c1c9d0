import Prsm.ChainRpc.Codec

/-!
# When decoding fails closed

The checks of a decoder raise the protocol's own exceptions.  Three kinds of conversion do
not: `float` of an integer that is too large, `int` of a value it does not take, and a token
read from a value that has no fields; and `json.loads` raises two exceptions that are not
caught.  Each decoder has an outline of its checks and conversions in the order they are made,
up to the last conversion.
-/

namespace Prsm.ChainRpc

open Foundations Wire
open Foundations.Json (field)
open Evm (Bytes)

section Conversions

variable (py : Python)

/-- What `float` takes: any number but an integer that is too large. -/
def floatable : Json → Bool
  | .int n => (double n).isSome
  | .bool _ | .float _ => true
  | _ => false

/-- What `int` takes. -/
def intable : Json → Bool
  | .bool _ | .int _ => true
  | .float x => x.value.isSome
  | .str s => (py.intOfText s).isSome
  | _ => false

def arrayItems : Json → List Json
  | .array xs => xs
  | _ => []

/-- The item of a list, if it has so many. -/
def itemAt (x : Json) (i : ℕ) : Json := (arrayItems x).getD i .null

/-- A number, if there is one, is one that `float` takes. -/
def floatableOrNull : Json → Bool
  | .null => true
  | x => floatable x

/-- A token can be read from nothing else than an object. -/
def isObject : Json → Bool
  | .object _ => true
  | _ => false

theorem floatOfInt_isOk (n : ℤ) :
    (floatOfInt py n : Decode PyFloat).isOk = (double n).isSome := by
  cases hDouble : double n with
  | none =>
      rw [floatOfInt_of_overflow py hDouble]
      rfl
  | some q =>
      rw [floatOfInt_of_double py hDouble]
      rfl

theorem toFloat_isOk (x : Json) : (toFloat py x : Decode PyFloat).isOk = floatable x := by
  cases x with
  | bool b =>
      rw [toFloat, floatOfInt_isOk]
      cases b
      · rw [if_neg (by decide), double_int (by decide)]
        rfl
      · rw [if_pos rfl, double_int (by decide)]
        rfl
  | int n => exact floatOfInt_isOk py n
  | _ => rfl

theorem toFloat_ne_protocol (x : Json) (error : ProtocolError) :
    toFloat py x ≠ .error (.protocol error) := by
  have hInt : ∀ n : ℤ, floatOfInt py n ≠ .error (.protocol error) := by
    intro n
    cases hDouble : double n with
    | none => simp [floatOfInt_of_overflow py hDouble]
    | some q => simp [floatOfInt_of_double py hDouble]
  cases x with
  | bool b => exact hInt _
  | int n => exact hInt n
  | _ => simp [toFloat]

theorem toInt_isOk (x : Json) : (toInt py x : Decode ℤ).isOk = intable py x := by
  cases x with
  | float x =>
      simp only [toInt, intOfFloat, intable]
      cases x.value with
      | none => by_cases hNan : x.text = "nan" <;> simp [hNan, Except.isOk, Except.toBool]
      | some q => rfl
  | str s =>
      simp only [toInt, intable]
      cases py.intOfText s <;> rfl
  | _ => rfl

theorem toInt_ne_protocol (x : Json) (error : ProtocolError) :
    toInt py x ≠ .error (.protocol error) := by
  cases x with
  | float x =>
      simp only [toInt, intOfFloat]
      cases x.value with
      | none => by_cases hNan : x.text = "nan" <;> simp [hNan]
      | some q => simp
  | str s =>
      simp only [toInt]
      cases py.intOfText s <;> simp
  | _ => simp [toInt]

end Conversions

section Sequences

variable {α : Type} {convert : Json → Decode α} {succeeds : Json → Bool}

theorem convertAll_isOk (h : ∀ x, (convert x).isOk = succeeds x) (xs : List Json) :
    (convertAll convert xs).isOk = xs.all succeeds := by
  induction xs with
  | nil => rfl
  | cons x rest ih =>
      rw [convertAll, List.all_cons, ← h x, ← ih]
      cases convert x with
      | error e => rfl
      | ok a => cases convertAll convert rest <;> rfl

theorem convertAll_ne_protocol (h : ∀ x error, convert x ≠ .error (.protocol error))
    (xs : List Json) (error : ProtocolError) :
    convertAll convert xs ≠ .error (.protocol error) := by
  induction xs with
  | nil => simp [convertAll]
  | cons x rest ih =>
      rw [convertAll]
      cases hx : convert x with
      | error e =>
          intro hSame
          cases hSame
          exact h x error hx
      | ok a =>
          cases hRest : convertAll convert rest with
          | error e =>
              intro hSame
              cases hSame
              exact ih hRest
          | ok more =>
              intro hSame
              cases hSame

theorem convertOption_isOk {β : Type} {convert : α → Decode β} {succeeds : α → Bool}
    (h : ∀ x, (convert x).isOk = succeeds x) (raw : Option α) :
    (convertOption convert raw).isOk = raw.all succeeds := by
  cases raw with
  | none => rfl
  | some x =>
      rw [Option.all_some, ← h x, convertOption]
      cases convert x <;> rfl

theorem convertOption_ne_protocol {β : Type} {convert : α → Decode β}
    (h : ∀ x error, convert x ≠ .error (.protocol error)) (raw : Option α)
    (error : ProtocolError) : convertOption convert raw ≠ .error (.protocol error) := by
  cases raw with
  | none => simp [convertOption]
  | some x =>
      rw [convertOption]
      cases hx : convert x with
      | error e =>
          intro hSame
          cases hSame
          exact h x error hx
      | ok a =>
          intro hSame
          cases hSame

end Sequences

/-! ## Outlines -/

theorem object_eq_some {x : Json} {d : Fields} (h : object x = some d) : x = .object d := by
  cases x <;> simp_all [object]

theorem items_eq_some {x : Json} {xs : List Json} (h : items x = some xs) : x = .array xs := by
  cases x <;> simp_all [items]

theorem pair_eq_some {x start stop : Json} (h : pair x = some (start, stop)) :
    x = .array [start, stop] := by
  unfold pair at h
  split at h
  · cases h
    rfl
  · cases h

section Outlines

variable {α β : Type} {pick : Json → Option α} {x : Json} {f : α → Decode β} {rest : List Step}

theorem failsClosed_malformed : FailsClosed (malformed : Decode α) := by
  simp [malformed]

theorem failsClosed_expect (pick : Json → Option α) (x : Json) :
    FailsClosed (expect pick x) := by
  unfold expect
  split
  · exact failsClosed_ok _
  · exact failsClosed_malformed

theorem failsClosed_construct (accepted : α → Bool) (args : α) :
    FailsClosed (construct accepted args) := by
  unfold construct
  split
  · exact failsClosed_ok _
  · exact failsClosed_malformed

theorem expect_eq_ok {a : α} (h : expect pick x = .ok a) : pick x = some a := by
  unfold expect at h
  split at h
  · next b hb =>
      cases h
      exact hb
  · cases h

theorem expect_isOk (pick : Json → Option α) (x : Json) :
    (expect pick x).isOk = (pick x).isSome := by
  unfold expect
  cases pick x <;> rfl

theorem outlines_expect (hf : ∀ a, pick x = some a → Outlines rest (f a)) :
    Outlines (.check (pick x).isSome :: rest) (expect pick x >>= f) := by
  rw [← expect_isOk]
  exact Outlines.check (failsClosed_expect pick x) fun a ha => hf a (expect_eq_ok ha)

theorem failsClosed_expect_bind (hf : ∀ a, FailsClosed (f a)) :
    FailsClosed (expect pick x >>= f) :=
  failsClosed_bind.mpr ⟨failsClosed_expect pick x, fun a _ => hf a⟩

variable {py : Python}

theorem outlines_toFloat {f : PyFloat → Decode β} (hf : ∀ a, Outlines rest (f a)) :
    Outlines (.convert (floatable x) :: rest) (toFloat py x >>= f) :=
  Outlines.convert (toFloat_ne_protocol py x) (toFloat_isOk py x) fun a _ => hf a

/-- The steps of `_required_number`. -/
def numberSteps (x : Json) : List Step := [.check (numeric x).isSome, .convert (floatable x)]

theorem outlines_requiredNumber {d : Fields} {key : String} {f : PyFloat → Decode β}
    (hf : ∀ a, Outlines rest (f a)) :
    Outlines (numberSteps (get d key) ++ rest) (requiredNumber d key py >>= f) := by
  have hAssoc : requiredNumber d key py >>= f =
      expect numeric (get d key) >>= fun x => toFloat py x >>= f := by
    rw [requiredNumber, bind_assoc]
  rw [hAssoc]
  refine outlines_expect fun a ha => ?_
  have hSame : a = get d key := by
    unfold numeric at ha
    split at ha <;> simp_all
  rw [hSame]
  exact outlines_toFloat hf

theorem outlines_toInt {f : ℤ → Decode β} (hf : ∀ a, Outlines rest (f a)) :
    Outlines (.convert (intable py x) :: rest) (toInt py x >>= f) :=
  Outlines.convert (toInt_ne_protocol py x) (toInt_isOk py x) fun a _ => hf a

theorem outlines_toInts {xs : List Json} {f : List ℤ → Decode β}
    (hf : ∀ a, Outlines rest (f a)) :
    Outlines (.convert (xs.all (intable py)) :: rest) (convertAll (toInt py) xs >>= f) :=
  Outlines.convert (convertAll_ne_protocol (toInt_ne_protocol py) xs)
    (convertAll_isOk (toInt_isOk py) xs) fun a _ => hf a

theorem plainNumber_eq_some {x y : Json} (h : plainNumber x = some y) : y = x := by
  cases x <;> simp_all [plainNumber]

theorem mapM_plainNumber {xs ys : List Json} (h : xs.mapM plainNumber = some ys) : ys = xs := by
  induction xs generalizing ys with
  | nil => simpa using h
  | cons x rest ih =>
      rw [List.mapM_cons] at h
      obtain ⟨y, hy, hRest⟩ := Option.bind_eq_some_iff.mp h
      obtain ⟨more, hMore, hPure⟩ := Option.bind_eq_some_iff.mp hRest
      obtain rfl : y :: more = ys := by simpa using hPure
      rw [plainNumber_eq_some hy, ih hMore]

theorem orNull_eq_some {raw : Option α} (h : orNull pick x = some raw) :
    (x = .null ∧ raw = none) ∨ ∃ a, x ≠ .null ∧ pick x = some a ∧ raw = some a := by
  cases x with
  | null => exact Or.inl ⟨rfl, by simpa [orNull] using h.symm⟩
  | _ =>
      obtain ⟨a, ha, rfl⟩ := Option.map_eq_some_iff.mp h
      exact Or.inr ⟨a, by simp, ha, rfl⟩

theorem outlines_optionalFloat {raw : Option Json} (h : orNull plainNumber x = some raw)
    {f : Option PyFloat → Decode β} (hf : ∀ a, Outlines rest (f a)) :
    Outlines (.convert (floatableOrNull x) :: rest) (convertOption (toFloat py) raw >>= f) := by
  refine Outlines.convert (convertOption_ne_protocol (toFloat_ne_protocol py) raw) ?_
    fun a _ => hf a
  rw [convertOption_isOk (toFloat_isOk py)]
  rcases orNull_eq_some h with ⟨rfl, rfl⟩ | ⟨y, hNull, hPick, rfl⟩
  · rfl
  · rw [plainNumber_eq_some hPick, Option.all_some]
    cases x <;> simp_all [floatableOrNull]

theorem outlines_optionalFloats {raw : Option (List Json)} (h : orNull plainNumbers x = some raw)
    {f : Option (List PyFloat) → Decode β} (hf : ∀ a, Outlines rest (f a)) :
    Outlines (.convert ((arrayItems x).all floatable) :: rest)
      (convertOption (convertAll (toFloat py)) raw >>= f) := by
  refine Outlines.convert (convertOption_ne_protocol
    (convertAll_ne_protocol (toFloat_ne_protocol py)) raw) ?_ fun a _ => hf a
  rw [convertOption_isOk (convertAll_isOk (toFloat_isOk py))]
  rcases orNull_eq_some h with ⟨rfl, rfl⟩ | ⟨ys, -, hPick, rfl⟩
  · rfl
  · obtain ⟨xs, hItems, hAll⟩ := Option.bind_eq_some_iff.mp hPick
    rw [items_eq_some hItems, mapM_plainNumber hAll]
    rfl

theorem outlines_optionalInts {raw : Option (List Json)} (h : orNull items x = some raw)
    {f : Option (List ℤ) → Decode β} (hf : ∀ a, Outlines rest (f a)) :
    Outlines (.convert ((arrayItems x).all (intable py)) :: rest)
      (convertOption (convertAll (toInt py)) raw >>= f) := by
  refine Outlines.convert (convertOption_ne_protocol
    (convertAll_ne_protocol (toInt_ne_protocol py)) raw) ?_ fun a _ => hf a
  rw [convertOption_isOk (convertAll_isOk (toInt_isOk py))]
  rcases orNull_eq_some h with ⟨rfl, rfl⟩ | ⟨xs, -, hPick, rfl⟩
  · rfl
  · rw [items_eq_some hPick]
    rfl

end Outlines

/-! ## The decoders -/

section Decoders

variable (py : Python)

/-- A token, up to its deadline. -/
def tokenSteps : Json → List Step
  | .object d =>
      [.check (orNull hexText (get d "ephemeral_pubkey_hex")).isSome,
        .check (text (get d "request_id")).isSome,
        .check (text (get d "settler_node_id")).isSome,
        .check (integer (get d "chain_stage_index")).isSome,
        .check (integer (get d "chain_total_stages")).isSome] ++
      numberSteps (get d "deadline_unix")
  | _ => []

def tokenDecodes : Json → Bool
  | .object d => (HandoffToken.fromDict py d).isOk
  | _ => false

theorem outlines_token (d : Fields) :
    Outlines (tokenSteps (.object d)) (HandoffToken.fromDict py d) := by
  refine outlines_expect fun _ _ => ?_
  refine outlines_expect fun _ _ => ?_
  refine outlines_expect fun _ _ => ?_
  refine outlines_expect fun _ _ => ?_
  refine outlines_expect fun _ _ => ?_
  refine outlines_requiredNumber fun _ => Outlines.of_failsClosed ?_
  refine failsClosed_expect_bind fun _ => ?_
  exact failsClosed_expect_bind fun _ => failsClosed_construct _ _

/-- A token that may be left out. -/
def optionalTokenSteps (x : Json) : List Step :=
  if x.truthy then .convert (isObject x) :: tokenSteps x else []

theorem outlines_optionalToken (d : Fields) :
    Outlines (optionalTokenSteps (get d "upstream_token")) (optionalToken py d) := by
  unfold optionalTokenSteps optionalToken
  split_ifs
  · have hOk : (tokenFields (get d "upstream_token")).isOk = isObject (get d "upstream_token") := by
      cases get d "upstream_token" <;> rfl
    have hStray : ∀ error, tokenFields (get d "upstream_token") ≠ .error (.protocol error) := by
      intro error
      cases get d "upstream_token" <;> simp [tokenFields]
    refine Outlines.convert hStray hOk fun fields hFields => ?_
    have hObject : get d "upstream_token" = .object fields := by
      cases hGet : get d "upstream_token" <;> simp_all [tokenFields]
    rw [hObject]
    exact (outlines_token py fields).map some
  · exact Outlines.of_failsClosed (failsClosed_ok _)

/-- A token that may be left out, as a step of its own at the end. -/
def optionalTokenDecodes (x : Json) : Bool := !x.truthy || tokenDecodes py x

/-- The steps of a request, up to its deadline. -/
def requestSteps (d : Fields) : List Step :=
  [.check (typeTag "run_layer_slice_request" (get d "type")).isSome,
    .check (object (get d "upstream_token")).isSome, .check (pair (get d "layer_range")).isSome,
    .check (items (get d "activation_shape")).isSome,
    .check (hexText (get d "activation_blob_hex")).isSome,
    .check (named PrivacyLevel.ofText (get d "privacy_tier")).isSome,
    .check (named ContentTier.ofText (get d "content_tier")).isSome,
    .check (orNull manifest (get d "activation_manifest")).isSome,
    .check (truth (field d "streaming" (.bool false))).isSome,
    .check (orNull integer (get d "max_tokens")).isSome,
    .check (orNull plainNumber (get d "temperature")).isSome,
    .convert (floatableOrNull (get d "temperature")),
    .check (orNull modeText (get d "decode_mode")).isSome,
    .check (orNull integers (get d "proposed_token_ids")).isSome,
    .check (orNull plainNumbers (get d "proposed_token_probs")).isSome,
    .convert ((arrayItems (get d "proposed_token_probs")).all floatable),
    .check (orNull hexText (get d "encrypted_proposed_token_probs_hex")).isSome,
    .check (text (get d "request_id")).isSome, .check (text (get d "model_id")).isSome,
    .convert (intable py (itemAt (get d "layer_range") 0)),
    .convert (intable py (itemAt (get d "layer_range") 1)),
    .convert ((arrayItems (get d "activation_shape")).all (intable py)),
    .check (text (get d "activation_dtype")).isSome] ++
  (tokenSteps (get d "upstream_token") ++ .check (tokenDecodes py (get d "upstream_token")) ::
    numberSteps (get d "deadline_unix"))

theorem outlines_request (d : Fields) :
    Outlines (requestSteps py d) (RunLayerSliceRequest.fromDict py d) := by
  refine outlines_expect fun _ _ => ?_
  refine outlines_expect fun tokenRaw hToken => ?_
  refine outlines_expect fun range hRange => ?_
  refine outlines_expect fun shapeRaw hShape => ?_
  iterate 6 refine outlines_expect fun _ _ => ?_
  refine outlines_expect fun temperatureRaw hTemperature => ?_
  refine outlines_optionalFloat hTemperature fun _ => ?_
  iterate 2 refine outlines_expect fun _ _ => ?_
  refine outlines_expect fun probsRaw hProbs => ?_
  refine outlines_optionalFloats hProbs fun _ => ?_
  iterate 3 refine outlines_expect fun _ _ => ?_
  rw [object_eq_some hToken, pair_eq_some hRange, items_eq_some hShape]
  refine outlines_toInt fun _ => ?_
  refine outlines_toInt fun _ => ?_
  refine outlines_toInts fun _ => ?_
  refine outlines_expect fun _ _ => ?_
  refine Outlines.nested (outlines_token py tokenRaw) fun _ _ => ?_
  refine outlines_requiredNumber fun _ => Outlines.of_failsClosed ?_
  exact failsClosed_expect_bind fun _ => failsClosed_construct _ _

/-- The steps of a response, up to what was spent of the privacy budget. -/
def responseSteps (d : Fields) : List Step :=
  [.check (typeTag "run_layer_slice_response" (get d "type")).isSome,
    .check (items (get d "activation_shape")).isSome,
    .check (hexText (get d "activation_blob_hex")).isSome,
    .check (nonemptyHex (get d "tee_attestation_hex")).isSome,
    .check (named TEEType.ofText (get d "tee_type")).isSome,
    .check (orNull manifest (get d "activation_manifest")).isSome,
    .check (orNull integer (get d "next_token_id")).isSome,
    .check (truth (field d "is_terminal" (.bool false))).isSome,
    .check (orNull verifiedTokens (get d "verified_token_ids")).isSome,
    .check (orNull integer (get d "accepted_count")).isSome,
    .check (text (get d "request_id")).isSome,
    .convert ((arrayItems (get d "activation_shape")).all (intable py)),
    .check (text (get d "activation_dtype")).isSome] ++
  (numberSteps (get d "duration_seconds") ++ numberSteps (get d "epsilon_spent"))

theorem outlines_response (d : Fields) :
    Outlines (responseSteps py d) (RunLayerSliceResponse.fromDict py d) := by
  refine outlines_expect fun _ _ => ?_
  refine outlines_expect fun shapeRaw hShape => ?_
  iterate 9 refine outlines_expect fun _ _ => ?_
  rw [items_eq_some hShape]
  refine outlines_toInts fun _ => ?_
  refine outlines_expect fun _ _ => ?_
  refine outlines_requiredNumber fun _ => ?_
  refine outlines_requiredNumber fun _ => Outlines.of_failsClosed ?_
  iterate 9 refine failsClosed_expect_bind fun _ => ?_
  exact failsClosed_construct _ _

/-- The steps of a terminal frame: those of its response. -/
def finalFrameSteps (d : Fields) : List Step :=
  .check (typeTag "stream_final_frame" (get d "type")).isSome ::
    .check (object (get d "response")).isSome ::
    responseSteps py ((object (get d "response")).getD [])

theorem outlines_finalFrame (d : Fields) :
    Outlines (finalFrameSteps py d) (StreamFinalFrame.fromDict py d) := by
  refine outlines_expect fun _ _ => ?_
  refine outlines_expect fun responseRaw hResponse => ?_
  rw [hResponse]
  exact (outlines_response py responseRaw).last fun _ =>
    failsClosed_expect_bind fun _ => failsClosed_ok _

def evictSteps (d : Fields) : List Step :=
  [.check (typeTag "evict_cache_request" (get d "type")).isSome,
    .check (text (get d "request_id")).isSome, .check (integer (get d "protocol_version")).isSome] ++
  optionalTokenSteps (get d "upstream_token")

def rollbackSteps (d : Fields) : List Step :=
  [.check (typeTag "rollback_cache_request" (get d "type")).isSome,
    .check (integer (get d "n_positions_to_drop")).isSome,
    .check (orNull items (get d "replay_accepted_prefix")).isSome,
    .convert ((arrayItems (get d "replay_accepted_prefix")).all (intable py)),
    .check (orNull hexText (get d "encrypted_replay_accepted_prefix_hex")).isSome,
    .check (orNull integer (get d "target_stage_index")).isSome,
    .check (text (get d "request_id")).isSome] ++
  optionalTokenSteps (get d "upstream_token")

theorem outlines_evict (d : Fields) :
    Outlines (evictSteps d) (EvictCacheRequest.fromDict py d) := by
  iterate 3 refine outlines_expect fun _ _ => ?_
  exact (outlines_optionalToken py d).last fun _ => failsClosed_construct _ _

theorem outlines_rollback (d : Fields) :
    Outlines (rollbackSteps py d) (RollbackCacheRequest.fromDict py d) := by
  iterate 2 refine outlines_expect fun _ _ => ?_
  refine outlines_expect fun replayRaw hReplay => ?_
  refine outlines_optionalInts hReplay fun _ => ?_
  iterate 3 refine outlines_expect fun _ _ => ?_
  exact (outlines_optionalToken py d).last fun _ =>
    failsClosed_expect_bind fun _ => failsClosed_construct _ _

theorem failsClosed_stageError (d : Fields) : FailsClosed (StageError.fromDict d) := by
  iterate 4 refine failsClosed_expect_bind fun _ => ?_
  exact failsClosed_construct _ _

theorem failsClosed_activationChunk (d : Fields) : FailsClosed (ActivationChunk.fromDict d) := by
  iterate 6 refine failsClosed_expect_bind fun _ => ?_
  exact failsClosed_construct _ _

theorem failsClosed_tokenFrame (d : Fields) : FailsClosed (TokenFrame.fromDict d) := by
  iterate 7 refine failsClosed_expect_bind fun _ => ?_
  exact failsClosed_construct _ _

theorem failsClosed_evictResponse (d : Fields) :
    FailsClosed (EvictCacheResponse.fromDict d) := by
  iterate 4 refine failsClosed_expect_bind fun _ => ?_
  exact failsClosed_construct _ _

theorem failsClosed_rollbackResponse (d : Fields) :
    FailsClosed (RollbackCacheResponse.fromDict d) := by
  iterate 5 refine failsClosed_expect_bind fun _ => ?_
  exact failsClosed_construct _ _

/-! ## Any message -/

/-- The steps of the five decoders that convert anything. -/
def outlineRegistry : List (String × (Fields → List Step)) :=
  [("run_layer_slice_request", requestSteps py), ("run_layer_slice_response", responseSteps py),
    ("stream_final_frame", finalFrameSteps py), ("evict_cache_request", evictSteps),
    ("rollback_cache_request", rollbackSteps py)]

def messageSteps (d : Fields) : List Step :=
  match ((anyText (get d "type")).bind fun msgType => (outlineRegistry py).lookup msgType) with
  | some steps => steps d
  | none => []

/-- Whether `json.loads` raises nothing but what is caught. -/
def loadsCaught (payload : Bytes) : Bool :=
  match py.loads payload with
  | .error .unicodeDecodeError | .error .recursionError => false
  | _ => true

def loadedFields (payload : Bytes) : Option Fields :=
  match py.loads payload with
  | .ok v => object v
  | .error _ => none

/-- The steps of `parse_message`. -/
def parseSteps (payload : Bytes) : List Step :=
  let d := (loadedFields py payload).getD []
  [.check (payload.length ≤ maxHandshakeBytes), .convert (loadsCaught py payload),
    .check (loadedFields py payload).isSome, .check (constructorOf py d).isOk,
    .check (versionOf d).isOk] ++
  messageSteps py d

theorem failsClosed_constructorOf (d : Fields) : FailsClosed (constructorOf py d) := by
  unfold constructorOf
  split
  · split
    · exact failsClosed_ok _
    · simp
  · exact failsClosed_malformed

theorem failsClosed_versionOf (d : Fields) : FailsClosed (versionOf d) := by
  unfold versionOf
  split
  · split
    · exact failsClosed_ok _
    · simp
  · simp

theorem mem_of_lookup {α : Type} {entries : List (String × α)} {key : String} {a : α}
    (h : entries.lookup key = some a) : (key, a) ∈ entries := by
  induction entries with
  | nil => simp at h
  | cons entry rest ih =>
      obtain ⟨k, b⟩ := entry
      by_cases hKey : key = k
      · subst hKey
        rw [List.lookup_cons_self] at h
        simp [Option.some.inj h]
      · rw [List.lookup_cons, beq_false_of_ne hKey] at h
        exact List.mem_cons_of_mem _ (ih h)

theorem outlines_constructor {d : Fields} {constructor : Fields → Decode Message}
    (h : constructorOf py d = .ok constructor) :
    Outlines (messageSteps py d) (constructor d) := by
  unfold constructorOf at h
  split at h
  · next msgType hType =>
      split at h
      · next c hLookup =>
          cases h
          have hMem := mem_of_lookup hLookup
          simp only [registry, List.mem_cons, Prod.mk.injEq, List.not_mem_nil, or_false] at hMem
          rw [messageSteps, hType]
          rcases hMem with ⟨rfl, rfl⟩ | ⟨rfl, rfl⟩ | ⟨rfl, rfl⟩ | ⟨rfl, rfl⟩ | ⟨rfl, rfl⟩ |
            ⟨rfl, rfl⟩ | ⟨rfl, rfl⟩ | ⟨rfl, rfl⟩ | ⟨rfl, rfl⟩ | ⟨rfl, rfl⟩
          · exact (outlines_request py d).map _
          · exact (outlines_response py d).map _
          · exact (Outlines.of_failsClosed (failsClosed_stageError d)).map _
          · exact (Outlines.of_failsClosed (failsClosed_activationChunk d)).map _
          · exact (Outlines.of_failsClosed (failsClosed_tokenFrame d)).map _
          · exact (outlines_finalFrame py d).map _
          · exact (outlines_evict py d).map _
          · exact (Outlines.of_failsClosed (failsClosed_evictResponse d)).map _
          · exact (outlines_rollback py d).map _
          · exact (Outlines.of_failsClosed (failsClosed_rollbackResponse d)).map _
      · cases h
  · cases h

theorem outlines_loaded {β : Type} {payload : Bytes} {f : Fields → Decode β} {rest : List Step}
    (hf : ∀ d, loadedFields py payload = some d → Outlines rest (f d)) :
    Outlines (.convert (loadsCaught py payload) :: .check (loadedFields py payload).isSome :: rest)
      (loaded py payload >>= fun v => expect object v >>= f) := by
  -- the exceptions that are not caught are the failed conversion
  have hCaught : ∀ {x : Decode β}, Outlines (.check (loadedFields py payload).isSome :: rest) x →
      Outlines (.convert true :: .check (loadedFields py payload).isSome :: rest) x := by
    intro x h
    exact Outlines.convert (x := (.ok () : Decode Unit)) (by simp) rfl fun _ _ => h
  have hStray : ∀ e : Raised ProtocolError, (∀ error, e ≠ .protocol error) →
      Outlines (.convert false :: .check (loadedFields py payload).isSome :: rest)
        (.error e : Decode β) := by
    intro e he
    exact Outlines.convert (x := (.error e : Decode Unit)) (f := fun _ => .error e)
      (by simpa using he) rfl fun _ h => by cases h
  unfold loaded loadsCaught
  cases hLoads : py.loads payload with
  | error e =>
      cases e with
      | jsonDecodeError =>
          have hNone : loadedFields py payload = none := by simp [loadedFields, hLoads]
          refine hCaught ?_
          rw [hNone]
          exact Outlines.check (x := (malformed : Decode β)) (f := pure) failsClosed_malformed
            fun _ h => by cases h
      | unicodeDecodeError => exact hStray _ (by simp)
      | recursionError => exact hStray _ (by simp)
  | ok v =>
      have hSome : loadedFields py payload = object v := by simp [loadedFields, hLoads]
      refine hCaught ?_
      rw [hSome]
      exact outlines_expect fun d hd => hf d (hSome.trans hd)

theorem outlines_parse (payload : Bytes) :
    Outlines (parseSteps py payload) (parseMessage py payload) := by
  have hSize : (checkSize payload).isOk = decide (payload.length ≤ maxHandshakeBytes) := by
    unfold checkSize
    split_ifs with h
    · exact (decide_eq_false (by omega)).symm
    · exact (decide_eq_true (by omega)).symm
  have hClosed : FailsClosed (checkSize payload) := by
    unfold checkSize
    split_ifs
    · exact failsClosed_malformed
    · exact failsClosed_ok _
  rw [parseSteps, ← hSize]
  refine Outlines.check hClosed fun _ _ => ?_
  refine outlines_loaded py fun d hd => ?_
  rw [hd]
  refine Outlines.check (failsClosed_constructorOf py d) fun constructor hConstructor => ?_
  refine Outlines.check (failsClosed_versionOf d) fun _ _ => ?_
  exact outlines_constructor py hConstructor

/-- Decoding returns a message, which its constructor has accepted, or raises one of the
protocol's exceptions, exactly if each conversion that would fail stands behind a check that
fails. -/
theorem parse_fails_closed_iff (payload : Bytes) :
    ((∃ m, parseMessage py payload = .ok m) ∨
      ∃ error, parseMessage py payload = .error (.protocol error)) ↔
    Shielded (parseSteps py payload) := by
  rw [← (outlines_parse py payload).closed, failsClosed_iff]

end Decoders

/-! ## A token that is a list -/

namespace Sample

/-- A peer asks to evict a cache and sends a list for the token. -/
def payload : Bytes :=
  Settlement.utf8 (Json.object
    [("type", .str "evict_cache_request"), ("protocol_version", .int 2),
      ("request_id", .str "r"), ("upstream_token", .array [.int 1])]).text

theorem token_list_raises :
    ¬((∃ m, parseMessage Wire.Sample.python payload = .ok m) ∨
      ∃ error, parseMessage Wire.Sample.python payload = .error (.protocol error)) :=
  not_failsClosed (e := .attributeError) (by decide +kernel) (by simp)

end Sample

end Prsm.ChainRpc
