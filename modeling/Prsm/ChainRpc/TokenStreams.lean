import Prsm.ChainRpc.Messages

/-!
# Token streams of sharded decoding

The streams of `_execute_chain_streaming_sharded` and of its speculative sibling.  The marker of
the end is set by the value of the last token of a round, so a round that ends the stream marks
every occurrence of it; and the first token is marked by the chain alone, whatever the cap is.
-/

namespace Prsm.ChainRpc

open Foundations Wire
open Evm (Bytes)

/-! ## Lists whose last element alone is marked -/

section LastOnly

variable {α : Type*} {p : α → Prop} {x : α} {xs ys : List α}

/-- Exactly the last element has `p`, and there is one. -/
def LastOnly (p : α → Prop) (xs : List α) : Prop :=
  ∃ init last, xs = init ++ [last] ∧ (∀ a ∈ init, ¬ p a) ∧ p last

theorem lastOnly_append_singleton :
    LastOnly p (xs ++ [x]) ↔ (∀ a ∈ xs, ¬ p a) ∧ p x := by
  constructor
  · rintro ⟨init, last, hEq, hInit, hLast⟩
    obtain ⟨rfl, hEnd⟩ := List.append_inj' hEq rfl
    obtain rfl : x = last := by simpa using hEnd
    exact ⟨hInit, hLast⟩
  · rintro ⟨hInit, hLast⟩
    exact ⟨xs, x, rfl, hInit, hLast⟩

theorem not_lastOnly_nil : ¬ LastOnly p [] := by
  rintro ⟨init, last, hEq, -⟩
  simp at hEq

theorem lastOnly_append_of_unmarked (hxs : ∀ a ∈ xs, ¬ p a) :
    LastOnly p (xs ++ ys) ↔ LastOnly p ys := by
  rcases List.eq_nil_or_concat ys with rfl | ⟨init, last, rfl⟩
  · rw [List.append_nil]
    constructor
    · rintro ⟨init, last, rfl, -, hLast⟩
      exact absurd hLast (hxs last (by simp))
    · intro hNil
      exact absurd hNil not_lastOnly_nil
  · rw [List.concat_eq_append, ← List.append_assoc, lastOnly_append_singleton,
      lastOnly_append_singleton]
    constructor
    · rintro ⟨hAll, hLast⟩
      exact ⟨fun a ha => hAll a (List.mem_append_right _ ha), hLast⟩
    · rintro ⟨hInit, hLast⟩
      refine ⟨fun a ha => ?_, hLast⟩
      rcases List.mem_append.mp ha with h | h
      · exact hxs a h
      · exact hInit a h

end LastOnly

inductive ExecutorErrorCode
  | invalidStageSignature
  | transportError
  | malformedResponse
  | unsupportedVersion
  | activationInvalid
  | promptEncodeError
  | outputDecodeError
  | emptyChain
  | shapeMismatch
  | activationTooLarge
  | streamingNotWired
  | tailTokenMissing
  deriving DecidableEq

/-- Why there is no result: an exception, peers that have not answered yet, or answers that the
run has not asked for. -/
inductive Stop
  | chainExecutionError (code : ExecutorErrorCode)
  | malformedRequest
  | awaiting
  | unasked
  deriving DecidableEq

structure StreamToken where
  sequenceIndex : ℕ
  textDelta : String
  tokenId : ℤ
  finishReason : Option String
  deriving DecidableEq

/-- The fields of the request that the sharded streams read. -/
structure SamplingRequest where
  prompt : String
  maxTokens : Option ℤ
  temperature : Option Number

/-- `encode` is `none` where the tokenizer raises or returns something other than a list;
`encryptProbs` is the cipher, when one is wired, at each stage. -/
structure RpcChainExecutor where
  encode : String → Option (List ℤ)
  decode : ℤ → String
  shardedDefaultMaxTokens : ℤ
  proposesWithProbs : Bool
  encryptProbs : Option (ℕ → List Number → Bytes)
  chainTotal : ℕ
  default_pos : 0 < shardedDefaultMaxTokens

/-- What the last stage answers on a pass through the chain, if no stage fails. -/
abbrev Answer := Except ExecutorErrorCode RunLayerSliceResponse

/-- A round of speculation: what the draft model proposes, `none` for anything but a list, and the
chain's answer. -/
structure Round where
  proposed : Option (List ℤ)
  proposedProbs : Option (List Number)
  answer : Answer

/-- What a run has yielded when it ends with its `ChainExecutionResult`. -/
structure Streamed where
  tokens : List StreamToken
  outputText : String
  decodeModes : List DecodeMode
  deriving DecidableEq

namespace RpcChainExecutor

variable (x : RpcChainExecutor)

/-- `int(request.max_tokens or 0) or self._sharded_default_max_tokens`. -/
def maxTokens (request : SamplingRequest) : ℤ :=
  match request.maxTokens with
  | some n => if n = 0 then x.shardedDefaultMaxTokens else n
  | none => x.shardedDefaultMaxTokens

/-- `float(x) > 0.0`. -/
def aboveZero : Number → Bool
  | .int n => 0 < n
  | .float x =>
      match x.value with
      | some q => 0 < q
      | none => x.text = "inf"

def useStochastic (request : SamplingRequest) : Bool := request.temperature.any aboveZero

def initialInputIds (request : SamplingRequest) : Except Stop (List ℤ) :=
  match x.encode request.prompt with
  | some ids => if ids = [] then throw (.chainExecutionError .promptEncodeError) else return ids
  | none => throw (.chainExecutionError .promptEncodeError)

/-- The probabilities go out in plain, or encrypted for each stage. -/
def wireProbs (proposed : Option (List ℤ)) (probs : Option (List Number)) : Bool :=
  match x.encryptProbs, probs with
  | some encrypt, some probs =>
      (List.range x.chainTotal).all fun stage =>
        validProbs proposed none (some (encrypt stage probs))
  | _, _ => validProbs proposed probs none

/-- The constructor of the request that goes to every stage. -/
def wireRequest (request : SamplingRequest) (mode : DecodeMode) (proposed : Option (List ℤ))
    (probs : Option (List Number)) : Except Stop Unit :=
  require ((request.maxTokens.all fun n => 0 < n) ∧
    (request.temperature.all fun t => t.within 2) ∧ validProposal mode proposed ∧
    x.wireProbs proposed probs) .malformedRequest

def received (answer : Answer) : Except Stop RunLayerSliceResponse :=
  raise .chainExecutionError answer

def runChainIterationSharded (request : SamplingRequest) (mode : DecodeMode) (answer : Answer) :
    Except Stop (ℤ × Bool) := do
  x.wireRequest request mode none none
  let response ← received answer
  match response.1.nextTokenId with
  | some token => return (token, response.1.isTerminal)
  | none => throw (.chainExecutionError .tailTokenMissing)

/-- The shape of a tail's verdict; a greedy round has no probabilities. -/
def verdictOk (proposed : List ℤ) (probs : Option (List Number)) (verified : List ℤ)
    (accepted : ℤ) : Bool :=
  if probs.isNone then verified.length = proposed.length + 1
  else 0 ≤ accepted ∧ accepted ≤ proposed.length ∧ (verified.length : ℤ) = accepted + 1

def runChainIterationShardedVerify (request : SamplingRequest) (proposed : List ℤ)
    (probs : Option (List Number)) (answer : Answer) : Except Stop (List ℤ × ℤ × Bool) := do
  x.wireRequest request .verify (some proposed) probs
  let response ← received answer
  match response.1.verifiedTokenIds, response.1.acceptedCount with
  | some verified, some accepted =>
      require (verdictOk proposed probs verified accepted = true)
        (.chainExecutionError .malformedResponse)
      return (verified, accepted, response.1.isTerminal)
  | _, _ => throw (.chainExecutionError .malformedResponse)

/-- The first token is marked if the chain is at its end. -/
def prefillToken (token : ℤ) (isTerminal : Bool) : StreamToken :=
  ⟨0, x.decode token, token, if isTerminal then some "stop" else none⟩

/-- The `while` loop of `_execute_chain_streaming_sharded`. -/
def incrementalLoop (request : SamplingRequest) :
    ℕ → Bool → List Answer → Except Stop (List StreamToken)
  | sequenceIdx, isTerminal, [] =>
      if !isTerminal ∧ sequenceIdx < x.maxTokens request then throw .awaiting else return []
  | sequenceIdx, isTerminal, answer :: answers =>
      if !isTerminal ∧ sequenceIdx < x.maxTokens request then do
        let (token, isTerminal) ← x.runChainIterationSharded request .incremental answer
        let rest ← incrementalLoop request (sequenceIdx + 1) isTerminal answers
        return ⟨sequenceIdx, x.decode token, token,
          if isTerminal then some "stop"
          else if sequenceIdx + 1 ≥ x.maxTokens request then some "max_tokens" else none⟩ :: rest
      else throw .unasked

def result (tokens : List StreamToken) (mode : DecodeMode) (passes : ℕ) : Streamed :=
  ⟨tokens, String.join (tokens.map (·.textDelta)), .prefill :: List.replicate passes mode⟩

def executeChainStreamingSharded (request : SamplingRequest) (prefill : Answer)
    (answers : List Answer) : Except Stop Streamed := do
  let _ ← x.initialInputIds request
  let (token, isTerminal) ← x.runChainIterationSharded request .prefill prefill
  let rest ← x.incrementalLoop request 1 isTerminal answers
  return result (x.prefillToken token isTerminal :: rest) .incremental answers.length

/-- The marker compares the values of the tokens, not their places. -/
def finishReason (chainTerminal capReached : Bool) (emitted : List ℤ) (tok : ℤ) :
    Option String :=
  if chainTerminal ∧ emitted.getLast? = some tok then some "stop"
  else if capReached ∧ emitted.getLast? = some tok then some "max_tokens"
  else none

/-- The `for` loop over the tokens of a round. -/
def emitTokens (finish : ℤ → Option String) : ℕ → List ℤ → List StreamToken
  | _, [] => []
  | tokensEmitted, tok :: rest =>
      ⟨tokensEmitted, x.decode tok, tok, finish tok⟩ ::
        emitTokens finish (tokensEmitted + 1) rest

/-- The draft's proposal, with its probabilities where the round is stochastic. -/
def proposal (request : SamplingRequest) (round : Round) :
    Except Stop (List ℤ × Option (List Number)) := do
  let probs := if useStochastic request then round.proposedProbs else none
  match round.proposed with
  | some proposed =>
      require (proposed ≠ []) (.chainExecutionError .malformedResponse)
      require (useStochastic request = true → probs.any fun probs => probs.length = proposed.length)
        (.chainExecutionError .malformedResponse)
      return (proposed, probs)
  | none => throw (.chainExecutionError .malformedResponse)

/-- `emitted[: max_tokens - tokens_emitted]`, where there are too many. -/
def truncated (maxTokens : ℤ) (tokensEmitted : ℕ) (emitted : List ℤ) : List ℤ :=
  if tokensEmitted + emitted.length > maxTokens then
    emitted.take (maxTokens - tokensEmitted).toNat
  else emitted

/-- A round, with the tokens it yields and whether it is the last one. -/
def verifyRound (request : SamplingRequest) (tokensEmitted : ℕ) (round : Round) :
    Except Stop (List StreamToken × Bool) := do
  let (proposed, probs) ← proposal request round
  let (verified, acceptedCount, chainTerminal) ←
    x.runChainIterationShardedVerify request proposed probs round.answer
  let emitted := truncated (x.maxTokens request) tokensEmitted
    (verified.take (acceptedCount + 1).toNat)
  let capReached : Bool := tokensEmitted + emitted.length ≥ x.maxTokens request
  return (x.emitTokens (finishReason chainTerminal capReached emitted) tokensEmitted emitted,
    capReached || chainTerminal)

/-- The `while` loop of `_execute_chain_streaming_sharded_speculative`. -/
def speculativeLoop (request : SamplingRequest) :
    ℕ → Bool → List Round → Except Stop (List StreamToken)
  | tokensEmitted, isTerminal, [] =>
      if !isTerminal ∧ tokensEmitted < x.maxTokens request then throw .awaiting else return []
  | tokensEmitted, isTerminal, round :: rounds =>
      if !isTerminal ∧ tokensEmitted < x.maxTokens request then do
        let (tokens, isTerminal) ← x.verifyRound request tokensEmitted round
        let rest ← speculativeLoop request (tokensEmitted + tokens.length) isTerminal rounds
        return tokens ++ rest
      else throw .unasked

def executeChainStreamingShardedSpeculative (request : SamplingRequest) (prefill : Answer)
    (rounds : List Round) : Except Stop Streamed := do
  require (useStochastic request = true → x.proposesWithProbs = true)
    (.chainExecutionError .promptEncodeError)
  let _ ← x.initialInputIds request
  let (token, isTerminal) ← x.runChainIterationSharded request .prefill prefill
  let rest ← x.speculativeLoop request 1 isTerminal rounds
  return result (x.prefillToken token isTerminal :: rest) .verify rounds.length

/-! ## Streams that end once -/

/-- What a consumer of a stream relies on. -/
structure EndsOnce (bound : ℤ) (tokens : List StreamToken) : Prop where
  indices : tokens.map (·.sequenceIndex) = List.range tokens.length
  bounded : tokens.length ≤ bound
  marked : LastOnly (fun t => t.finishReason ≠ none) tokens

/-- The last element occurs once. -/
def LastOnce (xs : List ℤ) : Prop := ∀ last ∈ xs.getLast?, last ∉ xs.dropLast

instance (xs : List ℤ) : Decidable (LastOnce xs) :=
  inferInstanceAs (Decidable (∀ last ∈ xs.getLast?, last ∉ xs.dropLast))

theorem lastOnce_append_singleton {init : List ℤ} {last : ℤ} :
    LastOnce (init ++ [last]) ↔ last ∉ init := by
  simp [LastOnce]

def endsAtOnce : Answer → Bool
  | .ok response => response.1.isTerminal
  | .error _ => false

/-- `verified[: accepted_count + 1]` of an answer. -/
def acceptedTokens (round : Round) : List ℤ :=
  match round.answer with
  | .ok response =>
      (response.1.verifiedTokenIds.getD []).take (response.1.acceptedCount.getD 0 + 1).toNat
  | .error _ => []

/-- The tokens of the last round, as far as the cap lets them through. -/
def lastSlice (maxTokens : ℤ) : ℕ → List Round → List ℤ
  | _, [] => []
  | tokensEmitted, [round] => truncated maxTokens tokensEmitted (acceptedTokens round)
  | tokensEmitted, round :: next :: rounds =>
      lastSlice maxTokens (tokensEmitted + (acceptedTokens round).length) (next :: rounds)

/-! ## The tokens of a round -/

section Rounds

variable {x : RpcChainExecutor} {request : SamplingRequest}

theorem emitTokens_indices (finish : ℤ → Option String) (n : ℕ) (ts : List ℤ) :
    (x.emitTokens finish n ts).map (·.sequenceIndex) = List.range' n ts.length := by
  induction ts generalizing n with
  | nil => rfl
  | cons t ts ih => simp [emitTokens, ih, List.range'_succ]

@[simp] theorem emitTokens_length (finish : ℤ → Option String) (n : ℕ) (ts : List ℤ) :
    (x.emitTokens finish n ts).length = ts.length := by
  induction ts generalizing n with
  | nil => rfl
  | cons t ts ih => simp [emitTokens, ih]

theorem emitTokens_append (finish : ℤ → Option String) (n : ℕ) (ts us : List ℤ) :
    x.emitTokens finish n (ts ++ us) =
      x.emitTokens finish n ts ++ x.emitTokens finish (n + ts.length) us := by
  induction ts generalizing n with
  | nil => simp [emitTokens]
  | cons t ts ih =>
      simp only [List.cons_append, emitTokens, ih, List.length_cons]
      rw [show n + 1 + ts.length = n + (ts.length + 1) by omega]

theorem forall_emitTokens {P : Option String → Prop} (finish : ℤ → Option String) (n : ℕ)
    (ts : List ℤ) :
    (∀ t ∈ x.emitTokens finish n ts, P t.finishReason) ↔ ∀ tok ∈ ts, P (finish tok) := by
  induction ts generalizing n with
  | nil => simp [emitTokens]
  | cons t ts ih => simp [emitTokens, ih]

variable {chainTerminal capReached : Bool} {emitted : List ℤ} {n : ℕ} {maxTokens : ℤ}

theorem finishReason_ne_none {tok : ℤ} :
    finishReason chainTerminal capReached emitted tok ≠ none ↔
      (capReached || chainTerminal) = true ∧ emitted.getLast? = some tok := by
  unfold finishReason
  split
  case isTrue h => simp [h]
  case isFalse h =>
    split
    case isTrue hCap => simp [hCap]
    case isFalse hCap =>
      simp only [not_and] at h hCap
      simp only [ne_eq, not_true, Bool.or_eq_true, false_iff, not_and]
      rintro (hReached | hTerminal)
      · exact hCap hReached
      · exact h hTerminal

theorem lastOnly_emitTokens
    (hEnds : (capReached || chainTerminal) = true) (hNe : emitted ≠ []) :
    LastOnly (fun t => t.finishReason ≠ none)
        (x.emitTokens (finishReason chainTerminal capReached emitted) n emitted) ↔
      LastOnce emitted := by
  obtain ⟨init, last, rfl⟩ : ∃ init last, emitted = init ++ [last] :=
    ⟨emitted.dropLast, emitted.getLast hNe, (List.dropLast_append_getLast hNe).symm⟩
  rw [lastOnce_append_singleton, emitTokens_append]
  have hMark : ∀ tok, finishReason chainTerminal capReached (init ++ [last]) tok ≠ none ↔
      last = tok := by
    intro tok
    rw [finishReason_ne_none]
    simp [hEnds]
  simp only [emitTokens]
  rw [lastOnly_append_singleton,
    forall_emitTokens (P := fun reason => ¬ reason ≠ none)]
  simp only [hMark, and_true]
  constructor
  · intro hInit hMem
    exact hInit last hMem rfl
  · rintro hNot tok hTok rfl
    exact hNot hTok

theorem emitTokens_unmarked
    (hGoesOn : (capReached || chainTerminal) = false) :
    ∀ t ∈ x.emitTokens (finishReason chainTerminal capReached emitted) n emitted,
      ¬ t.finishReason ≠ none := by
  rw [forall_emitTokens (P := fun reason => ¬ reason ≠ none)]
  intro tok hTok
  rw [finishReason_ne_none]
  simp [hGoesOn]

theorem truncated_ne_nil (hRoom : n < maxTokens)
    (hNe : emitted ≠ []) : truncated maxTokens n emitted ≠ [] := by
  unfold truncated
  split
  · rw [ne_eq, List.take_eq_nil_iff]
    have hPos : (maxTokens - n).toNat ≠ 0 := by omega
    simp only [hPos, hNe, or_self, not_false_eq_true]
  · exact hNe

theorem truncated_length (hRoom : n < maxTokens) :
    n + (truncated maxTokens n emitted).length ≤ maxTokens := by
  unfold truncated
  split
  · rw [List.length_take]
    omega
  · omega

theorem truncated_of_lt (hRoom : n < maxTokens)
    (hBelow : n + (truncated maxTokens n emitted).length < maxTokens) :
    truncated maxTokens n emitted = emitted := by
  unfold truncated at hBelow ⊢
  split
  case isTrue hOver =>
    rw [if_pos hOver, List.length_take] at hBelow
    omega
  case isFalse => rfl

theorem maxTokens_pos {mode : DecodeMode} {proposed : Option (List ℤ)}
    {probs : Option (List Number)} (h : x.wireRequest request mode proposed probs = .ok ()) :
    0 < x.maxTokens request := by
  rw [wireRequest, require_eq_ok_iff] at h
  have hDefault := x.default_pos
  unfold maxTokens
  cases hMax : request.maxTokens with
  | none => exact hDefault
  | some n =>
      have hPos : 0 < n := by simpa [hMax] using h.1
      simp only
      split <;> omega

theorem validVerified_slice {verified : List ℤ} {accepted : ℤ}
    (h : validVerified (some verified) (some accepted) = true) :
    verified.take (accepted + 1).toNat ≠ [] := by
  simp only [validVerified, decide_eq_true_eq] at h
  have hPos : (accepted + 1).toNat ≠ 0 := by omega
  simp [h.1, hPos]

theorem response_validVerified (r : RunLayerSliceResponse) :
    validVerified r.1.verifiedTokenIds r.1.acceptedCount = true := by
  have h := r.2
  simp only [RunLayerSliceResponseArgs.accepted, decide_eq_true_eq] at h
  exact h.2.2.2.2.2.2.2.2.1

theorem verifyRound_spec {round : Round} {tokens : List StreamToken} {terminal : Bool}
    (h : x.verifyRound request n round = .ok (tokens, terminal)) :
    acceptedTokens round ≠ [] ∧
      ∃ emitted chainTerminal, emitted = truncated (x.maxTokens request) n (acceptedTokens round) ∧
        tokens = x.emitTokens (finishReason chainTerminal
          (decide (n + emitted.length ≥ x.maxTokens request)) emitted) n emitted ∧
        terminal = (decide (n + emitted.length ≥ x.maxTokens request) || chainTerminal) := by
  simp only [verifyRound, bind_eq_ok_iff, pure_eq_ok_iff] at h
  obtain ⟨⟨proposed, probs⟩, -, ⟨verified, accepted, chainTerminal⟩, hVerify, hOut⟩ := h
  simp only [runChainIterationShardedVerify, received, bind_eq_ok_iff, raise_eq_ok_iff] at hVerify
  obtain ⟨-, -, response, hAnswer, hVerify⟩ := hVerify
  have hValid := response_validVerified response
  split at hVerify
  case h_1 verified' accepted' hTokens hCount =>
    simp only [bind_eq_ok_iff, pure_eq_ok_iff, Prod.mk.injEq] at hVerify
    obtain ⟨-, -, rfl, rfl, rfl⟩ := hVerify
    have hSlice : acceptedTokens round = verified'.take (accepted' + 1).toNat := by
      simp [acceptedTokens, hAnswer, hTokens, hCount]
    rw [hTokens, hCount] at hValid
    rw [hSlice]
    obtain ⟨rfl, rfl⟩ := Prod.mk.inj hOut
    exact ⟨validVerified_slice hValid, _, _, rfl, rfl, rfl⟩
  case h_2 => cases hVerify

end Rounds

section Runs

variable {x : RpcChainExecutor} {request : SamplingRequest}

/-- A loop yields tokens that are numbered on from `n` and stay below the cap. -/
structure Continues (bound : ℤ) (n : ℕ) (tokens : List StreamToken) : Prop where
  indices : tokens.map (·.sequenceIndex) = List.range' n tokens.length
  bounded : n + tokens.length ≤ bound

variable {n : ℕ} {tokens : List StreamToken} {answers : List Answer} {terminal : Bool}
  {rounds : List Round}

theorem continues_nil {bound : ℤ} (h : n ≤ bound) : Continues bound n [] :=
  ⟨rfl, by simpa using h⟩

theorem Continues.append {bound : ℤ} {rest : List StreamToken}
    (hTokens : tokens.map (·.sequenceIndex) = List.range' n tokens.length)
    (hRest : Continues bound (n + tokens.length) rest) : Continues bound n (tokens ++ rest) where
  indices := by
    rw [List.map_append, hTokens, hRest.indices, List.length_append, List.range'_append_1]
  bounded := by
    have hBound := hRest.bounded
    rw [List.length_append]
    omega

theorem incrementalLoop_ended (h : x.incrementalLoop request n terminal answers = .ok tokens)
    (hEnded : ¬ (terminal = false ∧ n < x.maxTokens request)) : tokens = [] := by
  cases answers with
  | nil =>
      rw [incrementalLoop, if_neg (by simpa using hEnded)] at h
      exact (pure_eq_ok_iff.mp h).symm
  | cons =>
      rw [incrementalLoop, if_neg (by simpa using hEnded)] at h
      cases h

theorem incrementalLoop_spec
    (h : x.incrementalLoop request n terminal answers = .ok tokens)
    (hRoom : n ≤ x.maxTokens request) :
    Continues (x.maxTokens request) n tokens ∧
      (LastOnly (fun t => t.finishReason ≠ none) tokens ↔
        terminal = false ∧ n < x.maxTokens request) := by
  induction answers generalizing n terminal tokens with
  | nil =>
      rw [incrementalLoop] at h
      split at h
      · cases h
      case isFalse hEnded =>
        obtain rfl : [] = tokens := pure_eq_ok_iff.mp h
        refine ⟨continues_nil hRoom, iff_of_false not_lastOnly_nil ?_⟩
        simpa using hEnded
  | cons answer answers ih =>
      rw [incrementalLoop] at h
      split at h
      case isFalse => cases h
      case isTrue hRunning =>
        simp only [bind_eq_ok_iff, pure_eq_ok_iff] at h
        obtain ⟨⟨token, terminal'⟩, -, rest, hRest, rfl⟩ := h
        obtain ⟨hTerminal, hBelow⟩ : terminal = false ∧ n < x.maxTokens request := by
          simpa using hRunning
        obtain ⟨hContinues, hLast⟩ := ih hRest (by push_cast; omega)
        rw [← List.singleton_append]
        refine ⟨Continues.append rfl (by simpa using hContinues),
          iff_of_true ?_ ⟨hTerminal, hBelow⟩⟩
        by_cases hGoesOn : terminal' = false ∧ ((n + 1 : ℕ) : ℤ) < x.maxTokens request
        · -- the token is unmarked and the rest of the loop marks its last
          have hBelow' : ¬ (n : ℤ) + 1 ≥ x.maxTokens request := by
            have := hGoesOn.2
            push_cast at this
            omega
          rw [lastOnly_append_of_unmarked]
          · exact hLast.mpr hGoesOn
          · simp [hGoesOn.1, hBelow']
        · -- the loop is over, and the token carries the reason
          obtain rfl := incrementalLoop_ended hRest hGoesOn
          refine ⟨[], _, rfl, by simp, ?_⟩
          cases terminal' with
          | true => simp
          | false =>
              have hCap : (n : ℤ) + 1 ≥ x.maxTokens request := by
                simpa using hGoesOn
              simp [hCap]

theorem speculativeLoop_ended (h : x.speculativeLoop request n terminal rounds = .ok tokens)
    (hEnded : ¬ (terminal = false ∧ n < x.maxTokens request)) : tokens = [] ∧ rounds = [] := by
  cases rounds with
  | nil =>
      rw [speculativeLoop, if_neg (by simpa using hEnded)] at h
      exact ⟨(pure_eq_ok_iff.mp h).symm, rfl⟩
  | cons =>
      rw [speculativeLoop, if_neg (by simpa using hEnded)] at h
      cases h

theorem speculativeLoop_spec
    (h : x.speculativeLoop request n terminal rounds = .ok tokens)
    (hRoom : n ≤ x.maxTokens request) :
    Continues (x.maxTokens request) n tokens ∧
      (LastOnly (fun t => t.finishReason ≠ none) tokens ↔
        (terminal = false ∧ n < x.maxTokens request) ∧
          LastOnce (lastSlice (x.maxTokens request) n rounds)) := by
  induction rounds generalizing n terminal tokens with
  | nil =>
      rw [speculativeLoop] at h
      split at h
      · cases h
      case isFalse hEnded =>
        obtain rfl : [] = tokens := pure_eq_ok_iff.mp h
        refine ⟨continues_nil hRoom, iff_of_false not_lastOnly_nil ?_⟩
        rintro ⟨hRunning, -⟩
        exact hEnded (by simpa using hRunning)
  | cons round rounds ih =>
      rw [speculativeLoop] at h
      split at h
      case isFalse => cases h
      case isTrue hRunning =>
        simp only [bind_eq_ok_iff, pure_eq_ok_iff] at h
        obtain ⟨⟨roundTokens, terminal'⟩, hRound, rest, hRest, rfl⟩ := h
        have hRunning' : terminal = false ∧ n < x.maxTokens request := by
          simpa using hRunning
        obtain ⟨hAccepted, emitted, chainTerminal, hEmitted, hTokens, hTerminal⟩ :=
          verifyRound_spec hRound
        have hNe : emitted ≠ [] := hEmitted ▸ truncated_ne_nil hRunning'.2 hAccepted
        have hLength : roundTokens.length = emitted.length := by
          rw [hTokens, emitTokens_length]
        have hBound : n + emitted.length ≤ x.maxTokens request :=
          hEmitted ▸ truncated_length hRunning'.2
        have hIndices : roundTokens.map (·.sequenceIndex) =
            List.range' n roundTokens.length := by
          rw [hLength, hTokens, emitTokens_indices]
        obtain ⟨hContinues, hLast⟩ := ih hRest (by rw [hLength]; exact_mod_cast hBound)
        refine ⟨Continues.append hIndices hContinues, ?_⟩
        simp only [hRunning', true_and, and_self]
        cases hEnd : terminal' with
        | true =>
            obtain ⟨rfl, rfl⟩ := speculativeLoop_ended hRest (by simp [hEnd])
            rw [List.append_nil, lastSlice, ← hEmitted, hTokens]
            exact lastOnly_emitTokens (by rw [← hTerminal, hEnd]) hNe
        | false =>
            have hBelow : n + emitted.length < x.maxTokens request := by
              rw [hEnd, eq_comm, Bool.or_eq_false_iff] at hTerminal
              simpa using hTerminal.1
            have hWhole : emitted = acceptedTokens round := by
              rw [hEmitted] at hBelow ⊢
              exact truncated_of_lt hRunning'.2 hBelow
            rw [lastOnly_append_of_unmarked
              (hTokens ▸ emitTokens_unmarked (by rw [← hTerminal, hEnd])), hLast]
            have hGoesOn : terminal' = false ∧
                ((n + roundTokens.length : ℕ) : ℤ) < x.maxTokens request :=
              ⟨hEnd, by rw [hLength]; exact_mod_cast hBelow⟩
            cases rounds with
            | nil =>
                rw [speculativeLoop, if_pos (by simpa using hGoesOn)] at hRest
                cases hRest
            | cons next rounds =>
                rw [lastSlice, ← hWhole, ← hLength]
                simp only [hGoesOn, and_self, true_and]

theorem endsOnce_prefill {token : ℤ} {rest : List StreamToken}
    (hContinues : Continues (x.maxTokens request) 1 rest)
    (hEnded : terminal = true → rest = []) :
    EndsOnce (x.maxTokens request) (x.prefillToken token terminal :: rest) ↔
      terminal = true ∨ LastOnly (fun t => t.finishReason ≠ none) rest := by
  have hIndices : (x.prefillToken token terminal :: rest).map (·.sequenceIndex) =
      List.range (x.prefillToken token terminal :: rest).length := by
    rw [List.map_cons, hContinues.indices, List.length_cons, List.range_eq_range',
      List.range'_succ]
    rfl
  have hBound : ((x.prefillToken token terminal :: rest).length : ℤ) ≤ x.maxTokens request := by
    have := hContinues.bounded
    rw [List.length_cons]
    push_cast at this ⊢
    omega
  have hMarked : LastOnly (fun t => t.finishReason ≠ none) (x.prefillToken token terminal :: rest) ↔
      terminal = true ∨ LastOnly (fun t => t.finishReason ≠ none) rest := by
    cases hTerminal : terminal with
    | true =>
        rw [hEnded hTerminal]
        refine iff_of_true ⟨[], _, rfl, by simp, ?_⟩ (Or.inl rfl)
        simp [prefillToken]
    | false =>
        rw [← List.singleton_append, lastOnly_append_of_unmarked (by simp [prefillToken])]
        simp
  exact ⟨fun h => hMarked.mp h.marked, fun h => ⟨hIndices, hBound, hMarked.mpr h⟩⟩

theorem runChainIterationSharded_spec {mode : DecodeMode} {answer : Answer} {token : ℤ}
    (h : x.runChainIterationSharded request mode answer = .ok (token, terminal)) :
    0 < x.maxTokens request ∧ terminal = endsAtOnce answer := by
  simp only [runChainIterationSharded, received, bind_eq_ok_iff, raise_eq_ok_iff] at h
  obtain ⟨⟨⟩, hSent, response, rfl, hToken⟩ := h
  refine ⟨maxTokens_pos hSent, ?_⟩
  split at hToken
  · exact (Prod.mk.inj (pure_eq_ok_iff.mp hToken)).2.symm
  · cases hToken

theorem sharded_endsOnce {prefill : Answer} {s : Streamed}
    (h : x.executeChainStreamingSharded request prefill answers = .ok s) :
    EndsOnce (x.maxTokens request) s.tokens ↔
      endsAtOnce prefill = true ∨ 2 ≤ x.maxTokens request := by
  simp only [executeChainStreamingSharded, bind_eq_ok_iff, pure_eq_ok_iff] at h
  obtain ⟨-, -, ⟨token, terminal⟩, hPrefill, rest, hRest, rfl⟩ := h
  obtain ⟨hCap, rfl⟩ := runChainIterationSharded_spec hPrefill
  obtain ⟨hContinues, hLast⟩ := incrementalLoop_spec hRest (by push_cast; omega)
  rw [show (result (x.prefillToken token (endsAtOnce prefill) :: rest) .incremental
      answers.length).tokens = x.prefillToken token (endsAtOnce prefill) :: rest from rfl,
    endsOnce_prefill hContinues (fun hEnd => incrementalLoop_ended hRest (by simp [hEnd])), hLast]
  cases endsAtOnce prefill with
  | true => simp
  | false =>
      simp only [Bool.false_eq_true, false_or, true_and]
      omega

theorem speculative_endsOnce {prefill : Answer} {s : Streamed}
    (h : x.executeChainStreamingShardedSpeculative request prefill rounds = .ok s) :
    EndsOnce (x.maxTokens request) s.tokens ↔
      (endsAtOnce prefill = true ∨ 2 ≤ x.maxTokens request) ∧
        LastOnce (lastSlice (x.maxTokens request) 1 rounds) := by
  simp only [executeChainStreamingShardedSpeculative, bind_eq_ok_iff, pure_eq_ok_iff] at h
  obtain ⟨-, -, -, -, ⟨token, terminal⟩, hPrefill, rest, hRest, rfl⟩ := h
  obtain ⟨hCap, rfl⟩ := runChainIterationSharded_spec hPrefill
  obtain ⟨hContinues, hLast⟩ := speculativeLoop_spec hRest (by push_cast; omega)
  rw [show (result (x.prefillToken token (endsAtOnce prefill) :: rest) .verify
      rounds.length).tokens = x.prefillToken token (endsAtOnce prefill) :: rest from rfl,
    endsOnce_prefill hContinues (fun hEnd => (speculativeLoop_ended hRest (by simp [hEnd])).1),
    hLast]
  cases hEnd : endsAtOnce prefill with
  | true =>
      obtain ⟨-, rfl⟩ := speculativeLoop_ended hRest (by simp [hEnd])
      simp [lastSlice, LastOnce]
  | false =>
      have hTwo : ((1 : ℕ) : ℤ) < x.maxTokens request ↔ 2 ≤ x.maxTokens request := by
        push_cast
        omega
      simp only [hTwo, true_and, Bool.false_eq_true, false_or]

end Runs

/-- A plain stream that reaches its result ends once when its first token is the chain's last or
the cap leaves room for a second; a speculative one when, besides, the last token of its last round
does not occur earlier in the round. -/
theorem streams_endOnce_iff (x : RpcChainExecutor) (request : SamplingRequest) :
    (∀ prefill answers s, x.executeChainStreamingSharded request prefill answers = .ok s →
      (EndsOnce (x.maxTokens request) s.tokens ↔
        endsAtOnce prefill = true ∨ 2 ≤ x.maxTokens request)) ∧
    (∀ prefill rounds s,
      x.executeChainStreamingShardedSpeculative request prefill rounds = .ok s →
        (EndsOnce (x.maxTokens request) s.tokens ↔
          (endsAtOnce prefill = true ∨ 2 ≤ x.maxTokens request) ∧
            LastOnce (lastSlice (x.maxTokens request) 1 rounds))) :=
  ⟨fun _ _ _ h => sharded_endsOnce h, fun _ _ _ h => speculative_endsOnce h⟩

/-! ## Sample streams -/

def sampleArgs (verified : Option (List ℤ)) (accepted : Option ℤ) : RunLayerSliceResponseArgs where
  requestId := "infer-1"
  activationBlob := [0]
  activationShape := [1]
  activationDtype := "float32"
  durationSeconds := .int 1
  teeAttestation := [0]
  teeType := .software
  epsilonSpent := .int 0
  stageSignatureB64 := "c2ln"
  stageNodeId := "tail"
  activationManifest := none
  nextTokenId := some 7
  isTerminal := false
  verifiedTokenIds := verified
  acceptedCount := accepted
  stageInputActivationHash := none
  stageOutputActivationHash := none
  stageActivationProofB64 := none
  stageSettlementSignatureB64 := none
  stageSettlementPubkeyB64 := none
  stageSettlementExecutedAtUnix := none
  protocolVersion := 2
  messageType := "run_layer_slice_response"

theorem sampleArgs_accepted {verified : Option (List ℤ)} {accepted : Option ℤ}
    (h : validVerified verified accepted = true) :
    (sampleArgs verified accepted).accepted = true := by
  simp [sampleArgs, RunLayerSliceResponseArgs.accepted, Number.negative, onePayload, h]

theorem validVerified_none : validVerified none none = true := rfl

def samplePass : RunLayerSliceResponse := ⟨_, sampleArgs_accepted validVerified_none⟩

theorem validVerified_repeated : validVerified (some [5, 5, 5]) (some 2) = true := rfl

def repeatedTail : RunLayerSliceResponse := ⟨_, sampleArgs_accepted validVerified_repeated⟩

theorem validVerified_distinct : validVerified (some [5, 6, 9]) (some 2) = true := rfl

def distinctTail : RunLayerSliceResponse := ⟨_, sampleArgs_accepted validVerified_distinct⟩

theorem sampleDefault_pos : (0 : ℤ) < 512 := by decide

def sampleExecutor : RpcChainExecutor :=
  ⟨fun _ => some [1], fun _ => "a", 512, true, none, 2, sampleDefault_pos⟩

def sampleRequest : SamplingRequest := ⟨"prompt", some 3, none⟩

def streamOf (mode : DecodeMode) (modes : ℕ) (tokens : List (ℤ × Option String)) : Streamed :=
  result (tokens.zipIdx.map fun t => ⟨t.2, "a", t.1.1, t.1.2⟩) mode modes

theorem plain_run :
    sampleExecutor.executeChainStreamingSharded sampleRequest (.ok samplePass)
        [.ok samplePass, .ok samplePass] =
      .ok (streamOf .incremental 2 [(7, none), (7, none), (7, some "max_tokens")]) := by
  decide +kernel

theorem speculative_run :
    sampleExecutor.executeChainStreamingShardedSpeculative sampleRequest (.ok samplePass)
        [⟨some [5, 6], none, .ok distinctTail⟩] =
      .ok (streamOf .verify 1 [(7, none), (5, none), (6, some "max_tokens")]) := by
  decide +kernel

theorem repeated_run :
    sampleExecutor.executeChainStreamingShardedSpeculative sampleRequest (.ok samplePass)
        [⟨some [5, 5], none, .ok repeatedTail⟩] =
      .ok (streamOf .verify 1 [(7, none), (5, some "max_tokens"), (5, some "max_tokens")]) := by
  decide +kernel

/-- A repeated token of the plain stream is no obstacle. -/
theorem streams_endOnce_sample :
    EndsOnce (sampleExecutor.maxTokens sampleRequest)
        (streamOf .incremental 2 [(7, none), (7, none), (7, some "max_tokens")]).tokens ∧
      EndsOnce (sampleExecutor.maxTokens sampleRequest)
        (streamOf .verify 1 [(7, none), (5, none), (6, some "max_tokens")]).tokens :=
  ⟨((streams_endOnce_iff sampleExecutor sampleRequest).1 _ _ _ plain_run).mpr
      (Or.inr (by decide)),
    ((streams_endOnce_iff sampleExecutor sampleRequest).2 _ _ _ speculative_run).mpr
      ⟨Or.inr (by decide), by decide +kernel⟩⟩

/-- The chain accepts the same token twice in the round that reaches the cap. -/
theorem repeated_marked_twice :
    ∃ s, sampleExecutor.executeChainStreamingShardedSpeculative sampleRequest (.ok samplePass)
        [⟨some [5, 5], none, .ok repeatedTail⟩] = .ok s ∧
      ¬ EndsOnce (sampleExecutor.maxTokens sampleRequest) s.tokens := by
  refine ⟨_, repeated_run, ?_⟩
  rw [speculative_endsOnce repeated_run]
  rintro ⟨-, hOnce⟩
  exact absurd hOnce (by decide +kernel)

end RpcChainExecutor

end Prsm.ChainRpc
