import Prsm.ChainRpc.TokenStreams
import Prsm.Foundations.Dict
import Prsm.Foundations.Machine

/-!
# The history of the draft model

`HFDraftModel` keeps, for each request, the tokens it has consumed, and asks its model to go on
from them.  The parent of a proposal is appended to the history unless the history ends with the
same token.  That is how a parent the last commit has brought is told from the first token of the
chain; so a first token that repeats the last one of the prompt is never taken in.
-/

namespace Prsm.ChainRpc

open Foundations
open RpcChainExecutor (useStochastic)

/-! ## `HFDraftModel` -/

inductive DraftError
  | malformedArgument
  | stateNotFound
  | tensorOverflow
  | generateFailed
  | indexError

/-- What `generate` returns: the first of the sequences, and for each step the softmax of its
scores, `none` outside the vocabulary. -/
structure GenerateOutput where
  sequences : List ℤ
  stepProbs : List (ℤ → Option Number)

structure HFDraftModel where
  eosTokenId : Option ℤ
  states : Dict String (List ℤ)

/-- A call of `propose_with_probs`: the draft after it, the history that the model was asked to
go on from, unless the call failed before, and the proposal. -/
structure Proposal where
  draft : HFDraftModel
  asked : Option (List ℤ)
  outcome : Except DraftError (List ℤ × List Number)

def zeroTemperature : PyFloat := ⟨"0.0", some 0, marked_zero, plain_zero⟩

def certain : PyFloat := ⟨"1.0", some 1, rfl, rfl⟩

/-- An entry of a tensor of `torch.long`. -/
def fitsLong (tok : ℤ) : Bool := -2 ^ 63 ≤ tok ∧ tok < 2 ^ 63

/-- The parent is appended unless the history ends with the same token. -/
def withParent (history : List ℤ) (parent : ℤ) : List ℤ :=
  if history.getLast? = some parent then history else history ++ [parent]

/-- The probability of each token at its step. -/
def sampledProbs : List ℤ → List (ℤ → Option Number) → Option (List Number)
  | [], _ => some []
  | _ :: _, [] => none
  | tok :: toks, step :: steps => do
      let prob ← step tok
      let probs ← sampledProbs toks steps
      return prob :: probs

/-- How many tokens there are up to the first end marker, that included. -/
def upToEos (eosTokenId : Option ℤ) (tokens : List ℤ) : ℕ :=
  match eosTokenId with
  | some eos => if eos ∈ tokens then tokens.idxOf eos + 1 else tokens.length
  | none => tokens.length

namespace HFDraftModel

variable (d : HFDraftModel)

def reset (requestId : String) (promptInputIds : List ℤ) : Except DraftError HFDraftModel := do
  require (requestId ≠ "") .malformedArgument
  require (promptInputIds ≠ []) .malformedArgument
  return { d with states := d.states.set requestId promptInputIds }

/-- What is made of the output of `generate`. -/
def proposalOf (fullHistory : List ℤ) (temperature : Number) (output : Option GenerateOutput) :
    Except DraftError (List ℤ × List Number) :=
  match output with
  | none => throw .generateFailed
  | some output =>
      let proposedFull := output.sequences.drop fullHistory.length
      let probs :=
        if RpcChainExecutor.aboveZero temperature then sampledProbs proposedFull output.stepProbs
        else some (List.replicate proposedFull.length (.float certain))
      match probs with
      | none => throw .indexError
      | some probs =>
          let kept := upToEos d.eosTokenId proposedFull
          return (proposedFull.take kept, probs.take kept)

def proposeWithProbs (requestId : String) (parentTokenId : ℤ) (k : ℕ) (temperature : Number)
    (output : Option GenerateOutput) : Proposal :=
  match d.states.get? requestId with
  | none => ⟨d, none, .error .stateNotFound⟩
  | some history =>
      if parentTokenId < 0 ∨ k = 0 ∨ temperature.negative = true then
        ⟨d, none, .error .malformedArgument⟩
      else
        let fullHistory := withParent history parentTokenId
        let d' := { d with states := d.states.set requestId fullHistory }
        if fullHistory.all fitsLong = true then
          ⟨d', some fullHistory, d.proposalOf fullHistory temperature output⟩
        else ⟨d', none, .error .tensorOverflow⟩

def commit (requestId : String) (acceptedTokenIds : List ℤ) : Except DraftError HFDraftModel :=
  match d.states.get? requestId with
  | none => throw .stateNotFound
  | some history => do
      require (acceptedTokenIds ≠ []) .malformedArgument
      return { d with states := d.states.set requestId (history ++ acceptedTokenIds) }

def evict (requestId : String) : HFDraftModel :=
  { d with states := d.states.erase requestId }

end HFDraftModel

/-- The speculative executor with such a draft model. -/
structure Speculator where
  executor : RpcChainExecutor
  speculationDepth : ℕ
  flatKMode : Bool
  depth_pos : 0 < speculationDepth

/-- `MAX_VERIFY_BATCH_TOKENS - 1`. -/
def kMax : ℕ := 64

/-- A call of `generate`, with what the conversation is at that moment. -/
structure GenerateCall where
  fullHistory : List ℤ
  promptIds : List ℤ
  emitted : List ℤ
  maxNewTokens : ℕ
  deriving DecidableEq

/-- The variables of a run. -/
structure Session where
  promptIds : List ℤ
  draft : HFDraftModel
  emitted : List ℤ
  nextTokenId : ℤ
  isTerminal : Bool
  k : ℕ
  acceptHistory : List (ℤ × ℕ)
  generateCalls : List GenerateCall

/-- A round: what the draft's model generates, `none` where it raises, and the chain's answer. -/
structure DraftRound where
  output : Option GenerateOutput
  answer : Answer

inductive Halt
  | stream (stop : Stop)
  | draft (e : DraftError)

/-- `deque(maxlen=4)`. -/
def lastFour {α : Type} (xs : List α) : List α := xs.drop (xs.length - 4)

/-- The depth of the next round: it follows the rate of acceptance over four rounds. -/
def adaptedK (acceptHistory : List (ℤ × ℕ)) (k : ℕ) : ℕ :=
  let totalAc := (acceptHistory.map Prod.fst).sum
  let totalK : ℤ := (acceptHistory.map fun round => (round.2 : ℤ)).sum
  if acceptHistory.length < 4 then k
  else if 4 * totalAc < totalK ∨ totalK = 0 then max 1 (k / 2)
  else if 4 * totalAc > 3 * totalK then min kMax (k * 2)
  else k

def acceptedCount : Answer → ℤ
  | .ok response => response.1.acceptedCount.getD 0
  | .error _ => 0

/-- `float(request_temp)` of a stochastic round, and zero otherwise. -/
def draftTemperature (request : SamplingRequest) : Number :=
  if useStochastic request then request.temperature.getD (.float zeroTemperature)
  else .float zeroTemperature

namespace Session

/-- What the loop asks its draft for. -/
def propose (request : SamplingRequest) (requestId : String) (s : Session) (round : DraftRound) :
    Proposal :=
  s.draft.proposeWithProbs requestId s.nextTokenId s.k (draftTemperature request) round.output

/-- The session once the draft has answered. -/
def asked (s : Session) (p : Proposal) : Session :=
  { s with
    draft := p.draft
    generateCalls := s.generateCalls ++
      (p.asked.map fun history => ⟨history, s.promptIds, s.emitted, s.k⟩).toList }

/-- An exception ends the loop. -/
def halted (s : Session) : Session := { s with isTerminal := true }

end Session

namespace Speculator

variable (x : Speculator) (request : SamplingRequest) (requestId : String)

/-- The session as the loop begins. -/
def opened (draft : HFDraftModel) (promptIds : List ℤ) (token : ℤ) (isTerminal : Bool) : Session :=
  ⟨promptIds, draft, [token], token, isTerminal, x.speculationDepth, [], []⟩

/-- All up to the loop. -/
def start (draft : HFDraftModel) (prefill : Answer) : Except Halt Session := do
  require (useStochastic request = true → x.executor.proposesWithProbs = true)
    (.stream (.chainExecutionError .promptEncodeError))
  let promptIds ← raise .stream (x.executor.initialInputIds request)
  let draft ← raise .draft (draft.reset requestId promptIds)
  let (token, isTerminal) ←
    raise .stream (x.executor.runChainIterationSharded request .prefill prefill)
  return x.opened draft promptIds token isTerminal

/-- The loop goes on. -/
def goesOn (s : Session) : Bool :=
  !s.isTerminal ∧ s.emitted.length < x.executor.maxTokens request

/-- The session once the round is emitted and committed. -/
def committed (s : Session) (draft : HFDraftModel) (emitted : List ℤ) (isTerminal : Bool)
    (kRound : ℕ) (answer : Answer) : Session :=
  let acceptHistory :=
    if useStochastic request = true ∧ x.flatKMode = false then
      lastFour (s.acceptHistory ++ [(acceptedCount answer, kRound)])
    else s.acceptHistory
  { s with
    draft := draft
    emitted := s.emitted ++ emitted
    nextTokenId := if isTerminal then s.nextTokenId else emitted.getLastD s.nextTokenId
    isTerminal := isTerminal
    k := if useStochastic request = true ∧ x.flatKMode = false then adaptedK acceptHistory s.k
      else s.k
    acceptHistory := acceptHistory }

/-- A round of the loop, which an exception ends. -/
def step (s : Session) (round : DraftRound) : Option Session :=
  if x.goesOn request s then
    let p := s.propose request requestId round
    let s := s.asked p
    some <|
      match p.outcome with
      | .error _ => s.halted
      | .ok (proposed, probs) =>
          match x.executor.verifyRound request s.emitted.length
              ⟨some proposed, some probs, round.answer⟩ with
          | .error _ => s.halted
          | .ok (tokens, isTerminal) =>
              let emitted := tokens.map (·.tokenId)
              match (if emitted = [] then .ok s.draft else s.draft.commit requestId emitted) with
              | .error _ => s.halted
              | .ok draft =>
                  x.committed request s draft emitted isTerminal proposed.length round.answer
  else none

def loop : Machine Session DraftRound := ⟨x.step request requestId⟩

/-- A run until its rounds are over, an exception ends it or its consumer drops it. -/
def speculate (draft : HFDraftModel) (prefill : Answer) (rounds : List DraftRound) :
    Except Halt Session := do
  let s ← x.start request requestId draft prefill
  let s := (x.loop request requestId).run s rounds
  return { s with draft := s.draft.evict requestId }

end Speculator

/-! ## What a proposal does to the history -/

section Histories

variable {d : HFDraftModel} {requestId : String} {history : List ℤ} {parent : ℤ} {k : ℕ}
  {temperature : Number} {output : Option GenerateOutput}

theorem withParent_eq_append_iff : withParent history parent = history ++ [parent] ↔
    history.getLast? ≠ some parent := by
  unfold withParent
  split
  case isTrue h => simp [h]
  case isFalse h => simp [h]

theorem withParent_append {emitted : List ℤ} (last : ℤ) (hNe : emitted ≠ []) :
    withParent (history ++ emitted) (emitted.getLastD last) = history ++ emitted := by
  have hLast : (history ++ emitted).getLast? = some (emitted.getLastD last) := by
    rw [List.getLast?_append, List.getLastD_eq_getLast?, List.getLast?_eq_getLast_of_ne_nil hNe]
    rfl
  rw [withParent, if_pos hLast]

theorem proposeWithProbs_asked (hState : d.states.get? requestId = some history)
    {fullHistory : List ℤ}
    (hAsked : (d.proposeWithProbs requestId parent k temperature output).asked =
      some fullHistory) :
    fullHistory = withParent history parent ∧ fullHistory.all fitsLong = true := by
  simp only [HFDraftModel.proposeWithProbs, hState] at hAsked
  split at hAsked
  · cases hAsked
  · split at hAsked
    case isTrue hFits =>
      obtain rfl := Option.some.inj hAsked
      exact ⟨rfl, hFits⟩
    case isFalse => cases hAsked

theorem proposeWithProbs_ok (hState : d.states.get? requestId = some history)
    {proposal : List ℤ × List Number}
    (hOk : (d.proposeWithProbs requestId parent k temperature output).outcome = .ok proposal) :
    (d.proposeWithProbs requestId parent k temperature output).draft.states.get? requestId =
        some (withParent history parent) ∧
      (d.proposeWithProbs requestId parent k temperature output).asked =
        some (withParent history parent) := by
  simp only [HFDraftModel.proposeWithProbs, hState] at hOk ⊢
  split at hOk
  · cases hOk
  · rename_i hValid
    rw [if_neg hValid]
    split at hOk
    case isTrue hFits =>
      rw [if_pos hFits]
      exact ⟨by simp, rfl⟩
    case isFalse => cases hOk

theorem proposeWithProbs_reaches (hState : d.states.get? requestId = some history)
    (hParent : 0 ≤ parent) (hDepth : 0 < k) (hTemperature : temperature.negative = false)
    (hFits : (withParent history parent).all fitsLong = true) :
    (d.proposeWithProbs requestId parent k temperature output).asked =
      some (withParent history parent) := by
  have hValid : ¬ (parent < 0 ∨ k = 0 ∨ temperature.negative = true) := by
    rw [hTemperature]
    rintro (hNeg | rfl | hNeg)
    · omega
    · omega
    · cases hNeg
  simp only [HFDraftModel.proposeWithProbs, hState, if_neg hValid, if_pos hFits]

theorem commit_ok {d' : HFDraftModel} {emitted : List ℤ}
    (hState : d.states.get? requestId = some history)
    (hOk : d.commit requestId emitted = .ok d') :
    d'.states.get? requestId = some (history ++ emitted) := by
  simp only [HFDraftModel.commit, hState, bind_eq_ok_iff, pure_eq_ok_iff] at hOk
  obtain ⟨-, -, rfl⟩ := hOk
  simp

theorem get?_reset (d : HFDraftModel) (requestId : String) (promptIds : List ℤ) :
    ({ d with states := d.states.set requestId promptIds } : HFDraftModel).states.get? requestId =
      some promptIds :=
  Dict.get?_set_self _ _ _

theorem draftTemperature_not_negative (request : SamplingRequest) :
    (draftTemperature request).negative = false := by
  unfold draftTemperature
  split
  case isTrue h =>
    cases hTemp : request.temperature with
    | none => rfl
    | some t =>
        rw [useStochastic, hTemp, Option.any_some] at h
        cases t with
        | int n =>
            simp only [RpcChainExecutor.aboveZero, decide_eq_true_eq] at h
            simp only [Option.getD_some, Number.negative, decide_eq_false_iff_not]
            omega
        | float t =>
            simp only [RpcChainExecutor.aboveZero] at h
            simp only [Option.getD_some, Number.negative]
            split at h
            case h_1 q hValue =>
              simp only [decide_eq_true_eq] at h
              simp only [hValue, decide_eq_false_iff_not, not_lt]
              exact h.le
            case h_2 hValue =>
              simp only [decide_eq_true_eq] at h
              simp [hValue, h]
  case isFalse => rfl

end Histories

section Runs

variable {x : Speculator} {request : SamplingRequest} {requestId : String} {promptIds : List ℤ}
  {first : ℤ}

/-- What a call of `generate` is given, once the first token of the chain is `first`. -/
def GoesOnFrom (promptIds : List ℤ) (first : ℤ) (call : GenerateCall) : Prop :=
  call.promptIds = promptIds ∧ ∃ later, call.emitted = first :: later ∧
    call.fullHistory = withParent promptIds first ++ later

/-- The session between two rounds: with its parent, the history is the prompt with the first
token, if that is taken in, and all later ones. -/
structure Follows (requestId : String) (promptIds : List ℤ) (first : ℤ) (s : Session) : Prop where
  prompt : s.promptIds = promptIds
  calls : ∀ call ∈ s.generateCalls, GoesOnFrom promptIds first call
  history : s.isTerminal = false → ∃ later history, s.emitted = first :: later ∧
    s.draft.states.get? requestId = some history ∧
    withParent history s.nextTokenId = withParent promptIds first ++ later

theorem tokenIds_emitTokens (finish : ℤ → Option String) (n : ℕ) (tokens : List ℤ) :
    (x.executor.emitTokens finish n tokens).map (·.tokenId) = tokens := by
  induction tokens generalizing n with
  | nil => rfl
  | cons t ts ih => simp [RpcChainExecutor.emitTokens, ih]

theorem verifyRound_ne_nil {n : ℕ} {round : Round} {tokens : List StreamToken} {terminal : Bool}
    (hRoom : n < x.executor.maxTokens request)
    (h : x.executor.verifyRound request n round = .ok (tokens, terminal)) :
    tokens.map (·.tokenId) ≠ [] := by
  obtain ⟨hNe, emitted, chainTerminal, rfl, rfl, -⟩ := RpcChainExecutor.verifyRound_spec h
  rw [tokenIds_emitTokens]
  exact RpcChainExecutor.truncated_ne_nil hRoom hNe

variable {s : Session} {round : DraftRound}

theorem Follows.asked (h : Follows requestId promptIds first s)
    (request : SamplingRequest) {later history} (hEmitted : s.emitted = first :: later)
    (hState : s.draft.states.get? requestId = some history)
    (hNext : withParent history s.nextTokenId = withParent promptIds first ++ later)
    (round : DraftRound) :
    ∀ call ∈ (s.asked (s.propose request requestId round)).generateCalls,
      GoesOnFrom promptIds first call := by
  intro call hCall
  rcases List.mem_append.mp hCall with hOld | hNew
  · exact h.calls call hOld
  · rw [Option.mem_toList, Option.map_eq_some_iff] at hNew
    obtain ⟨fullHistory, hAsked, rfl⟩ := hNew
    obtain ⟨rfl, -⟩ := proposeWithProbs_asked hState hAsked
    exact ⟨h.prompt, later, hEmitted, hNext⟩

theorem Follows.step {s' : Session}
    (h : Follows requestId promptIds first s)
    (hStep : (x.loop request requestId).step s round = some s') :
    Follows requestId promptIds first s' := by
  simp only [Speculator.loop, Speculator.step] at hStep
  split at hStep
  case isFalse => cases hStep
  case isTrue hGoesOn =>
    simp only [Speculator.goesOn, Bool.decide_and, Bool.and_eq_true, Bool.not_eq_true',
      decide_eq_true_eq] at hGoesOn
    obtain ⟨hAlive, hRoom⟩ := hGoesOn
    obtain ⟨later, history, hEmitted, hState, hNext⟩ := h.history hAlive
    have hCalls := h.asked request hEmitted hState hNext round
    have hHalted :
        Follows requestId promptIds first (s.asked (s.propose request requestId round)).halted :=
      ⟨h.prompt, hCalls, fun hAlive => absurd hAlive Bool.true_eq_false_eq_False⟩
    obtain rfl := Option.some.inj hStep
    split
    case h_1 => exact hHalted
    case h_2 proposed probs hOutcome =>
      obtain ⟨hAfter, -⟩ := proposeWithProbs_ok hState hOutcome
      split
      case h_1 => exact hHalted
      case h_2 tokens isTerminal hVerify =>
        have hNe := verifyRound_ne_nil hRoom hVerify
        simp only [if_neg hNe]
        split
        case h_1 => exact hHalted
        case h_2 draft hCommit =>
          refine ⟨h.prompt, hCalls, fun hAlive => ?_⟩
          have hCommitted := commit_ok hAfter hCommit
          refine ⟨later ++ tokens.map (·.tokenId), _, ?_, hCommitted, ?_⟩
          · simp only [Speculator.committed, Session.asked, hEmitted, List.cons_append]
          · simp only [Speculator.committed] at hAlive ⊢
            rw [if_neg (by simp [hAlive]), withParent_append _ hNe, hNext, List.append_assoc]

theorem generateCalls_step {s' : Session}
    (hStep : (x.loop request requestId).step s round = some s') :
    s'.generateCalls = (s.asked (s.propose request requestId round)).generateCalls := by
  simp only [Speculator.loop, Speculator.step] at hStep
  split at hStep
  case isFalse => cases hStep
  case isTrue =>
    obtain rfl := Option.some.inj hStep
    split
    · rfl
    · split
      · rfl
      · split <;> rfl

theorem generateCalls_run (s : Session) (rounds : List DraftRound) :
    s.generateCalls <+: ((x.loop request requestId).run s rounds).generateCalls := by
  refine ((x.loop request requestId).run_related (fun _ => True) (fun _ _ => True)
    (fun s s' => s.generateCalls <+: s'.generateCalls) (fun s => List.prefix_refl _)
    (fun _ _ _ => List.IsPrefix.trans) ?_ trivial fun _ _ _ _ => trivial).2
  intro s round s' _ _ hStep
  rw [generateCalls_step hStep]
  exact ⟨trivial, List.prefix_append _ _⟩

theorem run_of_over (hOver : x.goesOn request s = false) (rounds : List DraftRound) :
    (x.loop request requestId).run s rounds = s := by
  induction rounds with
  | nil => rfl
  | cons round rounds ih =>
      have hRefused : (x.loop request requestId).step s round = none := by
        simp [Speculator.loop, Speculator.step, hOver]
      rw [Machine.run_cons, Machine.exec_of_refused _ hRefused, ih]

theorem run_of_not_asked (rounds : List DraftRound)
    (hState : ∃ history, s.draft.states.get? requestId = some history)
    (hAsked : (s.propose request requestId round).asked = none) :
    ((x.loop request requestId).run s (round :: rounds)).generateCalls = s.generateCalls := by
  cases hGoesOn : x.goesOn request s with
  | false => rw [run_of_over hGoesOn]
  | true =>
      obtain ⟨history, hState⟩ := hState
      have hStep : (x.loop request requestId).step s round =
          some (s.asked (s.propose request requestId round)).halted := by
        simp only [Speculator.loop, Speculator.step, hGoesOn, if_true]
        split
        case h_1 => rfl
        case h_2 proposed probs hOutcome =>
          rw [Session.propose, (proposeWithProbs_ok hState hOutcome).2] at hAsked
          cases hAsked
      rw [Machine.run_cons, Machine.exec_of_step _ hStep, run_of_over]
      · simp [Session.halted, Session.asked, hAsked]
      · simp [Speculator.goesOn, Session.halted]

theorem prefill_nonneg {prefill : Answer} {isTerminal : Bool}
    (h : x.executor.runChainIterationSharded request .prefill prefill = .ok (first, isTerminal)) :
    0 ≤ first := by
  simp only [RpcChainExecutor.runChainIterationSharded, RpcChainExecutor.received, bind_eq_ok_iff,
    raise_eq_ok_iff] at h
  obtain ⟨-, -, response, -, hToken⟩ := h
  have hValid := response.2
  simp only [RunLayerSliceResponseArgs.accepted, decide_eq_true_eq] at hValid
  split at hToken
  case h_1 token hNext =>
    obtain ⟨rfl, -⟩ := Prod.mk.inj (pure_eq_ok_iff.mp hToken)
    simpa [hNext] using hValid.2.2.2.2.2.2.2.1
  case h_2 => cases hToken

theorem start_eq_ok_iff {draft : HFDraftModel} {prefill : Answer} :
    x.start request requestId draft prefill = .ok s ↔
      (useStochastic request = true → x.executor.proposesWithProbs = true) ∧ requestId ≠ "" ∧
        ∃ promptIds first isTerminal, x.executor.initialInputIds request = .ok promptIds ∧
          promptIds ≠ [] ∧
          x.executor.runChainIterationSharded request .prefill prefill = .ok (first, isTerminal) ∧
          s = x.opened { draft with states := draft.states.set requestId promptIds } promptIds first
            isTerminal := by
  simp only [Speculator.start, HFDraftModel.reset, bind_eq_ok_iff, raise_eq_ok_iff, pure_eq_ok_iff,
    require_eq_ok_iff]
  constructor
  · rintro ⟨-, hCapable, promptIds, hPrompt, _, ⟨-, hId, -, hNe, rfl⟩, ⟨first, isTerminal⟩,
      hPrefill, rfl⟩
    exact ⟨hCapable, hId, promptIds, first, isTerminal, hPrompt, hNe, hPrefill, rfl⟩
  · rintro ⟨hCapable, hId, promptIds, first, isTerminal, hPrompt, hNe, hPrefill, rfl⟩
    exact ⟨(), hCapable, promptIds, hPrompt, _, ⟨(), hId, (), hNe, rfl⟩, (first, isTerminal),
      hPrefill, rfl⟩

end Runs

/-! ## When the history is the conversation -/

/-- A first round begins, over a prompt whose last id is the first token of the chain. -/
structure RepeatsPrompt (x : Speculator) (request : SamplingRequest) (requestId : String)
    (prefill : Answer) (rounds : List DraftRound) (promptIds : List ℤ) (first : ℤ) : Prop where
  capable : useStochastic request = true → x.executor.proposesWithProbs = true
  id : requestId ≠ ""
  prompt : x.executor.initialInputIds request = .ok promptIds
  fits : promptIds.all fitsLong = true
  prefill : x.executor.runChainIterationSharded request .prefill prefill = .ok (first, false)
  repeated : promptIds.getLast? = some first
  room : 1 < x.executor.maxTokens request
  round : rounds ≠ []

section Mirror

variable {x : Speculator} {request : SamplingRequest} {requestId : String} {promptIds : List ℤ}
  {first : ℤ} {rounds : List DraftRound} {draft : HFDraftModel} {isTerminal : Bool}

theorem run_goesOnFrom (hState : draft.states.get? requestId = some promptIds)
    (rounds : List DraftRound) :
    ∀ call ∈ ((x.loop request requestId).run (x.opened draft promptIds first isTerminal)
      rounds).generateCalls, GoesOnFrom promptIds first call := by
  have hFollows : Follows requestId promptIds first (x.opened draft promptIds first isTerminal) :=
    ⟨rfl, by simp [Speculator.opened], fun _ => ⟨[], promptIds, rfl, hState, by
      simp [Speculator.opened]⟩⟩
  exact ((x.loop request requestId).run_invariant (Follows requestId promptIds first)
    (fun _ _ _ h hStep => h.step hStep) hFollows rounds).calls

theorem GoesOnFrom.mirrors_iff {call : GenerateCall} (h : GoesOnFrom promptIds first call) :
    call.fullHistory = call.promptIds ++ call.emitted ↔ promptIds.getLast? ≠ some first := by
  obtain ⟨rfl, later, hEmitted, hHistory⟩ := h
  rw [hEmitted, hHistory, ← withParent_eq_append_iff, List.append_cons,
    List.append_left_inj]

theorem exists_call (hState : draft.states.get? requestId = some promptIds) (hFirst : 0 ≤ first)
    (hFits : (withParent promptIds first).all fitsLong = true)
    (hRoom : 1 < x.executor.maxTokens request) (hRounds : rounds ≠ []) :
    ∃ call, call ∈ ((x.loop request requestId).run (x.opened draft promptIds first false)
      rounds).generateCalls := by
  obtain ⟨round, rest, rfl⟩ := List.exists_cons_of_ne_nil hRounds
  have hGoesOn : x.goesOn request (x.opened draft promptIds first false) = true := by
    simpa [Speculator.goesOn, Speculator.opened] using hRoom
  obtain ⟨s, hStep⟩ : ∃ s, (x.loop request requestId).step (x.opened draft promptIds first false)
      round = some s := by
    simp only [Speculator.loop, Speculator.step, hGoesOn, if_true]
    exact ⟨_, rfl⟩
  have hAsked : ((x.opened draft promptIds first false).propose request requestId round).asked =
      some (withParent promptIds first) :=
    proposeWithProbs_reaches hState hFirst x.depth_pos (draftTemperature_not_negative request) hFits
  refine ⟨⟨withParent promptIds first, promptIds, [first], x.speculationDepth⟩, ?_⟩
  rw [Machine.run_cons, Machine.exec_of_step _ hStep]
  refine (generateCalls_run s rest).subset ?_
  rw [generateCalls_step hStep, Session.asked, hAsked]
  simp [Speculator.opened]

theorem of_exists_call (hState : draft.states.get? requestId = some promptIds)
    {call : GenerateCall}
    (hCall : call ∈ ((x.loop request requestId).run (x.opened draft promptIds first isTerminal)
      rounds).generateCalls) :
    isTerminal = false ∧ 1 < x.executor.maxTokens request ∧ rounds ≠ [] ∧
      (withParent promptIds first).all fitsLong = true := by
  have hOpened : (x.opened draft promptIds first isTerminal).generateCalls = [] := rfl
  cases rounds with
  | nil =>
      rw [Machine.run_nil, hOpened] at hCall
      cases hCall
  | cons round rest =>
      cases hGoesOn : x.goesOn request (x.opened draft promptIds first isTerminal) with
      | false =>
          rw [run_of_over hGoesOn, hOpened] at hCall
          cases hCall
      | true =>
          cases hAsked : ((x.opened draft promptIds first isTerminal).propose request requestId
              round).asked with
          | none =>
              rw [run_of_not_asked rest ⟨promptIds, hState⟩ hAsked, hOpened] at hCall
              cases hCall
          | some fullHistory =>
              obtain ⟨rfl, hFits⟩ := proposeWithProbs_asked hState hAsked
              have hRoom : isTerminal = false ∧ 1 < x.executor.maxTokens request := by
                simpa [Speculator.goesOn, Speculator.opened] using hGoesOn
              exact ⟨hRoom.1, hRoom.2, List.cons_ne_nil _ _, hFits⟩

end Mirror

/-- In every run, each history that the draft's model is asked to go on from is the prompt with
all tokens emitted so far, unless the first token of the chain is the last id of the prompt and a
round follows. -/
theorem history_mirrors_iff (x : Speculator) (request : SamplingRequest) (requestId : String)
    (draft : HFDraftModel) (prefill : Answer) (rounds : List DraftRound) :
    (∀ s, x.speculate request requestId draft prefill rounds = .ok s →
      ∀ call ∈ s.generateCalls, call.fullHistory = call.promptIds ++ call.emitted) ↔
    ∀ promptIds first, ¬ RepeatsPrompt x request requestId prefill rounds promptIds first := by
  simp only [Speculator.speculate, bind_eq_ok_iff, pure_eq_ok_iff, start_eq_ok_iff]
  constructor
  · intro hMirrors promptIds first h
    have hNe : promptIds ≠ [] := by
      rintro rfl
      cases h.repeated
    have hTaken : withParent promptIds first = promptIds := if_pos h.repeated
    have hState := get?_reset draft requestId promptIds
    obtain ⟨call, hCall⟩ := exists_call hState (prefill_nonneg h.prefill)
      (by rw [hTaken]; exact h.fits) h.room h.round
    have hMirror := hMirrors _ ⟨_, ⟨h.capable, h.id, promptIds, first, false, h.prompt, hNe,
      h.prefill, rfl⟩, rfl⟩ call hCall
    exact (run_goesOnFrom hState rounds call hCall).mirrors_iff.mp hMirror h.repeated
  · rintro hFresh _ ⟨_, ⟨hCapable, hId, promptIds, first, isTerminal, hPrompt, hNe, hPrefill, rfl⟩,
      rfl⟩ call hCall
    have hState := get?_reset draft requestId promptIds
    refine (run_goesOnFrom hState rounds call hCall).mirrors_iff.mpr fun hRepeated => ?_
    obtain ⟨rfl, hRoom, hRounds, hFits⟩ := of_exists_call hState hCall
    rw [withParent, if_pos hRepeated] at hFits
    exact hFresh promptIds first
      ⟨hCapable, hId, hPrompt, hFits, hPrefill, hRepeated, hRoom, hRounds⟩

/-! ## A prompt that ends with the first token -/

def repeatedPrompt : Speculator where
  executor := ⟨fun _ => some [1, 7], fun _ => "a", 512, true, none, 2,
    RpcChainExecutor.sampleDefault_pos⟩
  speculationDepth := 4
  flatKMode := false
  depth_pos := Nat.succ_pos 3

def repeatedRun : Except Halt Session :=
  repeatedPrompt.speculate RpcChainExecutor.sampleRequest "infer-1" ⟨none, ∅⟩
    (.ok RpcChainExecutor.samplePass)
    [⟨some ⟨[1, 7, 5, 6], []⟩, .ok RpcChainExecutor.distinctTail⟩]

/-- The model goes on from the prompt alone, though a token is emitted already. -/
theorem repeatedRun_not_mirrored :
    ¬ ∀ s, repeatedRun = .ok s →
      ∀ call ∈ s.generateCalls, call.fullHistory = call.promptIds ++ call.emitted := by
  intro hMirrors
  have hMirror := hMirrors _ rfl ⟨[1, 7], [1, 7], [7], 4⟩ (by decide +kernel)
  exact absurd hMirror (by decide)

end Prsm.ChainRpc
