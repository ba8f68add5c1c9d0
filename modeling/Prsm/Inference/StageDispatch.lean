import Prsm.ChainRpc.Messages
import Prsm.Foundations.LruCache

/-!
# Dispatches of a sharded stage

`ShardedAutoregressiveRunner.run_layer_slice_unary` runs one pass through the layers of a stage.
The handle of the request is allocated, or its payload replaced, as soon as the model has
answered, and the next token is sampled after that.  Nothing takes the changes back: a stage whose
dispatch has failed late is cleaned by the executor, which evicts the request on every stage.
-/

namespace Prsm.Inference

open Foundations
open ChainRpc (DecodeMode maxVerifyBatchTokens)
open Evm (Bytes)

/-! ## `KVCacheManager` -/

/-- A handle; the payload is whatever the model has returned. -/
structure KVCacheHandle (P : Type) where
  nLayers : ℕ
  lastTouchTime : ℚ
  payload : Option P
  tokensGenerated : ℕ
  cachedPositions : ℕ

structure KVCacheManager (P : Type) where
  maxCachedRequests : ℕ
  handles : Dict String (KVCacheHandle P)
  max_pos : 0 < maxCachedRequests

/-- What a dispatch raises. -/
inductive DispatchError
  | badArgument
  | missingTailCapability
  | cacheAlreadyAllocated
  | malformedCacheState
  | missingVerifyCapability
  | malformedInput
  | modelRaised
  | malformedSample
  deriving DecidableEq

namespace KVCacheManager

variable {P : Type} (c : KVCacheManager P)

/-- `allocate`, which makes room by dropping the handles used least lately. -/
def allocate (requestId : String) (nLayers : ℕ) (now : ℚ) :
    Except DispatchError (KVCacheManager P) := do
  require (requestId ≠ "" ∧ 0 < nLayers) .badArgument
  require (c.handles.get? requestId = none) .cacheAlreadyAllocated
  return { c with
    handles := (c.handles.keepLast (c.maxCachedRequests - 1)).set requestId
      ⟨nLayers, now, none, 0, 0⟩ }

/-- `get`, which makes the handle the one used last. -/
def get (requestId : String) (now : ℚ) : KVCacheManager P × Option (KVCacheHandle P) :=
  match c.handles.get? requestId with
  | none => (c, none)
  | some handle =>
      let handle := { handle with lastTouchTime := now }
      ({ c with handles := (c.handles.moveToEnd requestId).set requestId handle }, some handle)

/-- An assignment to fields of a handle. -/
def modify (requestId : String) (f : KVCacheHandle P → KVCacheHandle P) : KVCacheManager P :=
  match c.handles.get? requestId with
  | none => c
  | some handle => { c with handles := c.handles.set requestId (f handle) }

/-- The payload and the counters of a handle. -/
def contents (requestId : String) : Option (Option P × ℕ × ℕ) :=
  (c.handles.get? requestId).map fun handle =>
    (handle.payload, handle.cachedPositions, handle.tokensGenerated)

/-- The same handles, with the same payloads and counters. -/
def SameContents (c c' : KVCacheManager P) : Prop := ∀ id, c'.contents id = c.contents id

end KVCacheManager

/-! ## The model and the runner -/

/-- What a stage is given: token ids, or an array with its shape. -/
inductive StageInput
  | ids (tokens : List ℤ)
  | array (shape : List ℕ) (data : Bytes)

structure SamplingParams where
  temperature : PyFloat
  topK : ℤ
  topP : PyFloat

structure SamplingDefaults where
  maxTokens : ℤ
  params : SamplingParams

/-- The fields of the request that a tail reads. -/
structure StageRequest where
  maxTokens : Option ℤ
  temperature : Option PyFloat

/-- What a batched sampler does: it raises, returns what is not a list of ids, or ids. -/
inductive Sampled (α : Type)
  | raised
  | malformed
  | returned (value : α)

/-- The methods of the model, an optional one `none` where it is missing.  A forward pass is
`none` where it raises; it does not change the payload then. -/
structure ShardedLayerForward (P H : Type) where
  forwardPrefill : StageInput → ℕ × ℕ → Option (H × Option P)
  forwardIncremental : StageInput → ℕ × ℕ → Option P → Option (H × Option P)
  forwardVerify : Option (StageInput → ℕ × ℕ → Option P → Option (H × Option P))
  applyLmHeadAndSample : Option (H → SamplingParams → Option ℤ)
  applyLmHeadAndSampleBatch : Option (H → SamplingParams → Sampled (List ℤ))
  applyLmHeadAndSampleBatchWithRejection :
    Option (H → List ℤ → List PyFloat → SamplingParams → Sampled (List ℤ × ℤ))

structure ShardedAutoregressiveRunner (P H : Type) where
  model : ShardedLayerForward P H
  layerRange : ℕ × ℕ
  samplingDefaults : Option SamplingDefaults
  eosTokenId : Option ℤ
  constantKCommitment : Bool
  range_lt : layerRange.1 < layerRange.2
  tail_samples : samplingDefaults.isSome = true → model.applyLmHeadAndSample.isSome = true

/-- The arguments of `run_layer_slice_unary`, with the clock. -/
structure DispatchCall where
  activationOrInputIds : StageInput
  requestId : String
  decodeMode : DecodeMode
  isFinalStage : Bool
  request : Option StageRequest
  proposedTokenIds : Option (List ℤ)
  proposedTokenProbs : Option (List PyFloat)
  now : ℚ

structure LayerSliceResult (H : Type) where
  hiddenState : H
  nLayersRun : ℕ
  nextTokenId : Option ℤ
  isTerminal : Bool
  verifiedTokenIds : Option (List ℤ)
  acceptedCount : Option ℤ

/-- The second axis from the end, or the only one. -/
def inputNPositions : StageInput → Option ℕ
  | .ids tokens => some tokens.length
  | .array [n] _ => some n
  | .array shape _ => shape.reverse[1]?

def verifyInputNPositions : StageInput → Option ℕ
  | .ids tokens => some tokens.length
  | .array shape _ => shape.reverse[1]?

/-- `float(temperature) > 0.0`. -/
def stochastic (temperature : PyFloat) : Bool :=
  match temperature.value with
  | some q => 0 < q
  | none => temperature.text = "inf"

def zeroTemperature : PyFloat := ⟨"0.0", some 0, marked_zero, plain_zero⟩

/-- What a tail has sampled. -/
structure TailSample where
  emitted : List ℤ
  verifiedTokenIds : Option (List ℤ)
  acceptedCount : Option ℤ
  maxTokens : ℤ

/-- The longest prefix on which two lists agree. -/
def matchingPrefix : List ℤ → List ℤ → ℕ
  | v :: vs, p :: ps => if v = p then matchingPrefix vs ps + 1 else 0
  | _, _ => 0

namespace ShardedAutoregressiveRunner

variable {P H : Type} (r : ShardedAutoregressiveRunner P H)

def nLayers : ℕ := r.layerRange.2 - r.layerRange.1

/-- The checks before the cache is touched. -/
def check (call : DispatchCall) : Except DispatchError Unit := do
  require (call.requestId ≠ "") .badArgument
  require (call.isFinalStage = true → r.samplingDefaults.isSome = true) .missingTailCapability
  require (call.proposedTokenIds = none ∨ call.decodeMode = .verify) .badArgument
  require (call.proposedTokenProbs.all fun probs =>
    call.proposedTokenIds.any fun ids => probs.length = ids.length) .badArgument

/-- What a pass through the layers leaves, with the hidden state or the error. -/
abbrev Passed (P H : Type) := KVCacheManager P × Except DispatchError H

/-- The model has answered with a payload. -/
def stored (c : KVCacheManager P) (requestId : String) (payload : Option P) : KVCacheManager P :=
  c.modify requestId fun handle => { handle with payload := payload }

/-- `handle.cached_positions += n`. -/
def counted (c : KVCacheManager P) (requestId : String) (n : ℕ) : KVCacheManager P :=
  c.modify requestId fun handle => { handle with cachedPositions := handle.cachedPositions + n }

def prefill (c : KVCacheManager P) (call : DispatchCall) : Passed P H :=
  match c.allocate call.requestId r.nLayers call.now with
  | .error e => (c, .error e)
  | .ok c =>
      match r.model.forwardPrefill call.activationOrInputIds r.layerRange with
      | none => (c, .error .modelRaised)
      | some (hidden, payload) =>
          let c := stored c call.requestId payload
          match inputNPositions call.activationOrInputIds with
          | none => (c, .error .malformedInput)
          | some n => (counted c call.requestId n, .ok hidden)

def incremental (c : KVCacheManager P) (call : DispatchCall) : Passed P H :=
  match c.get call.requestId call.now with
  | (c, none) => (c, .error .malformedCacheState)
  | (c, some handle) =>
      match r.model.forwardIncremental call.activationOrInputIds r.layerRange handle.payload with
      | none => (c, .error .modelRaised)
      | some (hidden, payload) =>
          (counted (stored c call.requestId payload) call.requestId 1, .ok hidden)

def verify (c : KVCacheManager P) (call : DispatchCall) : Passed P H :=
  match c.get call.requestId call.now with
  | (c, none) => (c, .error .malformedCacheState)
  | (c, some handle) =>
      match r.model.forwardVerify with
      | none => (c, .error .missingVerifyCapability)
      | some forwardVerify =>
          match verifyInputNPositions call.activationOrInputIds with
          | none => (c, .error .malformedInput)
          | some n =>
              if n < 2 ∨ maxVerifyBatchTokens < n then (c, .error .malformedInput)
              else
                match forwardVerify call.activationOrInputIds r.layerRange handle.payload with
                | none => (c, .error .modelRaised)
                | some (hidden, payload) =>
                    (counted (stored c call.requestId payload) call.requestId n, .ok hidden)

def pass (c : KVCacheManager P) (call : DispatchCall) : Passed P H :=
  match call.decodeMode with
  | .prefill => r.prefill c call
  | .incremental => r.incremental c call
  | .verify => r.verify c call

/-! ## The tail -/

/-- The parameters of the request, or those of the runner. -/
def resolved (defaults : SamplingDefaults) (request : Option StageRequest) : SamplingDefaults where
  maxTokens := (request.bind (·.maxTokens)).getD defaults.maxTokens
  params := { defaults.params with
    temperature := (request.bind (·.temperature)).getD defaults.params.temperature }

def sampleTail (defaults : SamplingDefaults) (hidden : H) (call : DispatchCall) :
    Except DispatchError TailSample :=
  let params := resolved defaults call.request
  match r.model.applyLmHeadAndSample with
  | none => throw .missingTailCapability
  | some sample =>
      match sample hidden params.params with
      | none => throw .modelRaised
      | some token => return ⟨[token], none, none, params.maxTokens⟩

/-- The ids that a batched sampler returns. -/
def sampledIds (sampled : Sampled (List ℤ)) : Except DispatchError (List ℤ) :=
  match sampled with
  | .raised => throw .modelRaised
  | .malformed => throw .malformedSample
  | .returned ids => return ids

def sampleBatch (hidden : H) (params : SamplingParams) : Except DispatchError (List ℤ) :=
  match r.model.applyLmHeadAndSampleBatch with
  | none => throw .missingVerifyCapability
  | some sample => sampledIds (sample hidden params)

def sampleTailVerifyGreedy (hidden : H) (proposed : List ℤ) (params : SamplingParams) :
    Except DispatchError (List ℤ × ℤ) := do
  let verified ← r.sampleBatch hidden params
  require (verified.length = proposed.length + 1) .malformedSample
  return (verified, matchingPrefix verified proposed)

/-- The padding of a constant-K commitment. -/
def padded (hidden : H) (proposed : List ℤ) (params : SamplingParams) (verified : List ℤ)
    (accepted : ℤ) : Except DispatchError (List ℤ × ℤ) :=
  if r.constantKCommitment = true ∧ accepted < proposed.length then do
    let argmaxes ← r.sampleBatch hidden { params with temperature := zeroTemperature }
    require (argmaxes.length = proposed.length + 1) .malformedSample
    return (verified ++ argmaxes.drop (accepted + 1).toNat, proposed.length)
  else return (verified, accepted)

def sampleTailVerifyStochastic (hidden : H) (proposed : List ℤ) (probs : List PyFloat)
    (params : SamplingParams) : Except DispatchError (List ℤ × ℤ) :=
  match r.model.applyLmHeadAndSampleBatchWithRejection with
  | none => throw .missingVerifyCapability
  | some sample =>
      match sample hidden proposed probs params with
      | .raised => throw .modelRaised
      | .malformed => throw .malformedSample
      | .returned (verified, accepted) => do
          require (0 ≤ accepted ∧ accepted ≤ proposed.length ∧
            (verified.length : ℤ) = accepted + 1) .malformedSample
          r.padded hidden proposed params verified accepted

def sampleTailVerify (defaults : SamplingDefaults) (hidden : H) (call : DispatchCall) :
    Except DispatchError TailSample :=
  match call.proposedTokenIds with
  | none => throw .badArgument
  | some proposed => do
      let params := resolved defaults call.request
      let (verified, accepted) ←
        match call.proposedTokenProbs with
        | some probs =>
            if stochastic params.params.temperature then
              r.sampleTailVerifyStochastic hidden proposed probs params.params
            else r.sampleTailVerifyGreedy hidden proposed params.params
        | none => r.sampleTailVerifyGreedy hidden proposed params.params
      return ⟨verified.take (accepted + 1).toNat, some verified, some accepted, params.maxTokens⟩

def sampled (hidden : H) (call : DispatchCall) : Except DispatchError TailSample :=
  match r.samplingDefaults with
  | none => throw .missingTailCapability
  | some defaults =>
      if call.decodeMode = .verify then r.sampleTailVerify defaults hidden call
      else r.sampleTail defaults hidden call

/-- `handle.tokens_generated += len(emitted)`. -/
def generated (c : KVCacheManager P) (requestId : String) (n : ℕ) : KVCacheManager P :=
  c.modify requestId fun handle => { handle with tokensGenerated := handle.tokensGenerated + n }

def tokensGenerated (c : KVCacheManager P) (requestId : String) : ℕ :=
  ((c.handles.get? requestId).map (·.tokensGenerated)).getD 0

/-- `run_layer_slice_unary`: the cache after the call, with what it returns or raises. -/
def runLayerSliceUnary (c : KVCacheManager P) (call : DispatchCall) :
    KVCacheManager P × Except DispatchError (LayerSliceResult H) :=
  match r.check call with
  | .error e => (c, .error e)
  | .ok () =>
      match r.pass c call with
      | (c, .error e) => (c, .error e)
      | (c, .ok hidden) =>
          if call.isFinalStage = true then
            match r.sampled hidden call with
            | .error e => (c, .error e)
            | .ok sample =>
                let c := generated c call.requestId sample.emitted.length
                let ended : Bool := sample.emitted.any (some · = r.eosTokenId) ∨
                  sample.maxTokens ≤ tokensGenerated c call.requestId
                (c, .ok ⟨hidden, r.nLayers, sample.emitted.getLast?, ended,
                  sample.verifiedTokenIds, sample.acceptedCount⟩)
          else (c, .ok ⟨hidden, r.nLayers, none, false, none, none⟩)

end ShardedAutoregressiveRunner

/-! ## What the operations leave of the cache -/

namespace KVCacheManager

variable {P : Type} {c c' : KVCacheManager P} {requestId : String}

theorem get?_modify (f : KVCacheHandle P → KVCacheHandle P) (id : String) :
    (c.modify requestId f).handles.get? id =
      if id = requestId then (c.handles.get? requestId).map f else c.handles.get? id := by
  unfold modify
  cases hHandle : c.handles.get? requestId with
  | none =>
      show c.handles.get? id = _
      split
      case isTrue h => rw [h, hHandle, Option.map_none]
      case isFalse => rfl
  | some handle => exact Dict.get?_set _ _ _ _

theorem SameContents.refl (c : KVCacheManager P) : SameContents c c := fun _ => rfl

theorem get_some {handle : KVCacheHandle P} (now : ℚ)
    (h : c.handles.get? requestId = some handle) :
    ∃ c', c.get requestId now = (c', some { handle with lastTouchTime := now }) ∧
      c'.handles.get? requestId = some { handle with lastTouchTime := now } ∧
      SameContents c c' := by
  simp only [get, h]
  refine ⟨_, rfl, Dict.get?_set_self _ _ _, fun id => ?_⟩
  simp only [contents, Dict.get?_set, Dict.get?_moveToEnd]
  split
  case isTrue hId => rw [hId, h, Option.map_some, Option.map_some]
  case isFalse => rfl

theorem get_none (now : ℚ) (h : c.handles.get? requestId = none) :
    c.get requestId now = (c, none) := by
  simp only [get, h]

theorem not_sameContents_of_new (hOld : c.handles.get? requestId = none)
    (hNew : (c'.handles.get? requestId).isSome = true) : ¬ SameContents c c' := by
  intro hSame
  obtain ⟨handle, hHandle⟩ := Option.isSome_iff_exists.mp hNew
  have hId := hSame requestId
  simp only [contents, hOld, hHandle, Option.map_none, Option.map_some] at hId
  cases hId

theorem not_sameContents_of_counted {handle handle' : KVCacheHandle P}
    (hOld : c.handles.get? requestId = some handle)
    (hNew : c'.handles.get? requestId = some handle')
    (hCount : handle.cachedPositions < handle'.cachedPositions) : ¬ SameContents c c' := by
  intro hSame
  have hId := hSame requestId
  simp only [contents, hOld, hNew, Option.map_some, Option.some.injEq, Prod.mk.injEq] at hId
  omega

end KVCacheManager

namespace ShardedAutoregressiveRunner

open KVCacheManager (SameContents)

variable {P H : Type} {r : ShardedAutoregressiveRunner P H} {c : KVCacheManager P}
  {call : DispatchCall}

/-- The pass ends before the manager has allocated, or before the model has answered. -/
def StopsEarly (r : ShardedAutoregressiveRunner P H) (c : KVCacheManager P) (call : DispatchCall) :
    Prop :=
  match call.decodeMode with
  | .prefill => (c.handles.get? call.requestId).isSome = true
  | .incremental => ∀ handle, c.handles.get? call.requestId = some handle →
      r.model.forwardIncremental call.activationOrInputIds r.layerRange handle.payload = none
  | .verify => ∀ handle, c.handles.get? call.requestId = some handle →
      ∀ forwardVerify, r.model.forwardVerify = some forwardVerify →
        ∀ n, verifyInputNPositions call.activationOrInputIds = some n →
          2 ≤ n → n ≤ maxVerifyBatchTokens →
            forwardVerify call.activationOrInputIds r.layerRange handle.payload = none

theorem get?_counted_stored {handle : KVCacheHandle P} {id : String} (payload : Option P) (n : ℕ)
    (h : c.handles.get? id = some handle) :
    (counted (stored c id payload) id n).handles.get? id =
      some { handle with payload := payload, cachedPositions := handle.cachedPositions + n } := by
  simp [counted, stored, KVCacheManager.get?_modify, h]

theorem allocate_of_none (hId : call.requestId ≠ "")
    (hOld : c.handles.get? call.requestId = none) :
    ∃ c' handle, c.allocate call.requestId r.nLayers call.now = .ok c' ∧
      c'.handles.get? call.requestId = some handle := by
  have hLayers : 0 < r.nLayers := Nat.sub_pos_of_lt r.range_lt
  refine ⟨{ c with
    handles := (c.handles.keepLast (c.maxCachedRequests - 1)).set call.requestId
      ⟨r.nLayers, call.now, none, 0, 0⟩ }, _, ?_, Dict.get?_set_self _ _ _⟩
  simp only [KVCacheManager.allocate, bind_eq_ok_iff, require_eq_ok_iff, pure_eq_ok_iff]
  exact ⟨(), ⟨hId, hLayers⟩, (), hOld, trivial⟩

theorem prefill_sameContents_iff (hId : call.requestId ≠ "") :
    SameContents c (r.prefill c call).1 ↔ (c.handles.get? call.requestId).isSome = true := by
  cases hOld : c.handles.get? call.requestId with
  | some handle =>
      have hLayers : 0 < r.nLayers := Nat.sub_pos_of_lt r.range_lt
      have hAllocate : c.allocate call.requestId r.nLayers call.now =
          .error .cacheAlreadyAllocated := by
        simp [KVCacheManager.allocate, require, hId, hLayers, hOld]
      simp only [prefill, hAllocate, Option.isSome_some, iff_true]
      exact SameContents.refl c
  | none =>
      obtain ⟨c', handle, hAllocate, hNew⟩ := allocate_of_none (r := r) hId hOld
      simp only [prefill, hAllocate, Option.isSome_none, Bool.false_eq_true, iff_false]
      -- Wherever the pass ends now, the request has a handle.
      split
      · exact KVCacheManager.not_sameContents_of_new hOld (by simp [hNew])
      case h_2 hidden payload hForward =>
        split
        · exact KVCacheManager.not_sameContents_of_new hOld
            (by simp [stored, KVCacheManager.get?_modify, hNew])
        · exact KVCacheManager.not_sameContents_of_new hOld
            (by simp [get?_counted_stored payload _ hNew])

theorem not_sameContents_counted {handle : KVCacheHandle P} {c' : KVCacheManager P} {id : String}
    {now : ℚ} (payload : Option P) {n : ℕ} (hPos : 0 < n)
    (hOld : c.handles.get? id = some handle)
    (hTouched : c'.handles.get? id = some { handle with lastTouchTime := now }) :
    ¬ SameContents c (counted (stored c' id payload) id n) :=
  KVCacheManager.not_sameContents_of_counted hOld (get?_counted_stored payload n hTouched)
    (Nat.lt_add_of_pos_right hPos)

theorem incremental_sameContents_iff :
    SameContents c (r.incremental c call).1 ↔
      ∀ handle, c.handles.get? call.requestId = some handle →
        r.model.forwardIncremental call.activationOrInputIds r.layerRange handle.payload =
          none := by
  cases hOld : c.handles.get? call.requestId with
  | none =>
      simp only [incremental, KVCacheManager.get_none call.now hOld]
      exact ⟨fun _ handle hHandle => (Option.some_ne_none handle hHandle.symm).elim,
        fun _ => SameContents.refl c⟩
  | some handle =>
      obtain ⟨c', hGet, hTouched, hSame⟩ := KVCacheManager.get_some call.now hOld
      simp only [incremental, hGet, Option.some.injEq, forall_eq']
      cases hForward : r.model.forwardIncremental call.activationOrInputIds r.layerRange
          handle.payload with
      | none => exact ⟨fun _ => rfl, fun _ => hSame⟩
      | some answer =>
          obtain ⟨hidden, payload⟩ := answer
          have hChanged := not_sameContents_counted payload Nat.one_pos hOld hTouched
          exact ⟨fun h => absurd h hChanged, fun h => (Option.some_ne_none _ h).elim⟩

theorem verify_sameContents_iff :
    SameContents c (r.verify c call).1 ↔
      ∀ handle, c.handles.get? call.requestId = some handle →
        ∀ forwardVerify, r.model.forwardVerify = some forwardVerify →
          ∀ n, verifyInputNPositions call.activationOrInputIds = some n →
            2 ≤ n → n ≤ maxVerifyBatchTokens →
              forwardVerify call.activationOrInputIds r.layerRange handle.payload = none := by
  cases hOld : c.handles.get? call.requestId with
  | none =>
      simp only [verify, KVCacheManager.get_none call.now hOld]
      exact ⟨fun _ handle hHandle => (Option.some_ne_none handle hHandle.symm).elim,
        fun _ => SameContents.refl c⟩
  | some handle =>
      obtain ⟨c', hGet, hTouched, hSame⟩ := KVCacheManager.get_some call.now hOld
      simp only [verify, hGet, Option.some.injEq, forall_eq']
      cases hModel : r.model.forwardVerify with
      | none => simpa using hSame
      | some forwardVerify =>
          simp only [Option.some.injEq, forall_eq']
          cases hPositions : verifyInputNPositions call.activationOrInputIds with
          | none => simpa using hSame
          | some n =>
              simp only [Option.some.injEq, forall_eq']
              by_cases hBad : n < 2 ∨ maxVerifyBatchTokens < n
              · rw [if_pos hBad]
                exact ⟨fun _ hLow hHigh => by omega, fun _ => hSame⟩
              · rw [if_neg hBad]
                have hLow : 2 ≤ n := by omega
                have hHigh : n ≤ maxVerifyBatchTokens := by omega
                cases hForward : forwardVerify call.activationOrInputIds r.layerRange
                    handle.payload with
                | none => exact ⟨fun _ _ _ => rfl, fun _ => hSame⟩
                | some answer =>
                    obtain ⟨hidden, payload⟩ := answer
                    have hChanged := not_sameContents_counted payload
                      (Nat.lt_of_lt_of_le Nat.two_pos hLow) hOld hTouched
                    exact ⟨fun h => absurd h hChanged,
                      fun h => (Option.some_ne_none _ (h hLow hHigh)).elim⟩

theorem pass_sameContents_iff (hId : call.requestId ≠ "") :
    SameContents c (r.pass c call).1 ↔ r.StopsEarly c call := by
  unfold pass StopsEarly
  cases call.decodeMode with
  | prefill => exact prefill_sameContents_iff hId
  | incremental => exact incremental_sameContents_iff
  | verify => exact verify_sameContents_iff

theorem check_requestId (h : r.check call = .ok ()) : call.requestId ≠ "" := by
  simp only [check, bind_eq_ok_iff, require_eq_ok_iff] at h
  obtain ⟨-, hId, -⟩ := h
  exact hId

theorem fst_of_error {e : DispatchError} (hChecked : r.check call = .ok ())
    (hRaised : (r.runLayerSliceUnary c call).2 = .error e) :
    (r.runLayerSliceUnary c call).1 = (r.pass c call).1 := by
  simp only [runLayerSliceUnary, hChecked] at hRaised ⊢
  cases hPass : r.pass c call with
  | mk c' outcome =>
      cases outcome with
      | error e' => rfl
      | ok hidden =>
          simp only [hPass] at hRaised ⊢
          by_cases hTail : call.isFinalStage = true
          · simp only [hTail, if_true] at hRaised ⊢
            cases hSampled : r.sampled hidden call with
            | error e' => rfl
            | ok sample =>
                rw [hSampled] at hRaised
                cases hRaised
          · rw [if_neg hTail] at hRaised
            cases hRaised

/-- A dispatch that raises leaves the handles, their payloads and their counters as they were
exactly when its arguments are refused, or the pass stops before a handle is allocated or the
model has answered. -/
theorem failed_dispatch_unchanged_iff (r : ShardedAutoregressiveRunner P H) (c : KVCacheManager P)
    (call : DispatchCall) (hRaised : ∃ e, (r.runLayerSliceUnary c call).2 = .error e) :
    SameContents c (r.runLayerSliceUnary c call).1 ↔
      r.check call ≠ .ok () ∨ r.StopsEarly c call := by
  obtain ⟨e, hRaised⟩ := hRaised
  by_cases hChecked : r.check call = .ok ()
  · rw [fst_of_error hChecked hRaised, pass_sameContents_iff (check_requestId hChecked)]
    simp [hChecked]
  · have hRefused : (r.runLayerSliceUnary c call).1 = c := by
      cases hCheck : r.check call with
      | error e' => simp only [runLayerSliceUnary, hCheck]
      | ok u => exact absurd hCheck hChecked
    rw [hRefused]
    exact ⟨fun _ => Or.inl hChecked, fun _ => SameContents.refl c⟩

/-! ## A stage whose model fails -/

def failingModel : ShardedLayerForward ℕ ℕ where
  forwardPrefill := fun _ _ => none
  forwardIncremental := fun _ _ _ => none
  forwardVerify := none
  applyLmHeadAndSample := none
  applyLmHeadAndSampleBatch := none
  applyLmHeadAndSampleBatchWithRejection := none

def failingRunner : ShardedAutoregressiveRunner ℕ ℕ where
  model := failingModel
  layerRange := (0, 2)
  samplingDefaults := none
  eosTokenId := none
  constantKCommitment := false
  range_lt := Nat.two_pos
  tail_samples := fun h => absurd h Bool.false_ne_true

def fullCache : KVCacheManager ℕ where
  maxCachedRequests := 1
  handles := (∅ : Dict String (KVCacheHandle ℕ)).set "a" ⟨2, 0, some 7, 0, 3⟩
  max_pos := Nat.one_pos

def dispatchOf (mode : DecodeMode) (requestId : String) : DispatchCall :=
  ⟨.ids [1, 2], requestId, mode, false, none, none, none, 1⟩

/-- An incremental dispatch over a model that raises changes nothing. -/
theorem failed_incremental_unchanged :
    SameContents fullCache
      (failingRunner.runLayerSliceUnary fullCache (dispatchOf .incremental "a")).1 :=
  (failed_dispatch_unchanged_iff failingRunner fullCache (dispatchOf .incremental "a")
    ⟨.modelRaised, rfl⟩).mpr (Or.inr fun _ _ => rfl)

/-- A prefill that fails has dropped the handle of another request, and it cannot be repeated. -/
theorem failed_prefill_evicts :
    ∃ call, (failingRunner.runLayerSliceUnary fullCache call).2.toOption.isNone = true ∧
      ¬ SameContents fullCache (failingRunner.runLayerSliceUnary fullCache call).1 ∧
      (failingRunner.runLayerSliceUnary
          (failingRunner.runLayerSliceUnary fullCache call).1 call).2.toOption.isNone = true := by
  refine ⟨dispatchOf .prefill "b", by decide +kernel, fun hSame => ?_, by decide +kernel⟩
  exact absurd (hSame "a") (by decide +kernel)

end ShardedAutoregressiveRunner
end Prsm.Inference
