import Prsm.Foundations.Noninterference
import Prsm.Inference.StageDispatch

/-!
# The sessions of a stage

All requests of a stage share one cache, and each keeps a handle there from its prefill to its
eviction.  A prefill into a full cache drops the handle used least lately, whosever it is.

`sessions_isolated` says that nothing else passes between the requests: each is answered as on a
stage of its own that is cleared whenever it loses its handle to another.
-/

namespace Prsm.Inference

open Foundations
open ShardedAutoregressiveRunner (stored counted generated)

namespace KVCacheManager

variable {P : Type} (c : KVCacheManager P)

def evict (requestId : String) : KVCacheManager P × Bool :=
  ({ c with handles := c.handles.erase requestId }, (c.handles.get? requestId).isSome)

/-- `rollback`, which drops no more positions than there are. -/
def rollback (requestId : String) (nPositions : ℤ) (truncate : Option P → ℕ → Option (Option P)) :
    KVCacheManager P × Except DispatchError (Bool × ℕ) :=
  if requestId = "" then (c, .error .badArgument)
  else
    match c.handles.get? requestId with
    | none => (c, .ok (false, 0))
    | some handle =>
        let actual := min nPositions.toNat handle.cachedPositions
        if actual = 0 then (c, .ok (false, 0))
        else
          match truncate handle.payload actual with
          | none => (c, .error .modelRaised)
          | some payload =>
              (c.modify requestId fun handle => { handle with
                payload := payload, cachedPositions := handle.cachedPositions - actual },
                .ok (true, actual))

/-- `handle.last_touch_time < cutoff`. -/
def idle (cutoff : ℚ) (requestId : String) : Bool :=
  (c.handles.get? requestId).any (·.lastTouchTime < cutoff)

def evictIdle (cutoff : ℚ) : KVCacheManager P × List String :=
  ({ c with handles := c.handles.filterKeys fun requestId => !c.idle cutoff requestId },
    (c.handles.entries.map Prod.fst).filter (c.idle cutoff))

def evictAll : KVCacheManager P × List String :=
  ({ c with handles := ∅ }, c.handles.entries.map Prod.fst)

end KVCacheManager

/-- A runner, with the method of its model that only a rollback needs and the lifetime of idle
handles. -/
structure Stage (P H : Type) extends ShardedAutoregressiveRunner P H where
  truncateCache : Option (Option P → ℕ → Option (Option P))
  ttlSeconds : ℚ
  ttl_pos : 0 < ttlSeconds

/-- A call of the runner for a request, or one of the operator. -/
inductive StageCall
  | runLayerSliceUnary (call : DispatchCall)
  | rollbackCache (requestId : String) (nPositions : ℤ)
  | replayAcceptedPrefix (requestId : String) (prefixTokenIds : List ℤ) (now : ℚ)
  | evict (requestId : String)
  | evictIdle (now : ℚ)
  | evictAll

def StageCall.requestId? : StageCall → Option String
  | .runLayerSliceUnary call => some call.requestId
  | .rollbackCache requestId _ | .replayAcceptedPrefix requestId _ _ | .evict requestId =>
      some requestId
  | .evictIdle _ | .evictAll => none

inductive StageAnswer (H : Type)
  | result (x : Except DispatchError (LayerSliceResult H))
  | rolledBack (x : Except DispatchError (Bool × ℕ))
  | replayed (x : Except DispatchError Bool)
  | evicted (known : Bool)
  | swept (requestIds : List String)

/-- The call is one for `id` or one of the operator. -/
abbrev Kept (id : String) (i : StageCall) : Prop := i.requestId? = some id ∨ i.requestId? = none

namespace Stage

variable {P H : Type} (st : Stage P H)

def rollbackCache (c : KVCacheManager P) (requestId : String) (nPositions : ℤ) :
    KVCacheManager P × Except DispatchError (Bool × ℕ) :=
  match st.truncateCache with
  | none => (c, .error .missingVerifyCapability)
  | some truncate => c.rollback requestId nPositions truncate

/-- `replay_accepted_prefix`: only the first stage has token ids to start from. -/
def replayAcceptedPrefix (c : KVCacheManager P) (requestId : String) (prefixTokenIds : List ℤ)
    (now : ℚ) : KVCacheManager P × Except DispatchError Bool :=
  if prefixTokenIds = [] ∨ st.layerRange.1 ≠ 0 then (c, .ok false)
  else
    match st.model.forwardVerify with
    | none => (c, .error .missingVerifyCapability)
    | some forwardVerify =>
        match c.get requestId now with
        | (c, none) => (c, .ok false)
        | (c, some handle) =>
            match forwardVerify (.ids prefixTokenIds) st.layerRange handle.payload with
            | none => (c, .error .modelRaised)
            | some (_, payload) =>
                (counted (stored c requestId payload) requestId prefixTokenIds.length, .ok true)

def serve (c : KVCacheManager P) : StageCall → KVCacheManager P × StageAnswer H
  | .runLayerSliceUnary call => (st.runLayerSliceUnary c call).map id .result
  | .rollbackCache requestId nPositions =>
      (st.rollbackCache c requestId nPositions).map id .rolledBack
  | .replayAcceptedPrefix requestId prefixTokenIds now =>
      (st.replayAcceptedPrefix c requestId prefixTokenIds now).map id .replayed
  | .evict requestId => (c.evict requestId).map id .evicted
  | .evictIdle now => (c.evictIdle (now - st.ttlSeconds)).map id .swept
  | .evictAll => c.evictAll.map id .swept

/-- The cache after a list of calls. -/
def run (c : KVCacheManager P) (calls : List StageCall) : KVCacheManager P :=
  calls.foldl (fun c i => (st.serve c i).1) c

/-- The call is a prefill of a new request into the full cache, where `id` has the handle used
least lately. -/
def displaces (c : KVCacheManager P) (id : String) : StageCall → Bool
  | .runLayerSliceUnary call =>
      ((st.check call).isOk = true ∧ call.decodeMode = .prefill) ∧
        (c.handles.get? call.requestId).isNone = true ∧
        c.handles.entries.length = c.maxCachedRequests ∧
        c.handles.entries.head?.map Prod.fst = some id
  | _ => false

/-- The calls of one request and of the operator, with the whole cache cleared wherever another
request takes the place of this one. -/
def alone (id : String) (c : KVCacheManager P) : List StageCall → List StageCall
  | [] => []
  | i :: rest =>
      (if Kept id i then [i] else if st.displaces c id i then [.evictAll] else []) ++
        alone id (st.serve c i).1 rest

end Stage

variable {P H : Type} {c c' d d' : KVCacheManager P} {id : String} {α β : Type}

/-! ## Operations on one handle -/

namespace KVCacheManager

/-- An operation of `id` with the outcome `x` on `c` and `y` on `d`: it leaves the other handles
of `c`, adds none, and the handle and the answer are the same on both. -/
structure Local (id : String) (c d : KVCacheManager P) (x y : KVCacheManager P × α) : Prop where
  max_eq : x.1.maxCachedRequests = c.maxCachedRequests
  length_le : x.1.handles.entries.length ≤ c.handles.entries.length
  others : ∀ other ≠ id, x.1.handles.get? other = c.handles.get? other
  same : x.1.handles.get? id = y.1.handles.get? id
  answer : x.2 = y.2

theorem Local.start (h : c.handles.get? id = d.handles.get? id) (a : α) :
    Local id c d (c, a) (d, a) :=
  ⟨rfl, le_rfl, fun _ _ => rfl, h, rfl⟩

theorem Local.answered {x y : KVCacheManager P × α} (h : Local id c d x y) (b : β) :
    Local id c d (x.1, b) (y.1, b) :=
  ⟨h.max_eq, h.length_le, h.others, h.same, rfl⟩

theorem Local.modify {x y : KVCacheManager P × α} (h : Local id c d x y)
    (f : KVCacheHandle P → KVCacheHandle P) (b : β) :
    Local id c d (x.1.modify id f, b) (y.1.modify id f, b) := by
  refine ⟨?_, ?_, fun other hOther => ?_, ?_, rfl⟩
  · refine Eq.trans ?_ h.max_eq
    unfold KVCacheManager.modify
    split <;> rfl
  · refine le_trans ?_ h.length_le
    unfold KVCacheManager.modify
    split
    · exact le_rfl
    · next hHandle =>
      exact Dict.length_entries_set_le _ le_rfl (.inl (Option.isSome_of_mem hHandle))
  · rw [get?_modify, if_neg hOther, h.others other hOther]
  · simp only [get?_modify, if_true, h.same]

theorem local_get (h : c.handles.get? id = d.handles.get? id) (now : ℚ) :
    ∃ c' d' handle?, c.get id now = (c', handle?) ∧ d.get id now = (d', handle?) ∧
      Local id c d (c', handle?) (d', handle?) := by
  cases hHandle : d.handles.get? id with
  | none => exact ⟨c, d, none, get_none now (h.trans hHandle), get_none now hHandle, .start h _⟩
  | some handle =>
      have hHandle' := h.trans hHandle
      simp only [get, hHandle, hHandle']
      refine ⟨_, _, _, rfl, rfl, rfl, ?_, fun other hOther => ?_, ?_, rfl⟩
      · have hMoved : (c.handles.moveToEnd id).get? id = some handle := by
          rw [Dict.get?_moveToEnd, hHandle']
        exact (Dict.length_entries_set_le _ le_rfl (.inl (Option.isSome_of_mem hMoved))).trans
          (Dict.length_entries_moveToEnd _ _).le
      · dsimp only
        rw [Dict.get?_set, if_neg hOther, Dict.get?_moveToEnd]
      · rw [Dict.get?_set_self, Dict.get?_set_self]

theorem local_rollback (h : c.handles.get? id = d.handles.get? id) (n : ℤ)
    (truncate : Option P → ℕ → Option (Option P)) :
    Local id c d (c.rollback id n truncate) (d.rollback id n truncate) := by
  unfold rollback
  rw [h]
  split
  · exact .start h _
  · cases d.handles.get? id with
    | none => exact .start h _
    | some handle =>
        dsimp only
        split
        · exact .start h _
        · cases truncate handle.payload (min n.toNat handle.cachedPositions) with
          | none => exact .start h _
          | some payload => exact (Local.start h ()).modify _ _

theorem allocate_eq (c : KVCacheManager P) (id : String) (nLayers : ℕ) (now : ℚ) :
    c.allocate id nLayers now =
      if ¬(id ≠ "" ∧ 0 < nLayers) then .error .badArgument
      else if c.handles.get? id ≠ none then .error .cacheAlreadyAllocated
      else .ok { c with
        handles := (c.handles.keepLast (c.maxCachedRequests - 1)).set id
          ⟨nLayers, now, none, 0, 0⟩ } := by
  unfold allocate require
  split <;> split <;> simp_all

end KVCacheManager

namespace Stage

open KVCacheManager (Local local_get local_rollback allocate_eq)
open ChainRpc (DecodeMode)

variable {st : Stage P H} {call : DispatchCall} {i : StageCall} {bound : ℕ}

theorem local_counted {x y : KVCacheManager P × α} (h : Local id c d x y) (payload : Option P)
    (n : ℕ) (b : β) :
    Local id c d (counted (stored x.1 id payload) id n, b)
      (counted (stored y.1 id payload) id n, b) :=
  (h.modify _ ()).modify _ b

theorem local_rollbackCache (h : c.handles.get? id = d.handles.get? id) (n : ℤ) :
    Local id c d (st.rollbackCache c id n) (st.rollbackCache d id n) := by
  unfold rollbackCache
  cases st.truncateCache with
  | none => exact .start h _
  | some truncate => exact local_rollback h n truncate

theorem local_replay (h : c.handles.get? id = d.handles.get? id) (prefixTokenIds : List ℤ)
    (now : ℚ) : Local id c d (st.replayAcceptedPrefix c id prefixTokenIds now)
      (st.replayAcceptedPrefix d id prefixTokenIds now) := by
  unfold replayAcceptedPrefix
  split
  · exact .start h _
  · cases st.model.forwardVerify with
    | none => exact .start h _
    | some forwardVerify =>
        obtain ⟨c', d', handle?, hc, hd, hGet⟩ := local_get h now
        dsimp only
        rw [hc, hd]
        cases handle? with
        | none => exact hGet.answered _
        | some handle =>
            dsimp only
            cases forwardVerify (.ids prefixTokenIds) st.layerRange handle.payload with
            | none => exact hGet.answered _
            | some answer => exact local_counted hGet _ _ _

theorem local_incremental (h : c.handles.get? call.requestId = d.handles.get? call.requestId) :
    Local call.requestId c d (st.incremental c call) (st.incremental d call) := by
  obtain ⟨c', d', handle?, hc, hd, hGet⟩ := local_get h call.now
  unfold ShardedAutoregressiveRunner.incremental
  rw [hc, hd]
  cases handle? with
  | none => exact hGet.answered _
  | some handle =>
      dsimp only
      cases st.model.forwardIncremental call.activationOrInputIds st.layerRange handle.payload with
      | none => exact hGet.answered _
      | some answer => exact local_counted hGet _ _ _

theorem local_verify (h : c.handles.get? call.requestId = d.handles.get? call.requestId) :
    Local call.requestId c d (st.verify c call) (st.verify d call) := by
  obtain ⟨c', d', handle?, hc, hd, hGet⟩ := local_get h call.now
  unfold ShardedAutoregressiveRunner.verify
  rw [hc, hd]
  cases handle? with
  | none => exact hGet.answered _
  | some handle =>
      dsimp only
      cases st.model.forwardVerify with
      | none => exact hGet.answered _
      | some forwardVerify =>
          dsimp only
          cases verifyInputNPositions call.activationOrInputIds with
          | none => exact hGet.answered _
          | some n =>
              dsimp only
              by_cases hBad : n < 2 ∨ ChainRpc.maxVerifyBatchTokens < n
              · rw [if_pos hBad, if_pos hBad]
                exact hGet.answered _
              · rw [if_neg hBad, if_neg hBad]
                cases forwardVerify call.activationOrInputIds st.layerRange handle.payload with
                | none => exact hGet.answered _
                | some answer => exact local_counted hGet _ _ _

/-- The cache that a dispatch goes on with: a prefill has allocated its handle. -/
def opened (st : Stage P H) (c : KVCacheManager P) (call : DispatchCall) : KVCacheManager P :=
  if (st.check call).isOk = true ∧ call.decodeMode = .prefill then
    (c.allocate call.requestId st.nLayers call.now).toOption.getD c
  else c

theorem local_pass (h : c.handles.get? call.requestId = d.handles.get? call.requestId)
    (hChecked : (st.check call).isOk = true) :
    Local call.requestId (st.opened c call) (st.opened d call) (st.pass c call)
      (st.pass d call) := by
  unfold ShardedAutoregressiveRunner.pass opened
  cases hMode : call.decodeMode with
  | prefill =>
      rw [if_pos ⟨hChecked, rfl⟩, if_pos ⟨hChecked, rfl⟩]
      dsimp only
      unfold ShardedAutoregressiveRunner.prefill
      rw [allocate_eq, allocate_eq, h]
      split
      · exact .start h _
      · split
        · exact .start h _
        · have hNew := (Dict.get?_set_self (c.handles.keepLast (c.maxCachedRequests - 1))
            call.requestId ⟨st.nLayers, call.now, none, 0, 0⟩).trans
              (Dict.get?_set_self (d.handles.keepLast (d.maxCachedRequests - 1))
                call.requestId _).symm
          dsimp only
          cases st.model.forwardPrefill call.activationOrInputIds st.layerRange with
          | none => exact .start hNew _
          | some answer =>
              dsimp only
              cases inputNPositions call.activationOrInputIds with
              | none => exact (Local.start hNew ()).modify _ _
              | some n => exact local_counted (Local.start hNew ()) _ _ _
  | incremental =>
      rw [if_neg fun h => DecodeMode.noConfusion h.2, if_neg fun h => DecodeMode.noConfusion h.2]
      exact local_incremental h
  | verify =>
      rw [if_neg fun h => DecodeMode.noConfusion h.2, if_neg fun h => DecodeMode.noConfusion h.2]
      exact local_verify h

theorem local_dispatch (h : c.handles.get? call.requestId = d.handles.get? call.requestId) :
    Local call.requestId (st.opened c call) (st.opened d call) (st.runLayerSliceUnary c call)
      (st.runLayerSliceUnary d call) := by
  unfold ShardedAutoregressiveRunner.runLayerSliceUnary
  cases hCheck : st.check call with
  | error e =>
      simp only [opened, hCheck, Except.isOk, Except.toBool, Bool.false_eq_true, false_and,
        if_false]
      exact .start h _
  | ok checked =>
      have hPass : Local _ _ _ (st.pass c call) (st.pass d call) :=
        local_pass h (by rw [hCheck]; rfl)
      dsimp only
      generalize st.pass c call = x, st.pass d call = y at hPass ⊢
      obtain ⟨c', outcome⟩ := x
      obtain ⟨d', outcome'⟩ := y
      obtain rfl : outcome = outcome' := hPass.answer
      cases outcome with
      | error e => exact hPass.answered _
      | ok hidden =>
          dsimp only
          by_cases hTail : call.isFinalStage = true
          · rw [if_pos hTail, if_pos hTail]
            cases st.sampled hidden call with
            | error e => exact hPass.answered _
            | ok sample =>
                have hGenerated := hPass.modify (fun handle => { handle with
                  tokensGenerated := handle.tokensGenerated + sample.emitted.length }) ()
                have hTokens : ShardedAutoregressiveRunner.tokensGenerated
                    (generated c' call.requestId sample.emitted.length) call.requestId =
                  ShardedAutoregressiveRunner.tokensGenerated
                    (generated d' call.requestId sample.emitted.length) call.requestId :=
                  congrArg (fun handle? => (handle?.map (·.tokensGenerated)).getD 0)
                    hGenerated.same
                dsimp only
                rw [hTokens]
                exact hGenerated.answered _
          · rw [if_neg hTail, if_neg hTail]
            exact hPass.answered _

/-! ## Calls of others -/

/-- There are no more handles than the manager allows. -/
def Fits (bound : ℕ) (c : KVCacheManager P) : Prop :=
  c.maxCachedRequests = bound ∧ c.handles.entries.length ≤ bound

theorem Fits.kept {x y : KVCacheManager P × α} (h : Fits bound c) (hLocal : Local id c d x y) :
    Fits bound x.1 :=
  ⟨hLocal.max_eq.trans h.1, hLocal.length_le.trans h.2⟩

theorem Fits.opened (h : Fits bound c) : Fits bound (st.opened c call) := by
  unfold Stage.opened
  split
  · rw [allocate_eq]
    split
    · exact h
    · split
      · exact h
      · have hKept := Dict.length_entries_keepLast_le (c.maxCachedRequests - 1) c.handles
        have hPos := c.max_pos
        have hBound := h.1
        exact ⟨h.1, Dict.length_entries_set_le _ (by omega) (.inr (by omega))⟩
  · exact h

theorem Fits.serve (h : Fits bound c) (i : StageCall) : Fits bound (st.serve c i).1 := by
  cases i with
  | runLayerSliceUnary call =>
      exact Fits.kept (x := st.runLayerSliceUnary c call) h.opened (local_dispatch rfl)
  | rollbackCache requestId n =>
      exact Fits.kept (x := st.rollbackCache c requestId n) h (local_rollbackCache rfl n)
  | replayAcceptedPrefix requestId prefixTokenIds now =>
      exact Fits.kept (x := st.replayAcceptedPrefix c requestId prefixTokenIds now) h
        (local_replay rfl prefixTokenIds now)
  | evict requestId => exact ⟨h.1, (Dict.length_entries_erase_le _ _).trans h.2⟩
  | evictIdle now => exact ⟨h.1, (List.length_filter_le _ _).trans h.2⟩
  | evictAll => exact ⟨h.1, Nat.zero_le _⟩

/-- A dispatch of another request leaves the handle of `id`, unless it needs its place. -/
theorem get?_opened (h : Fits bound c) (hOther : id ≠ call.requestId) :
    (st.opened c call).handles.get? id =
      if st.displaces c id (.runLayerSliceUnary call) then none else c.handles.get? id := by
  unfold Stage.opened
  by_cases hPrefill : (st.check call).isOk = true ∧ call.decodeMode = .prefill
  · have hArgs : call.requestId ≠ "" ∧ 0 < st.nLayers := by
      refine ⟨?_, Nat.sub_pos_of_lt st.range_lt⟩
      cases hCheck : st.check call with
      | error e => simp [hCheck, Except.isOk, Except.toBool] at hPrefill
      | ok checked => exact ShardedAutoregressiveRunner.check_requestId hCheck
    rw [if_pos hPrefill, allocate_eq, if_neg (not_not.mpr hArgs)]
    by_cases hNew : c.handles.get? call.requestId = none
    · rw [if_neg (not_not.mpr hNew)]
      show ((c.handles.keepLast _).set call.requestId _).get? id = _
      rw [Dict.get?_set, if_neg hOther]
      have hLength : c.handles.entries.length ≤ c.maxCachedRequests := h.1 ▸ h.2
      by_cases hFull : c.handles.entries.length = c.maxCachedRequests
      · have hLost := Dict.get?_keepLast_of_full (hFull ▸ c.max_pos) id
        have hValue : st.displaces c id (.runLayerSliceUnary call) =
            decide (c.handles.entries.head?.map Prod.fst = some id) := by
          simp [displaces, hPrefill, hNew, hFull]
        rw [← hFull, hLost, hValue]
        simp only [decide_eq_true_eq]
      · rw [Dict.keepLast_of_le (Nat.le_sub_one_of_lt (lt_of_le_of_ne hLength hFull)), if_neg]
        simp [displaces, hFull]
    · rw [if_pos hNew, if_neg]
      · rfl
      · simp [displaces, hNew]
  · rw [if_neg hPrefill, if_neg]
    simp [displaces, hPrefill]

theorem get?_serve_of_other (h : Fits bound c) (hOther : ¬ Kept id i) :
    (st.serve c i).1.handles.get? id =
      if st.displaces c id i then none else c.handles.get? id := by
  rw [Kept, not_or] at hOther
  have hNe : ∀ requestId, i.requestId? = some requestId → id ≠ requestId :=
    fun _ hId hSame => hOther.1 (hSame ▸ hId)
  cases i with
  | runLayerSliceUnary call =>
      exact ((local_dispatch rfl).others id (hNe _ rfl)).trans (get?_opened h (hNe _ rfl))
  | rollbackCache requestId n => exact (local_rollbackCache rfl n).others id (hNe _ rfl)
  | replayAcceptedPrefix requestId prefixTokenIds now =>
      exact (local_replay rfl prefixTokenIds now).others id (hNe _ rfl)
  | evict requestId => exact (Dict.get?_erase _ _ _).trans (if_neg (hNe _ rfl))
  | evictIdle now => exact absurd rfl hOther.2
  | evictAll => exact absurd rfl hOther.2

theorem serve_congr (h : c.handles.get? id = d.handles.get? id) (hKept : Kept id i) :
    (st.serve c i).1.handles.get? id = (st.serve d i).1.handles.get? id ∧
      (i.requestId? = some id → (st.serve c i).2 = (st.serve d i).2) := by
  cases i with
  | runLayerSliceUnary call =>
      obtain rfl : call.requestId = id := by simpa [Kept, StageCall.requestId?] using hKept
      have hLocal : Local _ _ _ (st.runLayerSliceUnary c call) (st.runLayerSliceUnary d call) :=
        local_dispatch h
      exact ⟨hLocal.same, fun _ => congrArg StageAnswer.result hLocal.answer⟩
  | rollbackCache requestId n =>
      obtain rfl : requestId = id := by simpa [Kept, StageCall.requestId?] using hKept
      have hLocal : Local _ _ _ (st.rollbackCache c _ n) (st.rollbackCache d _ n) :=
        local_rollbackCache h n
      exact ⟨hLocal.same, fun _ => congrArg StageAnswer.rolledBack hLocal.answer⟩
  | replayAcceptedPrefix requestId prefixTokenIds now =>
      obtain rfl : requestId = id := by simpa [Kept, StageCall.requestId?] using hKept
      have hLocal : Local _ _ _ (st.replayAcceptedPrefix c _ prefixTokenIds now)
          (st.replayAcceptedPrefix d _ prefixTokenIds now) := local_replay h prefixTokenIds now
      exact ⟨hLocal.same, fun _ => congrArg StageAnswer.replayed hLocal.answer⟩
  | evict requestId =>
      obtain rfl : requestId = id := by simpa [Kept, StageCall.requestId?] using hKept
      refine ⟨?_, fun _ => congrArg (StageAnswer.evicted ∘ Option.isSome) h⟩
      exact (Dict.get?_erase_self _ _).trans (Dict.get?_erase_self _ _).symm
  | evictIdle now =>
      refine ⟨?_, fun hMine => absurd hMine.symm (Option.some_ne_none id)⟩
      show (Dict.filterKeys _ _).get? id = (Dict.filterKeys _ _).get? id
      simp only [Dict.get?_filterKeys, KVCacheManager.idle, h]
  | evictAll => exact ⟨rfl, fun hMine => absurd hMine.symm (Option.some_ne_none id)⟩

/-- Whatever is called in whatever order, and however the calls fail, a cache that was empty never
holds more handles than it may. -/
theorem capacity_kept (st : Stage P H) (c : KVCacheManager P) (calls : List StageCall) :
    (st.run c.evictAll.1 calls).handles.entries.length ≤ c.maxCachedRequests := by
  have hRun : ∀ c' : KVCacheManager P, Fits c.maxCachedRequests c' →
      Fits c.maxCachedRequests (st.run c' calls) := by
    unfold run
    induction calls with
    | nil => exact fun _ h => h
    | cons i rest ih => exact fun c' h => ih _ (h.serve i)
  exact (hRun c.evictAll.1 ⟨rfl, Nat.zero_le _⟩).2

/-- The call is one for `id`. -/
def mine (id : String) (i : StageCall) : Bool := i.requestId? = some id

theorem outputs_alone (hFits : Fits bound c) (h : c.handles.get? id = d.handles.get? id)
    (calls : List StageCall) :
    outputs st.serve (mine id) c calls = outputs st.serve (mine id) d (st.alone id c calls) := by
  induction calls generalizing c d with
  | nil => rfl
  | cons i rest ih =>
      have hNext : Fits bound (st.serve c i).1 := hFits.serve i
      rw [alone, outputs]
      by_cases hKept : Kept id i
      · have hServed : (st.serve c i).1.handles.get? id = (st.serve d i).1.handles.get? id ∧ _ :=
          serve_congr h hKept
        rw [if_pos hKept, List.singleton_append, outputs, ih hNext hServed.1]
        split
        case isTrue hMine => rw [hServed.2 (of_decide_eq_true hMine)]
        case isFalse => rfl
      · have hOthers : ¬ mine id i = true := fun hMine => hKept (.inl (of_decide_eq_true hMine))
        have hLeft : (st.serve c i).1.handles.get? id = _ := get?_serve_of_other hFits hKept
        rw [if_neg hOthers, if_neg hKept]
        by_cases hLost : st.displaces c id i = true
        · rw [if_pos hLost]
          exact ih hNext (hLeft.trans (if_pos hLost))
        · rw [if_neg hLost, List.nil_append]
          exact ih hNext ((hLeft.trans (if_neg hLost)).trans h)

theorem kept_of_mem_alone {calls : List StageCall} (h : i ∈ st.alone id c calls) : Kept id i := by
  induction calls generalizing c with
  | nil => cases h
  | cons first rest ih =>
      rcases List.mem_append.mp h with hFirst | hRest
      · split at hFirst
        case isTrue hKept =>
          obtain rfl := List.mem_singleton.mp hFirst
          exact hKept
        case isFalse =>
          split at hFirst
          · obtain rfl := List.mem_singleton.mp hFirst
            exact .inr rfl
          · cases hFirst
      · exact ih hRest

/-- In every interleaving of the calls of all requests, each request is answered as in the run of
its own calls and the operator's alone, with the cache cleared wherever a prefill of another request
into the full cache has dropped its handle. -/
theorem sessions_isolated (st : Stage P H) (c : KVCacheManager P) (id : String)
    (calls : List StageCall) :
    let own := st.alone id c.evictAll.1 calls
    (∀ i ∈ own, Kept id i) ∧
      outputs st.serve (mine id) c.evictAll.1 calls =
        outputs st.serve (mine id) c.evictAll.1 own := by
  have hFits : Fits c.maxCachedRequests c.evictAll.1 := ⟨rfl, Nat.zero_le _⟩
  exact ⟨fun _ => kept_of_mem_alone, outputs_alone hFits rfl calls⟩

end Stage

end Prsm.Inference
