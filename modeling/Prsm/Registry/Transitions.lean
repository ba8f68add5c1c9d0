import Prsm.Registry.Operations
import Prsm.Foundations.Machine

/-!
# What a successful registry transaction can do

`Transition` lists the six kinds of change a transaction makes, each with the
checks it has passed, and `call_transition` shows that there are no others.
Every result about runs of the registry is proved from these six cases; the
functions themselves are unfolded only here and in the statements about their
errors.
-/

namespace Prsm.Registry

open Foundations Evm

variable (keccak256 : Keccak)

/-- The arguments of a commit call, with the attestation that reaches
`_commitBatch`. -/
def Call.commitArgs? : Call → Option CommitArgs
  | .commitBatch args => some { args with attestationCommitment := 0 }
  | .commitBatchWithAttestation args => some args
  | _ => none

/-- The setters of governance and the transfer of ownership. -/
def Call.reconfigures : Call → Bool
  | .setEscrowPool _ | .setStakeBond _ | .setSignatureVerifier _
  | .setSettlementLookbackWindow _ | .setChallengeWindowSeconds _ | .ownership _ => true
  | .commitBatch _ | .commitBatchWithAttestation _ | .finalizeBatch _ | .challengeReceipt ..
  | .pause | .unpause => false

variable {c : Call} {args : CommitArgs} {batchId : Bytes32} {b : Batch}

theorem Call.commitArgs?_of_reconfigures (h : c.reconfigures = true) :
    c.commitArgs? = none := by
  cases c with
  | commitBatch => cases h
  | commitBatchWithAttestation => cases h
  | _ => rfl

/-- The fields that only governance writes. -/
structure Settings where
  ownable : Ownable2Step
  challengeWindowSeconds : Nat
  escrowPool : Address
  stakeBond : Address
  signatureVerifier : Address
  settlementLookbackWindowSeconds : Nat

def State.withSettings (s : State) (t : Settings) : State :=
  { s with
    ownable := t.ownable
    challengeWindowSeconds := t.challengeWindowSeconds
    escrowPool := t.escrowPool
    stakeBond := t.stakeBond
    signatureVerifier := t.signatureVerifier
    settlementLookbackWindowSeconds := t.settlementLookbackWindowSeconds }

def State.settings (s : State) : Settings where
  ownable := s.ownable
  challengeWindowSeconds := s.challengeWindowSeconds
  escrowPool := s.escrowPool
  stakeBond := s.stakeBond
  signatureVerifier := s.signatureVerifier
  settlementLookbackWindowSeconds := s.settlementLookbackWindowSeconds

/-- The batch an effect is about, if any. -/
def Effect.batchId? : Effect → Option Bytes32
  | .batchCommitted batchId .. | .batchAttestationCommitted batchId ..
  | .settleFromRequester batchId .. | .batchFinalized batchId ..
  | .receiptChallenged batchId .. | .slashSwallowed batchId .. => some batchId
  | .slash _ _ _ batchId .. => some batchId
  | .challengeWindowUpdated .. | .escrowPoolUpdated .. | .stakeBondUpdated ..
  | .signatureVerifierUpdated .. | .settlementLookbackUpdated .. => none

def validWindow (seconds : Nat) : Prop :=
  minChallengeWindowSeconds ≤ seconds ∧ seconds ≤ maxChallengeWindowSeconds

/-- The changes a transaction can make, with the checks it has passed. -/
inductive Transition (env : Env) (s : State) : Call → State → List Effect → Prop
  | commit {c : Call} {args : CommitArgs} {batchId : Bytes32}
      (hCall : c.commitArgs? = some args)
      (hPaused : s.paused = false)
      (hRequester : args.requester ≠ 0)
      (hRoot : args.merkleRoot ≠ 0)
      (hId : batchId = batchIdOf keccak256 env args (s.providerBatchSequence env.sender))
      (hFresh : (s.batches batchId).status = .nonexistent) :
      Transition env s c (s.commit env args batchId) (commitEffects env args batchId)
  | finalize {batchId : Bytes32} {calls : List Effect}
      (hPaused : s.paused = false)
      (hPending : (s.batches batchId).status = .pending)
      (hWindow : requireWindowElapsed env s batchId = .ok ())
      (hValue : (s.batches batchId).invalidatedValueFTNS ≤ (s.batches batchId).totalValueFTNS)
      (hCalls : settle env batchId (s.batches batchId)
        ((s.batches batchId).totalValueFTNS - (s.batches batchId).invalidatedValueFTNS) =
          .ok calls) :
      Transition env s (.finalizeBatch batchId)
        (s.setBatch batchId { s.batches batchId with status := .finalized })
        (calls ++ [.batchFinalized batchId (s.batches batchId).provider
          ((s.batches batchId).totalValueFTNS - (s.batches batchId).invalidatedValueFTNS)
          (s.batches batchId).invalidatedValueFTNS (uint64 env.timestamp)])
  | challenge {batchId : Bytes32} {leaf : ReceiptLeaf} {merkleProof : List Bytes32}
      {reason : ReasonCode} {auxData : AuxData} {calls : List Effect}
      (hPaused : s.paused = false)
      (hPending : (s.batches batchId).status = .pending)
      (hWindow : requireWindowOpen env s batchId = .ok ())
      (hNew : s.invalidatedReceipts batchId (hashLeaf keccak256 leaf) = false)
      (hProof : MerkleProof.verify keccak256 merkleProof (s.batches batchId).merkleRoot
        (hashLeaf keccak256 leaf) = true)
      (hProven : dispatchChallenge keccak256 env s batchId leaf reason auxData = .ok true)
      (hCalls : slashProvider env batchId (s.batches batchId) reason
        (hashLeaf keccak256 leaf) = .ok calls) :
      Transition env s (.challengeReceipt batchId leaf merkleProof reason auxData)
        (s.invalidate batchId (hashLeaf keccak256 leaf) leaf.valueFtns)
        (.receiptChallenged batchId (hashLeaf keccak256 leaf) env.sender reason leaf.valueFtns ::
          calls)
  | reconfigure {c : Call} {t : Settings} {effects : List Effect}
      (hCall : c.reconfigures = true)
      (hWindow : t.challengeWindowSeconds = s.challengeWindowSeconds ∨
        validWindow t.challengeWindowSeconds)
      (hEffects : ∀ e ∈ effects, e.batchId? = none) :
      Transition env s c (s.withSettings t) effects
  | pause (hPaused : s.paused = false) :
      Transition env s .pause { s with paused := true, pauseStartedAt := env.timestamp } []
  | unpause (hPaused : s.paused = true) (hTime : s.pauseStartedAt ≤ env.timestamp) :
      Transition env s .unpause
        { s with
          paused := false
          totalPausedSeconds := s.totalPausedSeconds + (env.timestamp - s.pauseStartedAt)
          pauseStartedAt := 0 }
        []

variable {keccak256} {env : Env} {s s' : State} {effects : List Effect}

theorem commitCore_eq_ok
    (h : commitCore keccak256 env s args = .ok (s', effects)) :
    args.requester ≠ 0 ∧ args.merkleRoot ≠ 0 ∧
      ∃ batchId, batchId = batchIdOf keccak256 env args (s.providerBatchSequence env.sender) ∧
        (s.batches batchId).status = .nonexistent ∧
        s' = s.commit env args batchId ∧ effects = commitEffects env args batchId := by
  simp only [commitCore, bind_eq_ok_iff, require_eq_ok_iff, checkedAdd_eq_ok_iff, pure_eq_ok_iff,
    Prod.mk.injEq] at h
  obtain ⟨-, hRequester, -, hRoot, -, -, -, -, -, -, -, hFresh, hState, hEffects⟩ := h
  exact ⟨hRequester, hRoot, _, rfl, hFresh, hState.symm, hEffects.symm⟩

theorem requirePending_eq_ok_iff {u : Unit} :
    requirePending s batchId = .ok u ↔ (s.batches batchId).status = .pending := by
  simp only [requirePending, bind_eq_ok_iff, require_eq_ok_iff]
  constructor
  · rintro ⟨-, -, hPending⟩
    exact hPending
  · intro hPending
    refine ⟨(), ?_, hPending⟩
    rw [hPending]
    exact BatchStatus.noConfusion

theorem state_whenNotPaused_eq_ok_iff {u : Unit} :
    s.whenNotPaused = .ok u ↔ s.paused = false := by
  simp [State.whenNotPaused]

theorem finalizeBatch_transition
    (h : finalizeBatch env s batchId = .ok (s', effects)) :
    Transition keccak256 env s (.finalizeBatch batchId) s' effects := by
  simp only [finalizeBatch, bind_eq_ok_iff, state_whenNotPaused_eq_ok_iff,
    requirePending_eq_ok_iff, checkedSub_eq_ok_iff, pure_eq_ok_iff, Prod.mk.injEq] at h
  obtain ⟨-, hPaused, -, hPending, ⟨⟩, hWindow, finalValue, ⟨hValue, rfl⟩, calls, hCalls, rfl,
    rfl⟩ := h
  exact .finalize hPaused hPending hWindow hValue hCalls

theorem challengeReceipt_transition {leaf : ReceiptLeaf}
    {merkleProof : List Bytes32} {reason : ReasonCode} {auxData : AuxData}
    (h : challengeReceipt keccak256 env s batchId leaf merkleProof reason auxData =
      .ok (s', effects)) :
    Transition keccak256 env s (.challengeReceipt batchId leaf merkleProof reason auxData)
      s' effects := by
  simp only [challengeReceipt, bind_eq_ok_iff, state_whenNotPaused_eq_ok_iff,
    requirePending_eq_ok_iff, require_eq_ok_iff, checkedAdd_eq_ok_iff, pure_eq_ok_iff,
    Prod.mk.injEq] at h
  obtain ⟨-, hPaused, -, hPending, ⟨⟩, hWindow, -, hNew, -, hProof, proven, hDispatch, -, rfl,
    -, -, calls, hCalls, rfl, rfl⟩ := h
  exact .challenge hPaused hPending hWindow hNew hProof hDispatch hCalls

theorem call_transition (h : call keccak256 env s c = .ok (s', effects)) :
    Transition keccak256 env s c s' effects := by
  cases c with
  | commitBatch args =>
      simp only [call, commitBatch, bind_eq_ok_iff, state_whenNotPaused_eq_ok_iff] at h
      obtain ⟨-, hPaused, hCore⟩ := h
      obtain ⟨hRequester, hRoot, batchId, hId, hFresh, rfl, rfl⟩ := commitCore_eq_ok hCore
      exact .commit rfl hPaused hRequester hRoot hId hFresh
  | commitBatchWithAttestation args =>
      simp only [call, commitBatchWithAttestation, bind_eq_ok_iff,
        state_whenNotPaused_eq_ok_iff] at h
      obtain ⟨-, hPaused, hCore⟩ := h
      obtain ⟨hRequester, hRoot, batchId, hId, hFresh, rfl, rfl⟩ := commitCore_eq_ok hCore
      exact .commit rfl hPaused hRequester hRoot hId hFresh
  | finalizeBatch batchId => exact finalizeBatch_transition h
  | challengeReceipt batchId leaf merkleProof reason auxData =>
      exact challengeReceipt_transition h
  | setEscrowPool newPool =>
      simp only [call, setEscrowPool, bind_eq_ok_iff, pure_eq_ok_iff, Prod.mk.injEq] at h
      obtain ⟨-, -, -, -, rfl, rfl⟩ := h
      exact .reconfigure (t := { s.settings with escrowPool := newPool }) rfl (.inl rfl)
        (by simp [Effect.batchId?])
  | setStakeBond newBond =>
      simp only [call, setStakeBond, bind_eq_ok_iff, pure_eq_ok_iff, Prod.mk.injEq] at h
      obtain ⟨-, -, -, -, rfl, rfl⟩ := h
      exact .reconfigure (t := { s.settings with stakeBond := newBond }) rfl (.inl rfl)
        (by simp [Effect.batchId?])
  | setSignatureVerifier newVerifier =>
      simp only [call, setSignatureVerifier, bind_eq_ok_iff, pure_eq_ok_iff, Prod.mk.injEq] at h
      obtain ⟨-, -, -, -, rfl, rfl⟩ := h
      exact .reconfigure (t := { s.settings with signatureVerifier := newVerifier }) rfl (.inl rfl)
        (by simp [Effect.batchId?])
  | setSettlementLookbackWindow newSeconds =>
      simp only [call, setSettlementLookbackWindow, bind_eq_ok_iff, pure_eq_ok_iff,
        Prod.mk.injEq] at h
      obtain ⟨-, -, -, -, rfl, rfl⟩ := h
      exact .reconfigure (t := { s.settings with settlementLookbackWindowSeconds := newSeconds })
        rfl (.inl rfl) (by simp [Effect.batchId?])
  | setChallengeWindowSeconds newSeconds =>
      simp only [call, setChallengeWindowSeconds, bind_eq_ok_iff, require_eq_ok_iff,
        pure_eq_ok_iff, Prod.mk.injEq] at h
      obtain ⟨-, -, -, hBounds, rfl, rfl⟩ := h
      exact .reconfigure (t := { s.settings with challengeWindowSeconds := newSeconds }) rfl
        (.inr hBounds) (by simp [Effect.batchId?])
  | pause =>
      simp only [call, pause, bind_eq_ok_iff, state_whenNotPaused_eq_ok_iff, pure_eq_ok_iff,
        Prod.mk.injEq] at h
      obtain ⟨-, -, -, hPaused, rfl, rfl⟩ := h
      exact .pause hPaused
  | unpause =>
      simp only [call, unpause, bind_eq_ok_iff, checkedSub_eq_ok_iff, checkedAdd_eq_ok_iff,
        raise_eq_ok_iff, whenPaused_eq_ok_iff, pure_eq_ok_iff, Prod.mk.injEq] at h
      obtain ⟨-, -, -, ⟨hTime, rfl⟩, -, ⟨-, rfl⟩, -, hPaused, rfl, rfl⟩ := h
      exact .unpause hPaused hTime
  | ownership ownershipCall =>
      simp only [call, bind_eq_ok_iff, pure_eq_ok_iff, Prod.mk.injEq] at h
      obtain ⟨ownable, -, rfl, rfl⟩ := h
      exact .reconfigure (t := { s.settings with ownable := ownable }) rfl (.inl rfl) (by simp)

/-! ## The view of a single batch -/

@[simp] theorem commit_batches :
    (s.commit env args batchId).batches =
      Function.update s.batches batchId (s.newBatch env args) := rfl

@[simp] theorem setBatch_batches :
    (s.setBatch batchId b).batches = Function.update s.batches batchId b := rfl

@[simp] theorem invalidate_batches {leafHash : Bytes32} {value : Nat} :
    (s.invalidate batchId leafHash value).batches =
      Function.update s.batches batchId
        { s.batches batchId with
          invalidatedValueFTNS := (s.batches batchId).invalidatedValueFTNS + value } := rfl

/-- A settlement call, by the pool it goes to, the requester who pays, the
recipient and the amount. -/
structure Settlement where
  pool : Address
  requester : Address
  recipient : Address
  amount : Nat

/-- A successful challenge, by the leaf hash it invalidates and the leaf's
value. -/
structure Invalidation where
  receiptLeafHash : Bytes32
  value : Nat

def Effect.settlement? (batchId : Bytes32) : Effect → Option Settlement
  | .settleFromRequester settled pool requester recipient amount =>
      if settled = batchId then some ⟨pool, requester, recipient, amount⟩ else none
  | _ => none

def Effect.invalidation? (batchId : Bytes32) : Effect → Option Invalidation
  | .receiptChallenged challenged leafHash _ _ value =>
      if challenged = batchId then some ⟨leafHash, value⟩ else none
  | _ => none

/-- The settlement calls made for a batch, in order. -/
def settlements (batchId : Bytes32) (log : List Effect) : List Settlement :=
  log.filterMap (Effect.settlement? batchId)

/-- The leaves of a batch that were successfully challenged, in order. -/
def invalidations (batchId : Bytes32) (log : List Effect) : List Invalidation :=
  log.filterMap (Effect.invalidation? batchId)

@[simp] theorem settlements_append (batchId : Bytes32) (log log' : List Effect) :
    settlements batchId (log ++ log') = settlements batchId log ++ settlements batchId log' :=
  List.filterMap_append

@[simp] theorem invalidations_append (batchId : Bytes32) (log log' : List Effect) :
    invalidations batchId (log ++ log') =
      invalidations batchId log ++ invalidations batchId log' :=
  List.filterMap_append

theorem readings_of_other (batchId : Bytes32) (effects : List Effect)
    (h : ∀ e ∈ effects, e.batchId? ≠ some batchId) :
    settlements batchId effects = [] ∧ invalidations batchId effects = [] := by
  have hNone : ∀ e ∈ effects,
      e.settlement? batchId = none ∧ e.invalidation? batchId = none := by
    intro e he
    have hOther := h e he
    cases e <;> simp_all [Effect.settlement?, Effect.invalidation?, Effect.batchId?]
  exact ⟨List.filterMap_eq_nil_iff.mpr fun e he => (hNone e he).1,
    List.filterMap_eq_nil_iff.mpr fun e he => (hNone e he).2⟩

theorem commitEffects_batchId? (env : Env) (args : CommitArgs) (batchId : Bytes32) :
    ∀ e ∈ commitEffects env args batchId,
      e.batchId? = some batchId ∧ e.settlement? batchId = none ∧
        e.invalidation? batchId = none := by
  intro e he
  simp only [commitEffects, List.mem_cons] at he
  rcases he with rfl | he
  · exact ⟨rfl, rfl, rfl⟩
  · split at he
    · simp only [List.mem_singleton] at he
      subst he
      exact ⟨rfl, rfl, rfl⟩
    · cases he

theorem settle_eq_ok {finalValue : Nat} {calls : List Effect}
    (h : settle env batchId b finalValue = .ok calls) :
    (finalValue = 0 ∧ calls = []) ∨
      (0 < finalValue ∧ calls =
        [.settleFromRequester batchId b.escrowPoolAtCommit b.requester b.provider finalValue]) := by
  unfold settle at h
  split at h
  · simp only [bind_eq_ok_iff, require_eq_ok_iff, pure_eq_ok_iff] at h
    obtain ⟨-, -, -, -, rfl⟩ := h
    exact .inr ⟨‹_›, rfl⟩
  · simp only [pure_eq_ok_iff] at h
    exact .inl ⟨by omega, h.symm⟩

theorem slashProvider_eq_ok {leafHash : Bytes32} {reason : ReasonCode}
    {calls : List Effect} (h : slashProvider env batchId b reason leafHash = .ok calls) :
    calls = [] ∨
      calls = [.slash b.stakeBondAtCommit b.provider env.sender batchId reason leafHash] ∨
      calls = [.slashSwallowed batchId b.provider env.sender reason] := by
  unfold slashProvider at h
  split at h
  · simp only [bind_eq_ok_iff, require_eq_ok_iff, pure_eq_ok_iff] at h
    obtain ⟨-, -, rfl⟩ := h
    split
    · exact .inr (.inl rfl)
    · exact .inr (.inr rfl)
  · simp only [pure_eq_ok_iff] at h
    exact .inl h.symm

/-- What a transaction does to one batch id: to its record, to its invalidated
leaves, and in the settlements and invalidations it logs. -/
inductive BatchChange (env : Env) (s : State) (c : Call) (s' : State) (effects : List Effect)
    (batchId : Bytes32) : Prop
  | same (hSame : s'.batches batchId = s.batches batchId)
      (hLeaves : s'.invalidatedReceipts batchId = s.invalidatedReceipts batchId)
      (hSettlements : settlements batchId effects = [])
      (hInvalidations : invalidations batchId effects = [])
  | created {args : CommitArgs} (hPaused : s.paused = false)
      (hFresh : (s.batches batchId).status = .nonexistent)
      (hNew : s'.batches batchId = s.newBatch env args)
      (hLeaves : s'.invalidatedReceipts batchId = s.invalidatedReceipts batchId)
      (hSettlements : settlements batchId effects = [])
      (hInvalidations : invalidations batchId effects = [])
      (hCall : c.commitArgs? = some args)
  | finalized (hPending : (s.batches batchId).status = .pending)
      (hNew : s'.batches batchId = { s.batches batchId with status := .finalized })
      (hLeaves : s'.invalidatedReceipts batchId = s.invalidatedReceipts batchId)
      (hValue : (s.batches batchId).invalidatedValueFTNS ≤ (s.batches batchId).totalValueFTNS)
      (hSettlements : settlements batchId effects = [] ∨
        settlements batchId effects =
          [⟨(s.batches batchId).escrowPoolAtCommit, (s.batches batchId).requester,
            (s.batches batchId).provider,
            (s.batches batchId).totalValueFTNS - (s.batches batchId).invalidatedValueFTNS⟩])
      (hInvalidations : invalidations batchId effects = [])
  | invalidated {leafHash : Bytes32} {leaf : ReceiptLeaf} {merkleProof : List Bytes32}
      {reason : ReasonCode} {auxData : AuxData}
      (hPending : (s.batches batchId).status = .pending)
      (hNew : s'.batches batchId = { s.batches batchId with
        invalidatedValueFTNS := (s.batches batchId).invalidatedValueFTNS + leaf.valueFtns })
      (hUnseen : s.invalidatedReceipts batchId leafHash = false)
      (hLeaves : s'.invalidatedReceipts batchId =
        Function.update (s.invalidatedReceipts batchId) leafHash true)
      (hSettlements : settlements batchId effects = [])
      (hInvalidations : invalidations batchId effects = [⟨leafHash, leaf.valueFtns⟩])
      (hCall : c = .challengeReceipt batchId leaf merkleProof reason auxData)

@[simp] theorem commit_invalidatedReceipts :
    (s.commit env args batchId).invalidatedReceipts = s.invalidatedReceipts := by
  simp only [State.commit, State.trackExpiry]
  split <;> rfl

theorem Transition.batchChange (h : Transition keccak256 env s c s' effects)
    (batchId : Bytes32) : BatchChange env s c s' effects batchId := by
  cases h with
  | @commit _ args committed hCall hPaused hRequester hRoot hId hFresh =>
      have hEffects := commitEffects_batchId? env args committed
      by_cases hSame : batchId = committed
      · subst hSame
        exact .created hPaused hFresh (by rw [commit_batches, Function.update_self]) (by simp)
          (List.filterMap_eq_nil_iff.mpr fun e he => (hEffects e he).2.1)
          (List.filterMap_eq_nil_iff.mpr fun e he => (hEffects e he).2.2) hCall
      · obtain ⟨hSettlements, hInvalidations⟩ := readings_of_other batchId _
          fun e he hId => hSame (Option.some.inj ((hEffects e he).1.symm.trans hId)).symm
        exact .same (by simp [hSame]) (by simp) hSettlements hInvalidations
  | @finalize committed calls hPaused hPending hWindow hValue hCalls =>
      by_cases hSame : batchId = committed
      · subst hSame
        refine .finalized hPending (by rw [setBatch_batches, Function.update_self]) rfl hValue ?_ ?_
        · rcases settle_eq_ok hCalls with ⟨-, rfl⟩ | ⟨-, rfl⟩
          · exact .inl rfl
          · exact .inr (by simp [settlements, Effect.settlement?])
        · rcases settle_eq_ok hCalls with ⟨-, rfl⟩ | ⟨-, rfl⟩ <;> rfl
      · obtain ⟨hSettlements, hInvalidations⟩ := readings_of_other batchId
          (calls ++ [.batchFinalized committed _ _ _ _]) (by
            intro e he hId
            rcases settle_eq_ok hCalls with ⟨-, rfl⟩ | ⟨-, rfl⟩ <;>
              simp at he <;> rcases he with rfl | rfl <;>
              exact hSame (Option.some.inj hId).symm)
        exact .same (by simp [hSame]) rfl hSettlements hInvalidations
  | @challenge committed leaf merkleProof reason auxData calls hPaused hPending hWindow hNew
      hProof hProven hCalls =>
      by_cases hSame : batchId = committed
      · subst hSame
        refine .invalidated hPending (by rw [invalidate_batches, Function.update_self]) hNew
          (by simp [State.invalidate]) ?_ ?_ rfl
        · rcases slashProvider_eq_ok hCalls with rfl | rfl | rfl <;> rfl
        · rcases slashProvider_eq_ok hCalls with rfl | rfl | rfl <;>
            simp [invalidations, Effect.invalidation?]
      · obtain ⟨hSettlements, hInvalidations⟩ := readings_of_other batchId
          (.receiptChallenged committed _ _ _ _ :: calls) (by
            intro e he hId
            rcases slashProvider_eq_ok hCalls with rfl | rfl | rfl <;>
              simp at he <;> rcases he with rfl | rfl <;>
              exact hSame (Option.some.inj hId).symm)
        exact .same (by simp [hSame]) (by simp [State.invalidate, hSame]) hSettlements
          hInvalidations
  | reconfigure hCall hWindow hEffects =>
      obtain ⟨hSettlements, hInvalidations⟩ := readings_of_other batchId _
        fun e he hId => by
          rw [hEffects e he] at hId
          cases hId
      exact .same rfl rfl hSettlements hInvalidations
  | pause hPaused => exact .same rfl rfl rfl rfl
  | unpause hPaused hTime => exact .same rfl rfl rfl rfl

end Prsm.Registry
