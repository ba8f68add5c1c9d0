import Prsm.Epochs.Runner

/-!
# What a step of the epoch runner does

`RunnerMove` lists the steps, with the guards under which each is taken.  The
chain is `Coherent`: epochs are published in the order of their numbers, because
the runner only ever sends a transaction for a number that is next or taken.
-/

namespace Prsm.Epochs

open Foundations Evm Settlement

/-! ## The next epoch of a watermark -/

theorem any_le_nextEpochId (w : EpochWatermark) :
    w.lastEpochId.any (w.nextEpochId ≤ ·) = false := by
  rw [EpochWatermark.nextEpochId]
  cases w.lastEpochId with
  | none => rfl
  | some last => simp

theorem commitEpoch_nextEpochId (lc : LowerCase) (w : EpochWatermark) (ids : List String) :
    w.commitEpoch lc w.nextEpochId ids =
      some ⟨w.consumed ++ (ids.map lc.lower).filter (· ∉ w.consumed), some w.nextEpochId⟩ := by
  rw [EpochWatermark.commitEpoch, any_le_nextEpochId]
  rfl

theorem reconcileFromChain_nextEpochId (lc : LowerCase) (w : EpochWatermark)
    (ids : List String) :
    w.reconcileFromChain lc w.nextEpochId ids true = w.commitEpoch lc w.nextEpochId ids := by
  rw [EpochWatermark.reconcileFromChain, any_le_nextEpochId]
  simp

/-! ## The chain -/

/-- The batches that went into an epoch, in lower case. -/
def PublishTx.batches (lc : LowerCase) (tx : PublishTx) : List String :=
  tx.plan.consumedBatchIds.map lc.lower

/-- Epochs are published in the order of their numbers, and a transaction in
flight, for the next number or for one that is taken, has none of the batches of
earlier epochs. -/
structure PoolChain.Coherent (lc : LowerCase) (chain : PoolChain) : Prop where
  numbered : ∀ (i : Nat) tx, chain.published[i]? = some tx → tx.epochId = i + 1
  pos : ∀ tx ∈ chain.inFlight, 1 ≤ tx.epochId
  le : ∀ tx ∈ chain.inFlight, tx.epochId ≤ chain.published.length + 1
  fresh : ∀ tx ∈ chain.inFlight, ∀ earlier ∈ chain.published, earlier.epochId < tx.epochId →
    ∀ id ∈ tx.batches lc, id ∉ earlier.batches lc

namespace PoolChain.Coherent

variable {lc : LowerCase} {chain : PoolChain}

theorem epochId_le (h : chain.Coherent lc) {tx : PublishTx} (hTx : tx ∈ chain.published) :
    1 ≤ tx.epochId ∧ tx.epochId ≤ chain.published.length := by
  obtain ⟨i, hi⟩ := List.mem_iff_getElem?.mp hTx
  obtain ⟨hLt, -⟩ := List.getElem?_eq_some_iff.mp hi
  have hNumber := h.numbered i tx hi
  omega

theorem epochExists_iff (h : chain.Coherent lc) {epochId : Int} :
    chain.epochExists epochId = true ↔ 1 ≤ epochId ∧ epochId ≤ chain.published.length := by
  simp only [PoolChain.epochExists, List.any_eq_true, decide_eq_true_eq]
  constructor
  · rintro ⟨tx, hTx, rfl⟩
    exact h.epochId_le hTx
  · rintro ⟨hPos, hLe⟩
    have hLt : (epochId - 1).toNat < chain.published.length := by omega
    refine ⟨chain.published[(epochId - 1).toNat], List.getElem_mem hLt, ?_⟩
    have hNumber := h.numbered _ _ (List.getElem?_eq_getElem hLt)
    omega

theorem send (h : chain.Coherent lc) {tx : PublishTx} (hPos : 1 ≤ tx.epochId)
    (hLe : tx.epochId ≤ chain.published.length + 1)
    (hFresh : ∀ earlier ∈ chain.published, earlier.epochId < tx.epochId →
      ∀ id ∈ tx.batches lc, id ∉ earlier.batches lc) : (chain.send tx).Coherent lc where
  numbered := h.numbered
  pos other hOther := by
    rcases List.mem_append.mp hOther with hOld | hNew
    · exact h.pos other hOld
    · obtain rfl := List.mem_singleton.mp hNew
      exact hPos
  le other hOther := by
    rcases List.mem_append.mp hOther with hOld | hNew
    · exact h.le other hOld
    · obtain rfl := List.mem_singleton.mp hNew
      exact hLe
  fresh other hOther := by
    rcases List.mem_append.mp hOther with hOld | hNew
    · exact h.fresh other hOld
    · obtain rfl := List.mem_singleton.mp hNew
      exact hFresh

theorem fail (h : chain.Coherent lc) (i : Nat) : (chain.fail i).Coherent lc where
  numbered := h.numbered
  pos tx hTx := h.pos tx (List.mem_of_mem_eraseIdx hTx)
  le tx hTx := h.le tx (List.mem_of_mem_eraseIdx hTx)
  fresh tx hTx := h.fresh tx (List.mem_of_mem_eraseIdx hTx)

theorem land_cases (h : chain.Coherent lc) {i : Nat} {chain' : PoolChain}
    (hLand : chain.land i = some chain') :
    ∃ tx, chain.inFlight[i]? = some tx ∧
      (chain.epochExists tx.epochId = true ∧ chain' = chain.fail i ∨
        chain.epochExists tx.epochId = false ∧ tx.epochId = chain.published.length + 1 ∧
          chain' = ⟨chain.inFlight.eraseIdx i, chain.published ++ [tx]⟩) := by
  obtain ⟨tx, hTx, hLand⟩ := Option.bind_eq_some_iff.mp hLand
  cases hLand
  refine ⟨tx, hTx, ?_⟩
  have hMem : tx ∈ chain.inFlight := List.mem_of_getElem? hTx
  cases hExists : chain.epochExists tx.epochId with
  | true => exact .inl ⟨rfl, rfl⟩
  | false =>
      have hFree : ¬ (1 ≤ tx.epochId ∧ tx.epochId ≤ chain.published.length) := by
        rw [← h.epochExists_iff, hExists]
        exact Bool.false_ne_true
      have hPos := h.pos tx hMem
      have hLe := h.le tx hMem
      exact .inr ⟨rfl, by omega, rfl⟩

theorem publish (h : chain.Coherent lc) {i : Nat} {tx : PublishTx}
    (hNext : tx.epochId = chain.published.length + 1) :
    PoolChain.Coherent lc ⟨chain.inFlight.eraseIdx i, chain.published ++ [tx]⟩ where
  numbered j other hOther := by
    rw [List.getElem?_append] at hOther
    split at hOther
    · exact h.numbered j other hOther
    · have hLast : j - chain.published.length = 0 ∧ tx = other := by
        simpa [List.getElem?_singleton] using hOther
      obtain ⟨hLast, rfl⟩ := hLast
      omega
  pos other hOther := h.pos other (List.mem_of_mem_eraseIdx hOther)
  le other hOther := by
    have hLe := h.le other (List.mem_of_mem_eraseIdx hOther)
    rw [List.length_append, List.length_singleton]
    omega
  fresh other hOther earlier hEarlier hBefore := by
    have hMem := List.mem_of_mem_eraseIdx hOther
    rcases List.mem_append.mp hEarlier with hOld | hNew
    · exact h.fresh other hMem earlier hOld hBefore
    · obtain rfl := List.mem_singleton.mp hNew
      have hLe := h.le other hMem
      omega

end PoolChain.Coherent

/-! ## The steps -/

section Moves

variable (lc : LowerCase) (codec : AddressCodec) (keccak256 : Keccak)

/-- The watermarks that the first part of a call leaves, in memory and on disk. -/
inductive Recovers (s : Runner) (manifestDir : Option String) (readable : Bool) :
    EpochWatermark → Option EpochWatermark → Prop
  | loaded (hNone : s.adopted lc manifestDir readable = none) :
      Recovers s manifestDir readable (s.watermark lc) s.disk
  | adopted {prior : List String} {w : EpochWatermark} {disk : Option EpochWatermark}
      (hAdopted : s.adopted lc manifestDir readable = some prior)
      (hCommit : (s.watermark lc).commitEpoch lc (s.watermark lc).nextEpochId prior = some w)
      (hDisk : disk = some w ∨ disk = s.disk) : Recovers s manifestDir readable w disk

/-- A call ends, or goes on with a plan for an epoch that does not exist. -/
inductive Starts (s : Runner) (w : EpochWatermark) (args : RunArgs) (available : Int) :
    RunnerCall → Prop
  | stopped : Starts s w args available .idle
  | planned {plan : EmissionEpochPlan} {reward : RewardEpoch}
      (hFree : s.chain.epochExists w.nextEpochId = false)
      (hPlan : Runner.planEpoch lc codec keccak256 w args available = .ok (plan, reward)) :
      Starts s w args available (.planned plan reward args.manifestDir)

inductive RunnerMove (s : Runner) : RunnerInput → Runner → Prop
  | called {args : RunArgs} {available : Int} {readable : Bool} (saved : Bool)
      {w : EpochWatermark} {disk : Option EpochWatermark} {call : RunnerCall}
      (hRecovers : Recovers lc s args.manifestDir readable w disk)
      (hStarts : Starts lc codec keccak256 s w args available call) :
      RunnerMove s (.runEpoch args available readable saved)
        { s with memory := some w, disk := disk, call := call }
  | wrote (written : Bool) {plan : EmissionEpochPlan} {reward : RewardEpoch}
      {manifestDir : Option String} (manifests : Dict (String × Int) Manifest)
      (hCall : s.call = .planned plan reward manifestDir) :
      RunnerMove s (.writeManifest written)
        { s with manifests := manifests, call := .manifestWritten plan reward }
  | notWritten (written : Bool) :
      RunnerMove s (.writeManifest written) { s with call := .idle }
  | sent (outcome : PublishOutcome) {plan : EmissionEpochPlan} {reward : RewardEpoch}
      {call : RunnerCall} (hCall : s.call = .manifestWritten plan reward)
      (hAfter : call = .idle ∨ call = .published plan) :
      RunnerMove s (.publishEpoch outcome)
        { s with chain := s.chain.send (publishTx plan reward), call := call }
  | notSent (outcome : PublishOutcome) :
      RunnerMove s (.publishEpoch outcome) { s with call := .idle }
  | committed (saved : Bool) {plan : EmissionEpochPlan} {w : EpochWatermark}
      {disk : Option EpochWatermark} (hCall : s.call = .published plan)
      (hCommit : (s.watermark lc).commitEpoch lc plan.epochId plan.consumedBatchIds = some w)
      (hDisk : disk = some w ∨ disk = s.disk) :
      RunnerMove s (.commitEpoch saved) { s with memory := some w, disk := disk, call := .idle }
  | nothingNew (saved : Bool) {plan : EmissionEpochPlan} (hCall : s.call = .published plan)
      (hNone : (s.watermark lc).commitEpoch lc plan.epochId plan.consumedBatchIds = none) :
      RunnerMove s (.commitEpoch saved) { s with call := .idle }
  | crashed : RunnerMove s .crash { s with memory := none, call := .idle }
  | landed {i : Nat} {chain : PoolChain} (hLand : s.chain.land i = some chain) :
      RunnerMove s (.land i) { s with chain := chain }
  | failed (i : Nat) : RunnerMove s (.fail i) { s with chain := s.chain.fail i }

variable {lc codec keccak256}

/-- What the outcome of the first part of a call says: the stores, and that a
call that goes on does so with their watermark, for an epoch that does not
exist. -/
structure RecoverSpec (lc : LowerCase) (s : Runner) (manifestDir : Option String) (readable : Bool)
    (outcome : Runner × Except EpochRunAborted EpochWatermark) (w : EpochWatermark)
    (disk : Option EpochWatermark) : Prop where
  recovers : Recovers lc s manifestDir readable w disk
  stores : outcome.1 = { s with memory := some w, disk := disk }
  ok : ∀ w', outcome.2 = .ok w' → w' = w ∧ s.chain.epochExists w.nextEpochId = false

theorem adopt_spec {s : Runner} {manifestDir : Option String} {readable : Bool}
    {prior : List String} (saved : Bool)
    (hPrior : s.adopted lc manifestDir readable = some prior) :
    ∃ w disk, RecoverSpec lc s manifestDir readable (s.adopt lc prior saved) w disk := by
  simp only [Runner.adopt, reconcileFromChain_nextEpochId]
  split
  case h_1 hNone =>
    rw [commitEpoch_nextEpochId] at hNone
    cases hNone
  case h_2 w hCommit =>
    split
    · exact ⟨w, s.disk, .adopted hPrior hCommit (.inr rfl), rfl, fun w' h => by cases h⟩
    · split
      · exact ⟨w, some w, .adopted hPrior hCommit (.inl rfl), rfl, fun w' h => by cases h⟩
      case isFalse hFree =>
        refine ⟨w, some w, .adopted hPrior hCommit (.inl rfl), rfl, fun w' h => ?_⟩
        cases h
        exact ⟨rfl, Bool.not_eq_true _ ▸ hFree⟩

theorem recover_spec (s : Runner) (manifestDir : Option String) (readable saved : Bool) :
    ∃ w disk, RecoverSpec lc s manifestDir readable (s.recover lc manifestDir readable saved) w
      disk := by
  unfold Runner.recover
  split
  case isTrue hFree =>
    refine ⟨s.watermark lc, s.disk, .loaded ?_, rfl, fun w' h => ?_⟩
    · rw [Runner.adopted, if_pos (.inr hFree)]
    · cases h
      exact ⟨rfl, hFree⟩
  case isFalse =>
    split
    case isTrue hCold =>
      refine ⟨s.watermark lc, s.disk, .loaded ?_, rfl, fun w' h => by cases h⟩
      rw [Runner.adopted, if_pos (.inl hCold)]
    case isFalse =>
      split
      case h_1 hNone =>
        exact ⟨s.watermark lc, s.disk, .loaded hNone, rfl, fun w' h => by cases h⟩
      case h_2 prior hPrior => exact adopt_spec saved hPrior

theorem move_of_runnerStep {s s' : Runner} {i : RunnerInput}
    (h : runnerStep lc codec keccak256 s i = some s') :
    RunnerMove lc codec keccak256 s i s' := by
  cases i with
  | runEpoch args available readable saved =>
      simp only [runnerStep] at h
      split at h
      case h_2 => cases h
      case h_1 hIdle =>
        obtain ⟨w, disk, hSpec⟩ := @recover_spec lc s args.manifestDir readable saved
        generalize s.recover lc args.manifestDir readable saved = outcome at h hSpec
        obtain ⟨stores, result⟩ := outcome
        obtain ⟨hRecovers, rfl, hOk⟩ := hSpec
        cases result with
        | error aborted =>
            cases h
            exact hIdle ▸ .called saved hRecovers .stopped
        | ok w' =>
            obtain ⟨rfl, hFree⟩ := hOk w' rfl
            simp only at h
            split at h
            case h_1 =>
              cases h
              exact hIdle ▸ .called saved hRecovers .stopped
            case h_2 plan reward hPlan =>
              split at h
              · cases h
                exact hIdle ▸ .called saved hRecovers .stopped
              · cases h
                exact .called saved hRecovers (.planned hFree hPlan)
  | writeManifest written =>
      simp only [runnerStep] at h
      split at h
      case h_2 => cases h
      case h_1 plan reward manifestDir hCall =>
        split at h
        · cases h
          cases manifestDir with
          | none => exact .wrote written s.manifests hCall
          | some dir => exact .wrote written _ hCall
        · cases h
          exact .notWritten written
  | publishEpoch outcome =>
      simp only [runnerStep] at h
      split at h
      case h_2 => cases h
      case h_1 plan reward hCall =>
        cases outcome with
        | returned =>
            cases h
            exact .sent _ hCall (.inr rfl)
        | raisedAfterSending =>
            cases h
            exact .sent _ hCall (.inl rfl)
        | raisedBeforeSending =>
            cases h
            exact .notSent _
  | commitEpoch saved =>
      simp only [runnerStep] at h
      split at h
      case h_2 => cases h
      case h_1 plan hCall =>
        split at h
        case h_1 hNone =>
          cases h
          exact .nothingNew saved hCall hNone
        case h_2 w hCommit =>
          cases h
          refine .committed saved hCall hCommit ?_
          cases saved with
          | false => exact .inr rfl
          | true => exact .inl rfl
  | crash =>
      cases h
      exact .crashed
  | land i =>
      obtain ⟨chain, hLand, h⟩ := Option.bind_eq_some_iff.mp h
      cases h
      exact .landed hLand
  | fail i =>
      cases h
      exact .failed i

end Moves

theorem planEpoch_spec {lc : LowerCase} {codec : AddressCodec} {keccak256 : Keccak}
    {w : EpochWatermark} {args : RunArgs} {available : Int}
    {plan : EmissionEpochPlan} {reward : RewardEpoch}
    (h : Runner.planEpoch lc codec keccak256 w args available = .ok (plan, reward)) :
    plan.epochId = w.nextEpochId ∧ PlanSpec codec plan ∧ plan.consumedBatchIds ≠ [] ∧
      ∀ id ∈ plan.consumedBatchIds, Attributed codec lc.lower args.batches
        (w.consumed.map lc.lower) plan.contributionWei id := by
  unfold Runner.planEpoch at h
  split at h
  · cases h
  split at h
  · cases h
  split at h
  · cases h
  case h_2 found hPlan =>
    split at h
    · cases h
    split at h
    · cases h
      obtain ⟨hSome, hAttributed⟩ := buildEmissionEpoch_consumed hPlan
      obtain ⟨hId, -, hSpec⟩ := buildEmissionEpoch_spec hPlan
      exact ⟨hId, hSpec, hSome, hAttributed⟩
    · cases h

end Prsm.Epochs
