import Prsm.Epochs.RunnerMoves

/-!
# Every batch in one epoch

The watermark should have recorded the batches of the epochs up to its last one
and no others, and no batch should be in two published epochs.  Both hold for as
long as the watermark records for an epoch what was published under its number.
`run_epoch` breaks that when it advances the watermark over a transaction that
has not landed, or adopts an epoch by a manifest of a later plan.
-/

namespace Prsm.Epochs

open Foundations Evm Settlement

section Property

variable (lc : LowerCase)

/-- No batch is in two published epochs.  A watermark, in memory or on disk, has
recorded a batch exactly when the batch is in one published epoch of those up to
its last. -/
structure ExactlyOnce (s : Runner) : Prop where
  once : ∀ id, (s.chain.published.filter fun tx => id ∈ tx.batches lc).length ≤ 1
  recorded : ∀ w, s.memory = some w ∨ s.disk = some w → ∀ id, id ∈ w.consumed ↔
    (s.chain.published.filter fun tx =>
      tx.epochId < w.nextEpochId ∧ id ∈ tx.batches lc).length = 1

/-- A watermark after whose last epoch nothing is published has recorded exactly
the batches that are in one published epoch. -/
def SettledExactly (s : Runner) : Prop :=
  ∀ w, s.memory = some w ∨ s.disk = some w → s.chain.epochExists w.nextEpochId = false →
    ∀ id, id ∈ w.consumed ↔
      (s.chain.published.filter fun tx => id ∈ tx.batches lc).length = 1

/-- What a watermark would record for its next epoch is what was published under
that number, apart from batches that it has recorded before. -/
structure Agrees (chain : PoolChain) (w : EpochWatermark) (ids : List String) : Prop where
  complete : ∀ tx ∈ chain.published, tx.epochId = w.nextEpochId →
    ∀ id ∈ tx.batches lc, id ∈ ids.map lc.lower
  sound : ∀ id ∈ ids.map lc.lower, id ∈ w.consumed ∨
    ∃ tx ∈ chain.published, tx.epochId = w.nextEpochId ∧ id ∈ tx.batches lc

/-- The watermark advances over an epoch with the batches that were published,
when a call adopts the epoch and when it has published it itself. -/
def RecordsPublished (s : Runner) : RunnerInput → Prop
  | .runEpoch args _ readable _ =>
      ∀ prior ∈ s.adopted lc args.manifestDir readable, Agrees lc s.chain (s.watermark lc) prior
  | .commitEpoch _ =>
      ∀ plan, s.call = .published plan → Agrees lc s.chain (s.watermark lc) plan.consumedBatchIds
  | _ => True

/-- Every provider that a plan counts has an entry in it. -/
def EmissionEpochPlan.PaysAll (plan : EmissionEpochPlan) : Prop :=
  ∀ account ∈ plan.contributionWei.entries.map Prod.fst,
    account ∈ plan.entries.map RewardEntry.account

/-- Every published epoch pays the providers of its batches. -/
def AllPaid (s : Runner) : Prop := ∀ tx ∈ s.chain.published, tx.plan.PaysAll

/-- An epoch is published under a pot that is large enough for its providers. -/
def LandsPaying (s : Runner) : RunnerInput → Prop
  | .land i => ∀ tx ∈ s.chain.inFlight[i]?,
      s.chain.epochExists tx.epochId = false → tx.plan.PaysAll
  | _ => True

end Property

/-! ## Counting epochs -/

theorem eq_of_length_filter_le_one {α : Type} {p : α → Bool} {xs : List α}
    (h : (xs.filter p).length ≤ 1) {a b : α} (ha : a ∈ xs) (hb : b ∈ xs) (hpa : p a = true)
    (hpb : p b = true) : a = b := by
  have ha' : a ∈ xs.filter p := List.mem_filter.mpr ⟨ha, hpa⟩
  have hb' : b ∈ xs.filter p := List.mem_filter.mpr ⟨hb, hpb⟩
  match hFilter : xs.filter p with
  | [] => simp [hFilter] at ha'
  | [c] =>
      rw [hFilter] at ha' hb'
      rw [List.mem_singleton.mp ha', List.mem_singleton.mp hb']
  | _ :: _ :: _ => simp [hFilter] at h

theorem length_filter_eq_one_iff {α : Type} {p q : α → Bool} {xs : List α}
    (h : (xs.filter q).length ≤ 1) (hpq : ∀ x, p x = true → q x = true) :
    (xs.filter p).length = 1 ↔ ∃ x ∈ xs, p x = true := by
  have hLe : (xs.filter p).length ≤ (xs.filter q).length :=
    (List.monotone_filter_right xs hpq).length_le
  rw [← List.length_filter_pos_iff]
  omega

section Watermarks

variable {lc : LowerCase} {chain : PoolChain} {w : EpochWatermark}

/-- A watermark has recorded the batches of the epochs before its next one. -/
def Tracks (lc : LowerCase) (chain : PoolChain) (w : EpochWatermark) : Prop :=
  ∀ id, id ∈ w.consumed ↔
    ∃ tx ∈ chain.published, tx.epochId < w.nextEpochId ∧ id ∈ tx.batches lc

theorem exactlyOnce_iff (lc : LowerCase) (s : Runner) :
    ExactlyOnce lc s ↔
      (∀ id, (s.chain.published.filter fun tx => id ∈ tx.batches lc).length ≤ 1) ∧
        ∀ w, s.memory = some w ∨ s.disk = some w → Tracks lc s.chain w := by
  have hCount : (∀ id, (s.chain.published.filter fun tx => id ∈ tx.batches lc).length ≤ 1) →
      ∀ (w : EpochWatermark) (id : String),
        (s.chain.published.filter fun tx =>
          tx.epochId < w.nextEpochId ∧ id ∈ tx.batches lc).length = 1 ↔
        ∃ tx ∈ s.chain.published, tx.epochId < w.nextEpochId ∧ id ∈ tx.batches lc := by
    intro hOnce w id
    rw [length_filter_eq_one_iff (hOnce id) fun tx hBoth => by simp_all]
    simp only [decide_eq_true_eq]
  constructor
  · intro h
    exact ⟨h.once, fun w hw id => (h.recorded w hw id).trans (hCount h.once w id)⟩
  · rintro ⟨hOnce, hTracks⟩
    exact ⟨hOnce, fun w hw id => (hTracks w hw id).trans (hCount hOnce w id).symm⟩

theorem Tracks.lower_eq (h : Tracks lc chain w) {id : String} (hId : id ∈ w.consumed) :
    lc.lower id = id := by
  obtain ⟨tx, -, -, hBatch⟩ := (h id).mp hId
  obtain ⟨raw, -, rfl⟩ := List.mem_map.mp hBatch
  exact lc.lower_lower raw

theorem Tracks.load (h : Tracks lc chain w) : Tracks lc chain (.load lc (some w)) := by
  intro id
  refine Iff.trans ?_ (h id)
  show id ∈ w.consumed.map lc.lower ↔ id ∈ w.consumed
  constructor
  · intro hMem
    obtain ⟨raw, hRaw, rfl⟩ := List.mem_map.mp hMem
    rw [h.lower_eq hRaw]
    exact hRaw
  · exact fun hMem => List.mem_map.mpr ⟨id, hMem, h.lower_eq hMem⟩

theorem tracks_commitEpoch_iff
    (hOnce : ∀ id, (chain.published.filter fun tx => id ∈ tx.batches lc).length ≤ 1)
    (h : Tracks lc chain w) {ids : List String} {w' : EpochWatermark}
    (hCommit : w.commitEpoch lc w.nextEpochId ids = some w') :
    Tracks lc chain w' ↔ Agrees lc chain w ids := by
  rw [commitEpoch_nextEpochId] at hCommit
  cases hCommit
  have hUpTo : ∀ id, (∃ tx ∈ chain.published, tx.epochId < w.nextEpochId + 1 ∧
        id ∈ tx.batches lc) ↔
      id ∈ w.consumed ∨
        ∃ tx ∈ chain.published, tx.epochId = w.nextEpochId ∧ id ∈ tx.batches lc := by
    intro id
    rw [h id]
    constructor
    · rintro ⟨tx, hTx, hBelow, hId⟩
      rcases Int.lt_or_eq_of_le (Int.lt_add_one_iff.mp hBelow) with hBefore | hLast
      · exact .inl ⟨tx, hTx, hBefore, hId⟩
      · exact .inr ⟨tx, hTx, hLast, hId⟩
    · rintro (⟨tx, hTx, hBefore, hId⟩ | ⟨tx, hTx, hLast, hId⟩)
      · exact ⟨tx, hTx, by omega, hId⟩
      · exact ⟨tx, hTx, by omega, hId⟩
  have hRecorded : ∀ id, id ∈ w.consumed ++ (ids.map lc.lower).filter (· ∉ w.consumed) ↔
      id ∈ w.consumed ∨ id ∈ ids.map lc.lower := by
    intro id
    rw [List.mem_append, List.mem_filter, decide_eq_true_eq]
    by_cases hOld : id ∈ w.consumed <;> simp [hOld]
  have hTracks : Tracks lc chain
        ⟨w.consumed ++ (ids.map lc.lower).filter (· ∉ w.consumed), some w.nextEpochId⟩ ↔
      ∀ id, (id ∈ w.consumed ∨ id ∈ ids.map lc.lower) ↔
        (id ∈ w.consumed ∨
          ∃ tx ∈ chain.published, tx.epochId = w.nextEpochId ∧ id ∈ tx.batches lc) :=
    forall_congr' fun id => Iff.trans (iff_congr (hRecorded id) (hUpTo id)) Iff.rfl
  rw [hTracks]
  constructor
  · intro hSame
    refine ⟨fun tx hTx hLast id hId => ?_, fun id hId => (hSame id).mp (.inr hId)⟩
    rcases (hSame id).mpr (.inr ⟨tx, hTx, hLast, hId⟩) with hOld | hNew
    · -- the batch would be in two epochs
      obtain ⟨earlier, hEarlier, hBefore, hId'⟩ := (h id).mp hOld
      have hEq : earlier = tx := eq_of_length_filter_le_one (hOnce id) hEarlier hTx
        (decide_eq_true hId') (decide_eq_true hId)
      rw [hEq] at hBefore
      omega
    · exact hNew
  · intro hAgrees id
    constructor
    · rintro (hOld | hNew)
      · exact .inl hOld
      · exact hAgrees.sound id hNew
    · rintro (hOld | ⟨tx, hTx, hLast, hId⟩)
      · exact .inl hOld
      · exact .inr (hAgrees.complete tx hTx hLast id hId)

end Watermarks

/-! ## What every run keeps -/

/-- The plan of a call that has one. -/
def RunnerCall.plan? : RunnerCall → Option EmissionEpochPlan
  | .idle => none
  | .planned plan _ _ => some plan
  | .manifestWritten plan _ => some plan
  | .published plan => some plan

/-- The plan of a call is for the next epoch of the watermark, over batches that
the watermark does not know. -/
structure Underway (lc : LowerCase) (s : Runner) (w : EpochWatermark) (plan : EmissionEpochPlan) :
    Prop where
  memory : s.memory = some w
  next : plan.epochId = w.nextEpochId
  some_batch : plan.consumedBatchIds ≠ []
  fresh : ∀ id ∈ plan.consumedBatchIds, lc.lower id ∉ w.consumed
  published_le : (s.chain.published.length : Int) ≤ plan.epochId
  inFlight_le : ∀ tx ∈ s.chain.inFlight, tx.epochId ≤ plan.epochId

structure Coherent (lc : LowerCase) (s : Runner) : Prop where
  chain : s.chain.Coherent lc
  next_pos : ∀ w, s.memory = some w ∨ s.disk = some w → 1 ≤ w.nextEpochId
  next_le : ∀ w, s.memory = some w ∨ s.disk = some w →
    w.nextEpochId ≤ s.chain.published.length + 1
  call : ∀ plan, s.call.plan? = some plan → ∃ w, Underway lc s w plan

/-! ## What a step keeps -/

section Steps

variable {lc : LowerCase} {codec : AddressCodec} {keccak256 : Keccak} {s s' : Runner}

theorem watermark_spec (h : Coherent lc s) (hOnce : ExactlyOnce lc s) :
    Tracks lc s.chain (s.watermark lc) ∧ 1 ≤ (s.watermark lc).nextEpochId ∧
      (s.watermark lc).nextEpochId ≤ s.chain.published.length + 1 := by
  have hTracks := ((exactlyOnce_iff lc s).mp hOnce).2
  cases hMemory : s.memory with
  | some w =>
      rw [Runner.watermark, hMemory]
      exact ⟨hTracks w (.inl hMemory), h.next_pos w (.inl hMemory), h.next_le w (.inl hMemory)⟩
  | none =>
      rw [Runner.watermark, hMemory, Option.getD_none]
      cases hDisk : s.disk with
      | some w =>
          exact ⟨(hTracks w (.inr hDisk)).load, h.next_pos w (.inr hDisk),
            h.next_le w (.inr hDisk)⟩
      | none =>
          refine ⟨fun id => iff_of_false List.not_mem_nil ?_, le_refl 1, ?_⟩
          · rintro ⟨tx, hTx, hBefore, -⟩
            have hPos := (h.chain.epochId_le hTx).1
            have hBefore : tx.epochId < 1 := hBefore
            omega
          · show (1 : Int) ≤ s.chain.published.length + 1
            omega

variable {disk : Option EpochWatermark}

theorem exactlyOnce_store_iff (hOnce : ExactlyOnce lc s) {w : EpochWatermark}
    (hDisk : disk = some w ∨ disk = s.disk) (call : RunnerCall) :
    ExactlyOnce lc { s with memory := some w, disk := disk, call := call } ↔
      Tracks lc s.chain w := by
  obtain ⟨hOnce, hTracks⟩ := (exactlyOnce_iff lc s).mp hOnce
  rw [exactlyOnce_iff]
  constructor
  · exact fun h => h.2 w (.inl rfl)
  · refine fun h => ⟨hOnce, fun other hOther => ?_⟩
    rcases hOther with hMemory | hFile
    · cases hMemory
      exact h
    · rcases hDisk with rfl | rfl
      · cases hFile
        exact h
      · exact hTracks other (.inr hFile)

theorem exactlyOnce_publish (h : Coherent lc s) (hOnce : ExactlyOnce lc s) {i : Nat}
    {tx : PublishTx} (hTx : s.chain.inFlight[i]? = some tx)
    (hNext : tx.epochId = s.chain.published.length + 1) :
    ExactlyOnce lc { s with
      chain := ⟨s.chain.inFlight.eraseIdx i, s.chain.published ++ [tx]⟩ } := by
  obtain ⟨hOnce, hTracks⟩ := (exactlyOnce_iff lc s).mp hOnce
  have hFresh := h.chain.fresh tx (List.mem_of_getElem? hTx)
  rw [exactlyOnce_iff]
  constructor
  · intro id
    show ((s.chain.published ++ [tx]).filter fun tx => id ∈ tx.batches lc).length ≤ 1
    rw [List.filter_append, List.length_append]
    by_cases hId : id ∈ tx.batches lc
    · have hNone : (s.chain.published.filter fun tx => id ∈ tx.batches lc) = [] := by
        refine List.filter_eq_nil_iff.mpr fun earlier hEarlier hBatch => ?_
        have hLe := (h.chain.epochId_le hEarlier).2
        exact hFresh earlier hEarlier (by omega) id hId (of_decide_eq_true hBatch)
      rw [hNone, List.length_nil, zero_add]
      exact List.length_filter_le _ [tx]
    · have hSkip : ([tx].filter fun tx => id ∈ tx.batches lc) = [] := by simp [hId]
      rw [hSkip, List.length_nil, add_zero]
      exact hOnce id
  · intro w hw id
    rw [hTracks w hw id]
    have hLe := h.next_le w hw
    constructor
    · rintro ⟨earlier, hEarlier, hBefore, hId⟩
      exact ⟨earlier, List.mem_append_left _ hEarlier, hBefore, hId⟩
    · rintro ⟨earlier, hEarlier, hBefore, hId⟩
      rcases List.mem_append.mp hEarlier with hOld | hNew
      · exact ⟨earlier, hOld, hBefore, hId⟩
      · obtain rfl := List.mem_singleton.mp hNew
        omega

theorem exactlyOnce_move_iff {i : RunnerInput} (h : Coherent lc s) (hOnce : ExactlyOnce lc s)
    (hMove : RunnerMove lc codec keccak256 s i s') :
    ExactlyOnce lc s' ↔ RecordsPublished lc s i := by
  obtain ⟨hTracks, -, -⟩ := watermark_spec h hOnce
  cases hMove with
  | called saved hRecovers hStarts =>
      cases hRecovers with
      | loaded hNone =>
          rw [exactlyOnce_store_iff hOnce (.inr rfl)]
          refine iff_of_true hTracks fun prior hPrior => ?_
          cases hNone.symm.trans hPrior
      | adopted hAdopted hCommit hDisk =>
          rw [exactlyOnce_store_iff hOnce hDisk, tracks_commitEpoch_iff hOnce.once hTracks hCommit]
          constructor
          · intro hAgrees prior hPrior
            cases hAdopted.symm.trans hPrior
            exact hAgrees
          · exact fun hAll => hAll _ hAdopted
  | committed saved hCall hCommit hDisk =>
      obtain ⟨w, hUnderway⟩ := h.call _ (congrArg RunnerCall.plan? hCall)
      have hWatermark : s.watermark lc = w := by
        rw [Runner.watermark, hUnderway.memory, Option.getD_some]
      rw [hUnderway.next, ← hWatermark] at hCommit
      rw [exactlyOnce_store_iff hOnce hDisk, tracks_commitEpoch_iff hOnce.once hTracks hCommit]
      constructor
      · intro hAgrees plan hPlan
        cases hCall.symm.trans hPlan
        exact hAgrees
      · exact fun hAll => hAll _ hCall
  | nothingNew saved hCall hNone =>
      obtain ⟨w, hUnderway⟩ := h.call _ (congrArg RunnerCall.plan? hCall)
      rw [Runner.watermark, hUnderway.memory, Option.getD_some, hUnderway.next,
        commitEpoch_nextEpochId] at hNone
      cases hNone
  | landed hLand =>
      refine iff_of_true ?_ trivial
      obtain ⟨tx, hTx, ⟨-, rfl⟩ | ⟨-, hNext, rfl⟩⟩ := h.chain.land_cases hLand
      · exact ⟨hOnce.once, hOnce.recorded⟩
      · exact exactlyOnce_publish h hOnce hTx hNext
  | crashed =>
      refine iff_of_true ⟨hOnce.once, fun w hw => hOnce.recorded w (.inr ?_)⟩ trivial
      rcases hw with hMemory | hDisk
      · cases hMemory
      · exact hDisk
  | wrote | notWritten | sent | notSent | failed =>
      exact iff_of_true ⟨hOnce.once, hOnce.recorded⟩ trivial

theorem next_of_recovers (h : Coherent lc s) (hOnce : ExactlyOnce lc s)
    {manifestDir : Option String} {readable : Bool} {w : EpochWatermark}
    (hRecovers : Recovers lc s manifestDir readable w disk) :
    1 ≤ w.nextEpochId ∧ w.nextEpochId ≤ s.chain.published.length + 1 ∧
      (disk = some w ∨ disk = s.disk) := by
  obtain ⟨-, hPos, hLe⟩ := watermark_spec h hOnce
  cases hRecovers with
  | loaded hNone => exact ⟨hPos, hLe, .inr rfl⟩
  | adopted hAdopted hCommit hDisk =>
      rw [commitEpoch_nextEpochId] at hCommit
      have hExists : s.chain.epochExists (s.watermark lc).nextEpochId = true := by
        rw [Runner.adopted] at hAdopted
        split at hAdopted
        · cases hAdopted
        case isFalse hBoth => simpa using (not_or.mp hBoth).2
      have hTaken := (h.chain.epochExists_iff.mp hExists).2
      cases hCommit
      refine ⟨?_, ?_, hDisk⟩
      · show 1 ≤ (s.watermark lc).nextEpochId + 1
        omega
      · show (s.watermark lc).nextEpochId + 1 ≤ s.chain.published.length + 1
        omega

theorem next_of_store {P : EpochWatermark → Prop}
    (h : ∀ w, s.memory = some w ∨ s.disk = some w → P w) {w : EpochWatermark}
    (hDisk : disk = some w ∨ disk = s.disk) (hw : P w) :
    ∀ other, some w = some other ∨ disk = some other → P other := by
  intro other hOther
  rcases hOther with hMemory | hFile
  · cases hMemory
    exact hw
  · rcases hDisk with rfl | rfl
    · cases hFile
      exact hw
    · exact h other (.inr hFile)

theorem underway_of_starts (h : Coherent lc s) {w : EpochWatermark} (hPos : 1 ≤ w.nextEpochId)
    (hLe : w.nextEpochId ≤ s.chain.published.length + 1) {args : RunArgs} {available : Int}
    {call : RunnerCall} (hStarts : Starts lc codec keccak256 s w args available call)
    (disk : Option EpochWatermark) {plan : EmissionEpochPlan} (hPlan : call.plan? = some plan) :
    Underway lc { s with memory := some w, disk := disk, call := call } w plan := by
  cases hStarts with
  | stopped => cases hPlan
  | planned hFree hOk =>
      cases hPlan
      obtain ⟨hNext, -, hSome, hAttributed⟩ := planEpoch_spec hOk
      have hLast : ¬ (1 ≤ w.nextEpochId ∧ w.nextEpochId ≤ s.chain.published.length) := by
        rw [← h.chain.epochExists_iff, hFree]
        exact Bool.false_ne_true
      refine ⟨rfl, hNext, hSome, fun id hId hKnown => ?_, ?_, fun tx hTx => ?_⟩
      · have hFresh := (hAttributed id hId).fresh
        exact hFresh (List.mem_map.mpr ⟨lc.lower id, hKnown, lc.lower_lower id⟩)
      · show (s.chain.published.length : Int) ≤ _
        omega
      · have hTxLe := h.chain.le tx hTx
        omega

theorem next_le_of_commit (h : Coherent lc s) {w : EpochWatermark}
    {plan : EmissionEpochPlan} (hUnderway : Underway lc s w plan)
    (hAgrees : Agrees lc s.chain w plan.consumedBatchIds) :
    w.nextEpochId ≤ s.chain.published.length := by
  obtain ⟨id, hId⟩ := List.exists_mem_of_ne_nil _ hUnderway.some_batch
  rcases hAgrees.sound _ (List.mem_map_of_mem hId) with hKnown | ⟨tx, hTx, hNext, -⟩
  · exact absurd hKnown (hUnderway.fresh id hId)
  · rw [← hNext]
    exact (h.chain.epochId_le hTx).2

theorem coherent_move {i : RunnerInput} (h : Coherent lc s) (hOnce : ExactlyOnce lc s)
    (hMove : RunnerMove lc codec keccak256 s i s') (hOnce' : ExactlyOnce lc s') :
    Coherent lc s' := by
  have hExact := (exactlyOnce_move_iff h hOnce hMove).mp hOnce'
  obtain ⟨hTracks, -, -⟩ := watermark_spec h hOnce
  cases hMove with
  | called saved hRecovers hStarts =>
      obtain ⟨hPos, hLe, hDisk⟩ := next_of_recovers h hOnce hRecovers
      refine ⟨h.chain, next_of_store h.next_pos hDisk hPos, next_of_store h.next_le hDisk hLe,
        fun plan hPlan => ⟨_, underway_of_starts h hPos hLe hStarts _ hPlan⟩⟩
  | wrote written manifests hCall =>
      refine ⟨h.chain, h.next_pos, h.next_le, fun plan hPlan => ?_⟩
      cases hPlan
      obtain ⟨w, hUnderway⟩ := h.call _ (congrArg RunnerCall.plan? hCall)
      exact ⟨w, hUnderway.memory, hUnderway.next, hUnderway.some_batch, hUnderway.fresh,
        hUnderway.published_le, hUnderway.inFlight_le⟩
  | notWritten | notSent => exact ⟨h.chain, h.next_pos, h.next_le, fun _ hPlan => by cases hPlan⟩
  | nothingNew saved hCall hNone =>
      exact ⟨h.chain, h.next_pos, h.next_le, fun _ hPlan => by cases hPlan⟩
  | @sent _ plan reward call hCall hAfter =>
      obtain ⟨w, hUnderway⟩ := h.call _ (congrArg RunnerCall.plan? hCall)
      have hPos := h.next_pos w (.inl hUnderway.memory)
      have hLe := h.next_le w (.inl hUnderway.memory)
      have hRecorded : Tracks lc s.chain w :=
        ((exactlyOnce_iff lc s).mp hOnce).2 w (.inl hUnderway.memory)
      have hId : (publishTx plan reward).epochId = w.nextEpochId := hUnderway.next
      refine ⟨h.chain.send (hId ▸ hPos) (hId ▸ hLe) ?_, h.next_pos, h.next_le, ?_⟩
      · intro earlier hEarlier hBefore id hBatch hOld
        obtain ⟨raw, hRaw, rfl⟩ := List.mem_map.mp hBatch
        exact hUnderway.fresh raw hRaw
          ((hRecorded _).mpr ⟨earlier, hEarlier, hId ▸ hBefore, hOld⟩)
      · intro other hPlan
        rcases hAfter with rfl | rfl
        · cases hPlan
        · cases hPlan
          refine ⟨w, hUnderway.memory, hUnderway.next, hUnderway.some_batch, hUnderway.fresh,
            hUnderway.published_le, fun tx hTx => ?_⟩
          rcases List.mem_append.mp hTx with hOld | hNew
          · exact hUnderway.inFlight_le tx hOld
          · obtain rfl := List.mem_singleton.mp hNew
            exact le_refl plan.epochId
  | committed saved hCall hCommit hDisk =>
      obtain ⟨w, hUnderway⟩ := h.call _ (congrArg RunnerCall.plan? hCall)
      have hWatermark : s.watermark lc = w := by
        rw [Runner.watermark, hUnderway.memory, Option.getD_some]
      have hAgrees := hExact _ hCall
      rw [hWatermark] at hAgrees hCommit
      rw [hUnderway.next, commitEpoch_nextEpochId] at hCommit
      cases hCommit
      have hPos := h.next_pos w (.inl hUnderway.memory)
      have hLe := next_le_of_commit h hUnderway hAgrees
      refine ⟨h.chain, next_of_store h.next_pos hDisk ?_, next_of_store h.next_le hDisk ?_,
        fun _ hPlan => by cases hPlan⟩
      · show 1 ≤ w.nextEpochId + 1
        omega
      · show w.nextEpochId + 1 ≤ s.chain.published.length + 1
        omega
  | crashed =>
      refine ⟨h.chain, fun w hw => h.next_pos w (.inr ?_), fun w hw => h.next_le w (.inr ?_),
        fun _ hPlan => by cases hPlan⟩ <;>
      · rcases hw with hMemory | hDisk
        · cases hMemory
        · exact hDisk
  | landed hLand =>
      obtain ⟨tx, hTx, ⟨-, rfl⟩ | ⟨-, hNext, rfl⟩⟩ := h.chain.land_cases hLand
      · refine ⟨h.chain.fail _, h.next_pos, h.next_le, fun plan hPlan => ?_⟩
        obtain ⟨w, hUnderway⟩ := h.call plan hPlan
        exact ⟨w, hUnderway.memory, hUnderway.next, hUnderway.some_batch, hUnderway.fresh,
          hUnderway.published_le,
          fun other hOther => hUnderway.inFlight_le other (List.mem_of_mem_eraseIdx hOther)⟩
      · have hLonger : ((s.chain.published ++ [tx]).length : Int) =
            s.chain.published.length + 1 := by simp
        refine ⟨h.chain.publish hNext, h.next_pos, fun w hw => ?_, fun plan hPlan => ?_⟩
        · have hLe := h.next_le w hw
          show w.nextEpochId ≤ ((s.chain.published ++ [tx]).length : Int) + 1
          omega
        · obtain ⟨w, hUnderway⟩ := h.call plan hPlan
          refine ⟨w, hUnderway.memory, hUnderway.next, hUnderway.some_batch, hUnderway.fresh, ?_,
            fun other hOther => hUnderway.inFlight_le other (List.mem_of_mem_eraseIdx hOther)⟩
          have hLe := hUnderway.inFlight_le tx (List.mem_of_getElem? hTx)
          show ((s.chain.published ++ [tx]).length : Int) ≤ plan.epochId
          omega
  | failed i =>
      refine ⟨h.chain.fail i, h.next_pos, h.next_le, fun plan hPlan => ?_⟩
      obtain ⟨w, hUnderway⟩ := h.call plan hPlan
      exact ⟨w, hUnderway.memory, hUnderway.next, hUnderway.some_batch, hUnderway.fresh,
        hUnderway.published_le,
        fun other hOther => hUnderway.inFlight_le other (List.mem_of_mem_eraseIdx hOther)⟩

end Steps

theorem coherent_fresh (lc : LowerCase) : Coherent lc .fresh where
  chain :=
    { numbered := fun _ _ h => by cases h
      pos := fun _ h => by cases h
      le := fun _ h => by cases h
      fresh := fun _ h => by cases h }
  next_pos _ h := by rcases h with h | h <;> cases h
  next_le _ h := by rcases h with h | h <;> cases h
  call _ h := by cases h

theorem exactlyOnce_fresh (lc : LowerCase) : ExactlyOnce lc .fresh where
  once _ := Nat.zero_le 1
  recorded _ h := by rcases h with h | h <;> cases h

theorem allPaid_move_iff {lc : LowerCase} {codec : AddressCodec} {keccak256 : Keccak}
    {s s' : Runner} {i : RunnerInput} (hPaid : AllPaid s)
    (hMove : RunnerMove lc codec keccak256 s i s') : AllPaid s' ↔ LandsPaying s i := by
  cases hMove with
  | @landed i chain hLand =>
      obtain ⟨tx, hTx, hLand⟩ := Option.bind_eq_some_iff.mp hLand
      cases hLand
      cases hExists : s.chain.epochExists tx.epochId with
      | true =>
          refine iff_of_true ?_ fun other hOther hFree => ?_
          · simpa [AllPaid] using hPaid
          · cases hTx.symm.trans hOther
            cases hExists.symm.trans hFree
      | false =>
          constructor
          · intro hAll other hOther _
            cases hTx.symm.trans hOther
            exact hAll tx (by simp)
          · intro hLands other hOther
            simp only [Bool.false_eq_true, if_false] at hOther
            rcases List.mem_append.mp hOther with hOld | hNew
            · exact hPaid other hOld
            · rw [List.mem_singleton.mp hNew]
              exact hLands tx hTx hExists
  | called | wrote | notWritten | sent | notSent | committed | nothingNew | crashed | failed =>
      exact iff_of_true hPaid trivial

theorem settledExactly_of_exactlyOnce {lc : LowerCase} {s : Runner} (h : Coherent lc s)
    (hOnce : ExactlyOnce lc s) : SettledExactly lc s := by
  intro w hw hLast id
  rw [hOnce.recorded w hw id]
  have hPos := h.next_pos w hw
  have hBeyond : ¬ (1 ≤ w.nextEpochId ∧ w.nextEpochId ≤ s.chain.published.length) := by
    rw [← h.chain.epochExists_iff, hLast]
    exact Bool.false_ne_true
  have hSame : (s.chain.published.filter fun tx =>
        tx.epochId < w.nextEpochId ∧ id ∈ tx.batches lc) =
      s.chain.published.filter fun tx => id ∈ tx.batches lc := by
    refine List.filter_congr fun tx hTx => ?_
    have hLe := (h.chain.epochId_le hTx).2
    have hBefore : tx.epochId < w.nextEpochId := by omega
    simp [hBefore]
  rw [hSame]

/-- In every run, no batch is in two published epochs and the watermark has
recorded the batches of the epochs up to its last, throughout the run, exactly
when it only ever advances over an epoch with the batches that were published.
Then a watermark that is up to date has recorded exactly the batches that are in
one published epoch.  And every published epoch pays the providers of its
batches, throughout, exactly when each one that lands does. -/
theorem exactly_once_iff (lc : LowerCase) (codec : AddressCodec) (keccak256 : Keccak)
    (is : List RunnerInput) :
    ((runnerMachine lc codec keccak256).EveryState (ExactlyOnce lc) .fresh is ↔
        (runnerMachine lc codec keccak256).EveryStep (RecordsPublished lc) .fresh is) ∧
      ((runnerMachine lc codec keccak256).EveryStep (RecordsPublished lc) .fresh is →
        (runnerMachine lc codec keccak256).EveryState (SettledExactly lc) .fresh is) ∧
      ((runnerMachine lc codec keccak256).EveryState AllPaid .fresh is ↔
        (runnerMachine lc codec keccak256).EveryStep LandsPaying .fresh is) := by
  refine ⟨?_, ?_, ?_⟩
  · refine (runnerMachine lc codec keccak256).everyState_iff_everyStep_of_while (Coherent lc) _ _
      ?_ ?_ (coherent_fresh lc) (exactlyOnce_fresh lc) is
    · intro s i s' h hOnce hOnce' hStep
      exact coherent_move h hOnce (move_of_runnerStep hStep) hOnce'
    · intro s i s' h hOnce hStep
      exact exactlyOnce_move_iff h hOnce (move_of_runnerStep hStep)
  · intro hSteps visited hVisited
    have hBoth := (runnerMachine lc codec keccak256).everyState_of_everyStep
      (fun s => Coherent lc s ∧ ExactlyOnce lc s) (RecordsPublished lc) ?_
      ⟨coherent_fresh lc, exactlyOnce_fresh lc⟩ hSteps
    · obtain ⟨h, hOnce⟩ := hBoth visited hVisited
      exact settledExactly_of_exactlyOnce h hOnce
    · rintro s i s' ⟨h, hOnce⟩ hRecords hStep
      have hMove := move_of_runnerStep hStep
      have hOnce' := (exactlyOnce_move_iff h hOnce hMove).mpr hRecords
      exact ⟨coherent_move h hOnce hMove hOnce', hOnce'⟩
  · refine (runnerMachine lc codec keccak256).everyState_iff_everyStep (fun _ => True) _ _
      (fun _ _ _ _ _ => trivial) ?_ trivial (fun _ h => by cases h) is
    intro s i s' _ hPaid hStep
    exact allPaid_move_iff hPaid (move_of_runnerStep hStep)

/-! ## A transaction that lands late -/

def asciiLowerCase : LowerCase := ⟨asciiLower, asciiLower_asciiLower⟩

def runArgs (batches : List FinalizedBatch) : RunArgs where
  batches := batches
  potWei := none
  manifestDir := some "/epochs"
  dryRun := false
  windowStart := none
  windowEnd := none

def firstBatch : FinalizedBatch := ⟨"0xb1", "0x0000000000000000000000000000000000000005", 60, 1000⟩

def secondBatch : FinalizedBatch := ⟨"0xb2", "0x0000000000000000000000000000000000000006", 40, 1001⟩

/-- The process dies after it has sent epoch 1 over the first batch.  The next
call finds no epoch 1 and plans it again, with the second batch.  The first
transaction lands, and the second reverts. -/
def lateLanding : List RunnerInput :=
  [.runEpoch (runArgs [firstBatch]) 100 true true, .writeManifest true, .publishEpoch .returned,
    .crash,
    .runEpoch (runArgs [firstBatch, secondBatch]) 100 true true, .writeManifest true,
    .publishEpoch .returned, .commitEpoch true, .land 0, .land 0]

/-- The second batch is recorded and in no published epoch, when nothing is in
flight any more. -/
theorem not_exactly_once_lateLanding :
    ((runnerMachine asciiLowerCase hexCodec polynomialHash).run .fresh lateLanding).chain.inFlight =
        [] ∧
      ((runnerMachine asciiLowerCase hexCodec polynomialHash).run .fresh lateLanding).call =
        .idle ∧
      ¬ (runnerMachine asciiLowerCase hexCodec polynomialHash).EveryState
        (SettledExactly asciiLowerCase) .fresh lateLanding := by
  refine ⟨by decide +kernel, by decide +kernel, fun hEvery => ?_⟩
  have hSettled := hEvery.last ⟨["0xb1", "0xb2"], some 1⟩ (.inl (by decide +kernel))
    (by decide +kernel) "0xb2"
  revert hSettled
  decide +kernel

end Prsm.Epochs
