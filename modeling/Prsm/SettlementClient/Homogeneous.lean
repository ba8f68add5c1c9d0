import Prsm.Foundations.Machine
import Prsm.SettlementClient.Accumulator

/-!
# What every pending batch is like

The totals, the ids and the start of a batch are kept beside its receipts.  They are right
after any calls of the accumulator's methods.  `restore_pending` compares the receipts with
each other and not with the key that it files them under, so that a batch has the receipts of
its key wherever the restored ones are.
-/

namespace Prsm.SettlementClient

open Foundations Settlement

/-- What a batch caches agrees with its receipts. -/
structure PendingBatch.Sound (batch : PendingBatch) : Prop where
  total_eq : batch.totalValueFtns = (batch.receipts.map BatchedReceipt.valueFtns).sum
  ids_nodup : (escrowIds batch.receipts).Nodup
  seen_eq : batch.seenEscrowIds = (escrowIds batch.receipts).toFinset
  rate_eq : ∀ br ∈ batch.receipts, br.tierSlashRateBps = batch.tierSlashRateBps
  group_eq : ∀ br ∈ batch.receipts, br.consensusGroupId = batch.consensusGroupId

theorem sound_empty : PendingBatch.Sound {} := by
  constructor <;> simp [escrowIds]

namespace PendingBatch

variable {batch batch' : PendingBatch} {br : BatchedReceipt} {atUnix : Int}

theorem Sound.push (h : batch.Sound) (hNew : batch.holds br = false)
    (hRate : br.tierSlashRateBps = batch.tierSlashRateBps)
    (hGroup : br.consensusGroupId = batch.consensusGroupId) : (batch.push br).Sound := by
  have hFresh : br.localEscrowId ≠ "" → br.localEscrowId ∉ escrowIds batch.receipts := by
    intro hSome hOld
    refine absurd hNew (Bool.not_eq_false _ ▸ decide_eq_true ⟨hSome, ?_⟩)
    rw [h.seen_eq]
    exact List.mem_toFinset.mpr hOld
  constructor
  · show batch.totalValueFtns + br.valueFtns = ((batch.receipts ++ [br]).map _).sum
    simp [h.total_eq]
  · show (escrowIds (batch.receipts ++ [br])).Nodup
    rw [escrowIds_append, escrowIds_singleton]
    split
    case isTrue hSome =>
      exact List.nodup_append_comm.mp (List.nodup_cons.mpr ⟨hFresh hSome, h.ids_nodup⟩)
    case isFalse => simpa using h.ids_nodup
  · show (if br.localEscrowId ≠ "" then _ else _) = (escrowIds (batch.receipts ++ [br])).toFinset
    rw [escrowIds_append, escrowIds_singleton, List.toFinset_append, h.seen_eq]
    split
    · rw [Finset.insert_eq, Finset.union_comm]
      rfl
    · simp
  · intro other hOther
    rcases List.mem_append.mp hOther with hOld | hLast
    · exact h.rate_eq other hOld
    · rw [List.mem_singleton.mp hLast]
      exact hRate
  · intro other hOther
    rcases List.mem_append.mp hOther with hOld | hLast
    · exact h.group_eq other hOld
    · rw [List.mem_singleton.mp hLast]
      exact hGroup

theorem Sound.append (h : batch.Sound) (hAppend : batch.append br atUnix = some batch') :
    batch'.Sound ∧ batch'.receipts ≠ [] ∧
      (batch'.receipts = batch.receipts ∨ batch'.receipts = batch.receipts ++ [br]) ∧
      batch'.startedAtUnix = if batch.receipts = [] then atUnix else batch.startedAtUnix := by
  unfold PendingBatch.append at hAppend
  split at hAppend
  case isTrue hHolds =>
    cases hAppend
    have hSome : batch.receipts ≠ [] := by
      intro hNone
      have hSeen := (of_decide_eq_true hHolds).2
      rw [h.seen_eq, hNone] at hSeen
      cases hSeen
    exact ⟨h, hSome, Or.inl rfl, (if_neg hSome).symm⟩
  case isFalse hHolds =>
    have hHolds : batch.holds br = false := Bool.not_eq_true _ ▸ hHolds
    split at hAppend
    case isTrue hFirst =>
      have hNone : batch.receipts = [] := List.isEmpty_iff.mp hFirst
      cases hAppend
      refine ⟨?_, by simp [PendingBatch.push], Or.inr rfl, (if_pos hNone).symm⟩
      refine Sound.push ⟨h.total_eq, h.ids_nodup, h.seen_eq, ?_, ?_⟩ hHolds rfl rfl
      · intro other hOther
        rw [hNone] at hOther
        cases hOther
      · intro other hOther
        rw [hNone] at hOther
        cases hOther
    case isFalse hLater =>
      have hSome : batch.receipts ≠ [] := fun hNone => hLater (List.isEmpty_iff.mpr hNone)
      split at hAppend
      · cases hAppend
      case isFalse hRate =>
        split at hAppend
        · cases hAppend
        case isFalse hGroup =>
          cases hAppend
          exact ⟨h.push hHolds (not_not.mp hRate) (not_not.mp hGroup),
            by simp [PendingBatch.push], Or.inr rfl, (if_neg hSome).symm⟩

theorem Sound.replay {receipts : List BatchedReceipt} (h : batch.Sound)
    (hReplay : receipts.foldlM (fun batch br => batch.append br atUnix) batch = some batch') :
    batch'.Sound ∧ (∀ br ∈ batch'.receipts, br ∈ batch.receipts ∨ br ∈ receipts) ∧
      (receipts ≠ [] → batch'.receipts ≠ []) := by
  induction receipts generalizing batch with
  | nil =>
      cases hReplay
      exact ⟨h, fun br hMem => Or.inl hMem, fun hNone => absurd rfl hNone⟩
  | cons first rest ih =>
      rw [List.foldlM_cons] at hReplay
      obtain ⟨next, hNext, hRest⟩ := Option.bind_eq_some_iff.mp hReplay
      obtain ⟨hSound, hSome, hReceipts, -⟩ := h.append hNext
      obtain ⟨hDone, hFrom, hMore⟩ := ih hSound hRest
      refine ⟨hDone, fun br hMem => ?_, fun _ => ?_⟩
      · rcases hFrom br hMem with hOld | hIn
        · rcases hReceipts with hSame | hPushed
          · exact Or.inl (hSame ▸ hOld)
          · rw [hPushed] at hOld
            rcases List.mem_append.mp hOld with hEarlier | hLast
            · exact Or.inl hEarlier
            · rw [List.mem_singleton.mp hLast]
              exact Or.inr List.mem_cons_self
        · exact Or.inr (List.mem_cons_of_mem _ hIn)
      · cases rest with
        | nil =>
            cases hRest
            exact hSome
        | cons _ _ => exact hMore (List.cons_ne_nil _ _)

end PendingBatch

/-! ## Runs of the accumulator -/

/-- The calls that change the accumulator. -/
inductive AccumulatorCall
  | add (br : BatchedReceipt) (now : Int)
  | popBatch (key : AccumulatorKey)
  | restorePending (key : AccumulatorKey) (receipts : List BatchedReceipt) (startedAtUnix : Int)

/-- The accumulator.  `started` is when the batch of a key was begun: the time of the first
`add` since it was popped, or the time that it was restored with.  It is for specification. -/
structure Accumulated where
  pending : Pending
  started : AccumulatorKey → Option Int

def Accumulated.fresh : Accumulated := ⟨∅, fun _ => none⟩

def accumulatorMachine : Machine Accumulated AccumulatorCall where
  step s
    | .add br now => do
        let pending ← s.pending.add br now
        some ⟨pending, Function.update s.started (keyOf br)
          (some ((s.started (keyOf br)).getD now))⟩
    | .popBatch key => some ⟨s.pending.erase key, Function.update s.started key none⟩
    | .restorePending key receipts startedAtUnix => do
        let pending ← s.pending.restore key receipts startedAtUnix
        -- without receipts there is nothing to restore
        some ⟨pending, if receipts = [] then s.started
          else Function.update s.started key (some startedAtUnix)⟩

/-- What is pending under a key is a batch that is sound and not empty, and was begun when it
says. -/
structure Accumulated.SoundAt (s : Accumulated) (key : AccumulatorKey) : Prop where
  sound : ∀ batch, s.pending.get? key = some batch → batch.Sound ∧ batch.receipts ≠ []
  started_eq : (s.pending.get? key).map PendingBatch.startedAtUnix = s.started key

/-- The receipts of a batch have its key. -/
def Accumulated.KeyedAt (s : Accumulated) (key : AccumulatorKey) : Prop :=
  ∀ batch, s.pending.get? key = some batch → ∀ br ∈ batch.receipts, keyOf br = key

/-- A call that restores receipts under their own key. -/
def RestoresKeyed : AccumulatorCall → Prop
  | .restorePending key receipts _ => ∀ br ∈ receipts, keyOf br = key
  | _ => True

section Steps

variable {s s' : Accumulated} {call : AccumulatorCall}

theorem step_cases (hSound : ∀ key, s.SoundAt key) (h : accumulatorMachine.step s call = some s') :
    s' = s ∨
      (∃ key, s' = ⟨s.pending.erase key, Function.update s.started key none⟩) ∨
      ∃ key batch, batch.Sound ∧ batch.receipts ≠ [] ∧
        s' = ⟨s.pending.set key batch,
          Function.update s.started key (some batch.startedAtUnix)⟩ ∧
        (RestoresKeyed call → ∀ br ∈ batch.receipts, keyOf br = key ∨
          ∃ old, s.pending.get? key = some old ∧ br ∈ old.receipts) := by
  cases call with
  | add br now =>
      obtain ⟨pending, hAdd, h⟩ := Option.bind_eq_some_iff.mp h
      cases h
      obtain ⟨batch, hAppend, rfl⟩ := Option.map_eq_some_iff.mp hAdd
      have hFor : (s.pending.batchFor br).Sound := by
        rw [Pending.batchFor]
        cases hGet : s.pending.get? (keyOf br) with
        | none => exact sound_empty
        | some old => exact ((hSound _).sound old hGet).1
      obtain ⟨hBatch, hSome, hReceipts, hStart⟩ := hFor.append hAppend
      have hStarted : (s.started (keyOf br)).getD now = batch.startedAtUnix := by
        rw [hStart, ← (hSound (keyOf br)).started_eq, Pending.batchFor]
        cases hGet : s.pending.get? (keyOf br) with
        | none => rfl
        | some old => exact (if_neg ((hSound _).sound old hGet).2).symm
      refine Or.inr (Or.inr ⟨keyOf br, batch, hBatch, hSome, by rw [hStarted], ?_⟩)
      intro _ other hOther
      have hOld : ∀ other ∈ (s.pending.batchFor br).receipts,
          ∃ old, s.pending.get? (keyOf br) = some old ∧ other ∈ old.receipts := by
        intro other hOther
        rw [Pending.batchFor] at hOther
        cases hGet : s.pending.get? (keyOf br) with
        | none =>
            rw [hGet] at hOther
            cases hOther
        | some old =>
            rw [hGet] at hOther
            exact ⟨old, rfl, hOther⟩
      rcases hReceipts with hSame | hPushed
      · exact Or.inr (hOld other (hSame ▸ hOther))
      · rw [hPushed] at hOther
        rcases List.mem_append.mp hOther with hEarlier | hLast
        · exact Or.inr (hOld other hEarlier)
        · exact Or.inl (List.mem_singleton.mp hLast ▸ rfl)
  | popBatch key =>
      cases h
      exact Or.inr (Or.inl ⟨key, rfl⟩)
  | restorePending key receipts startedAtUnix =>
      obtain ⟨pending, hRestore, h⟩ := Option.bind_eq_some_iff.mp h
      cases h
      obtain ⟨batch, hReplay, hRestore⟩ := Option.bind_eq_some_iff.mp hRestore
      obtain ⟨hBatch, hFrom, hSome⟩ := sound_empty.replay hReplay
      by_cases hNone : receipts = []
      · subst hNone
        cases hReplay
        cases hRestore
        exact Or.inl rfl
      · have hFilled : batch.isEmpty ≠ true := fun h => hSome hNone (List.isEmpty_iff.mp h)
        rw [if_neg hFilled] at hRestore
        cases hRestore
        rw [if_neg hNone]
        refine Or.inr (Or.inr ⟨key, { batch with startedAtUnix := startedAtUnix }, ?_, hSome hNone,
          rfl, ?_⟩)
        · exact ⟨hBatch.total_eq, hBatch.ids_nodup, hBatch.seen_eq, hBatch.rate_eq,
            hBatch.group_eq⟩
        · intro hKeyed br hMem
          exact Or.inl (hKeyed br ((hFrom br hMem).resolve_left List.not_mem_nil))

theorem soundAt_step (hSound : ∀ key, s.SoundAt key)
    (h : accumulatorMachine.step s call = some s') (key : AccumulatorKey) : s'.SoundAt key := by
  rcases step_cases hSound h with rfl | ⟨changed, rfl⟩ | ⟨changed, batch, hBatch, hSome, rfl, -⟩
  · exact hSound key
  · by_cases hKey : key = changed
    · subst hKey
      exact ⟨by simp, by simp⟩
    · constructor
      · simpa [Dict.get?_erase, hKey] using (hSound key).sound
      · simpa [Dict.get?_erase, hKey] using (hSound key).started_eq
  · by_cases hKey : key = changed
    · subst hKey
      refine ⟨?_, by simp⟩
      intro other hOther
      obtain rfl : batch = other := by simpa using hOther
      exact ⟨hBatch, hSome⟩
    · constructor
      · simpa [Dict.get?_set, hKey] using (hSound key).sound
      · simpa [Dict.get?_set, hKey] using (hSound key).started_eq

theorem keyedAt_step (hSound : ∀ key, s.SoundAt key) (hKeyed : ∀ key, s.KeyedAt key)
    (hCall : RestoresKeyed call) (h : accumulatorMachine.step s call = some s')
    (key : AccumulatorKey) : s'.KeyedAt key := by
  intro found hFound br hMem
  rcases step_cases hSound h with rfl | ⟨changed, rfl⟩ | ⟨changed, batch, -, -, rfl, hReceipts⟩
  · exact hKeyed key found hFound br hMem
  · have hGet : s.pending.get? key = some found := by
      change (s.pending.erase changed).get? key = some found at hFound
      rw [Dict.get?_erase] at hFound
      split at hFound
      · cases hFound
      · exact hFound
    exact hKeyed key found hGet br hMem
  · change (s.pending.set changed batch).get? key = some found at hFound
    rw [Dict.get?_set] at hFound
    split at hFound
    case isTrue hKey =>
      cases hFound
      subst hKey
      rcases hReceipts hCall br hMem with hHere | ⟨old, hOld, hOldMem⟩
      · exact hHere
      · exact hKeyed key old hOld br hOldMem
    case isFalse => exact hKeyed key found hFound br hMem

end Steps

theorem soundAt_fresh (key : AccumulatorKey) : Accumulated.fresh.SoundAt key where
  sound _ h := by cases h
  started_eq := rfl

theorem soundAt_run (calls : List AccumulatorCall) (key : AccumulatorKey) :
    (accumulatorMachine.run .fresh calls).SoundAt key :=
  accumulatorMachine.run_invariant (fun s => ∀ key, s.SoundAt key)
    (fun _ _ _ hSound h => soundAt_step hSound h) soundAt_fresh calls key

/-- After any calls, the total of a batch is that of its receipts, its ids are distinct, its
receipts share a rate and a group, and its start is the time of the first `add` since it was
popped or the one it was restored with.  Where receipts are restored under their own key, every
batch has the receipts of its key. -/
theorem batches_sound (calls : List AccumulatorCall) :
    (∀ key batch, (accumulatorMachine.run .fresh calls).pending.get? key = some batch →
      batch.totalValueFtns = (batch.receipts.map BatchedReceipt.valueFtns).sum ∧
      (escrowIds batch.receipts).Nodup ∧
      (∀ br ∈ batch.receipts, br.tierSlashRateBps = batch.tierSlashRateBps ∧
        br.consensusGroupId = batch.consensusGroupId) ∧
      (accumulatorMachine.run .fresh calls).started key = some batch.startedAtUnix) ∧
    ((∀ call ∈ calls, RestoresKeyed call) →
      ∀ key batch, (accumulatorMachine.run .fresh calls).pending.get? key = some batch →
        ∀ br ∈ batch.receipts, keyOf br = key) := by
  constructor
  · intro key batch hGet
    have hAt := soundAt_run calls key
    obtain ⟨hSound, -⟩ := hAt.sound batch hGet
    refine ⟨hSound.total_eq, hSound.ids_nodup, fun br hMem => ?_, ?_⟩
    · exact ⟨hSound.rate_eq br hMem, hSound.group_eq br hMem⟩
    · rw [← hAt.started_eq, hGet, Option.map_some]
  · intro hKeyed key
    have hEvery := accumulatorMachine.everyState_of_everyStep
      (fun s => (∀ key, s.SoundAt key) ∧ ∀ key, s.KeyedAt key) (fun _ call => call ∈ calls) ?_
      ⟨soundAt_fresh, fun key _ h => by cases h⟩ (accumulatorMachine.everyStep_mem _ calls)
    · exact hEvery.last.2 key
    · rintro s call s' ⟨hSound, hBatches⟩ hCall hStep
      exact ⟨soundAt_step hSound hStep,
        keyedAt_step hSound hBatches (hKeyed call hCall) hStep⟩

def strayReceipt : BatchedReceipt where
  receipt := ⟨"j", 0, "p", "", "", 0, "", none⟩
  requesterAddress := "0xr"
  providerAddress := "0xp"
  valueFtns := 5
  localEscrowId := "e1"
  tierSlashRateBps := 0
  consensusGroupId := 0

/-- A receipt of one requester, restored under the key of another. -/
theorem restored_under_other_key :
    ∃ batch, (accumulatorMachine.run .fresh
        [.restorePending ⟨"0xq", "0xp", 0, 0⟩ [strayReceipt] 100]).pending.get?
          ⟨"0xq", "0xp", 0, 0⟩ = some batch ∧
      ∃ br ∈ batch.receipts, br.requesterAddress ≠ "0xq" :=
  ⟨collected ⟨"0xq", "0xp", 0, 0⟩ [strayReceipt] 100, by decide +kernel, strayReceipt,
    List.mem_singleton_self _, by decide⟩

end Prsm.SettlementClient
