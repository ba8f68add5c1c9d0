import Prsm.ConsensusQueue.Steps

/-!
# The life of a challenge

`lifecycle_iff` puts the promises of the steps together over whole runs, with what
follows from them: a submitted row is not broadcast again by a later claim, and a row
that can be submitted has batch ids that were recorded for it.  The one way in which a
run goes wrong is a mark that comes late, from a runner that has outlived its lease.
-/

namespace Prsm.ConsensusQueue

open Foundations

/-! ## The batch ids of a row -/

theorem Recorded.mono {turns turns' : List (Turn Call Moment)} {providerId jobId : String}
    {shardIndex : ℤ} {batchId : Evm.Bytes} (h : Recorded turns providerId jobId shardIndex batchId)
    (hPrefix : turns <+: turns') : Recorded turns' providerId jobId shardIndex batchId := by
  obtain ⟨hLength, before, me, moment, hBefore, hAnswered⟩ := h
  exact ⟨hLength, before, me, moment, hBefore.trans hPrefix, hAnswered⟩

/-- The batch ids of the row were recorded for it. -/
structure PendingChallenge.Batched (turns : List (Turn Call Moment)) (x : PendingChallenge) :
    Prop where
  minority : ∀ batchId, x.minorityBatchId = some batchId →
    Recorded turns x.minorityProviderId x.jobId x.shardIndex batchId
  majority : ∀ batchId, x.majorityBatchId = some batchId →
    Recorded turns x.majorityProviderId x.jobId x.shardIndex batchId

/-- For which providers and which shard a row is. -/
def PendingChallenge.subject (x : PendingChallenge) : String × String × String × ℤ :=
  (x.minorityProviderId, x.majorityProviderId, x.jobId, x.shardIndex)

section Batched

variable {moment : Moment} {q : Queue} {r : Request} {x : PendingChallenge}

theorem effect_subject : (effect moment q r x).subject = x.subject :=
  effect_keeps (·.subject) (fun _ _ _ _ => rfl) (fun _ _ _ => rfl) (fun _ _ _ _ => rfl) moment q x
    fun _ _ _ _ _ =>
      recorded_keeps (·.subject) (fun _ _ _ => rfl) (fun _ _ _ => rfl) (fun _ _ => rfl) x

theorem effect_minority :
    (effect moment q r x).minorityBatchId = x.minorityBatchId ∨
      ∃ batchId, (effect moment q r x).minorityBatchId = some batchId ∧ batchId.length = 32 ∧
        r = .recordBatchCommit x.minorityProviderId x.jobId x.shardIndex batchId := by
  by_cases hRecord : ∃ providerId jobId shardIndex batchId,
      r = .recordBatchCommit providerId jobId shardIndex batchId
  · obtain ⟨providerId, jobId, shardIndex, batchId, rfl⟩ := hRecord
    simp only [effect]
    split
    · exact Or.inl rfl
    case isFalse hLength =>
      have hKept : (x.recorded providerId jobId shardIndex batchId moment.now).minorityBatchId =
          (updated (·.awaitsMinority providerId jobId shardIndex)
            (·.setMinority batchId moment.now) x).minorityBatchId := by
        unfold PendingChallenge.recorded PendingChallenge.withBatchIds
        rw [updated_keeps (·.minorityBatchId) (f := (·.promote moment.now)) fun _ => rfl,
          updated_keeps (·.minorityBatchId) (f := (·.setMajority batchId moment.now)) fun _ => rfl]
      rw [hKept]
      unfold updated
      split
      case isTrue hAwaits =>
          simp only [PendingChallenge.awaitsMinority, PendingChallenge.isPendingOf,
            Bool.and_eq_true, decide_eq_true_eq] at hAwaits
          obtain ⟨⟨rfl, ⟨rfl, rfl⟩, -⟩, -⟩ := hAwaits
          exact Or.inr ⟨batchId, rfl, not_not.mp hLength, rfl⟩
      · exact Or.inl rfl
  · exact Or.inl (effect_keeps (·.minorityBatchId) (fun _ _ _ _ => rfl) (fun _ _ _ => rfl)
      (fun _ _ _ _ => rfl) moment q x fun p j s b h => absurd ⟨p, j, s, b, h⟩ hRecord)

theorem effect_majority :
    (effect moment q r x).majorityBatchId = x.majorityBatchId ∨
      ∃ batchId, (effect moment q r x).majorityBatchId = some batchId ∧ batchId.length = 32 ∧
        r = .recordBatchCommit x.majorityProviderId x.jobId x.shardIndex batchId := by
  by_cases hRecord : ∃ providerId jobId shardIndex batchId,
      r = .recordBatchCommit providerId jobId shardIndex batchId
  · obtain ⟨providerId, jobId, shardIndex, batchId, rfl⟩ := hRecord
    simp only [effect]
    split
    · exact Or.inl rfl
    case isFalse hLength =>
      have hKept : (x.recorded providerId jobId shardIndex batchId moment.now).majorityBatchId =
          (x.withBatchIds providerId jobId shardIndex batchId moment.now).majorityBatchId := by
        unfold PendingChallenge.recorded
        rw [updated_keeps (·.majorityBatchId) (f := (·.promote moment.now)) fun _ => rfl]
      rw [hKept, PendingChallenge.withBatchIds]
      generalize hFirst : updated (·.awaitsMinority providerId jobId shardIndex)
        (·.setMinority batchId moment.now) x = x₁
      have hSubject : x₁.subject = x.subject := by
        rw [← hFirst]
        apply updated_keeps (·.subject)
        exact fun _ => rfl
      have hSame : x₁.majorityBatchId = x.majorityBatchId := by
        rw [← hFirst]
        apply updated_keeps (·.majorityBatchId)
        exact fun _ => rfl
      simp only [PendingChallenge.subject, Prod.mk.injEq] at hSubject
      obtain ⟨-, hProvider, hJob, hShard⟩ := hSubject
      unfold updated
      split
      case isTrue hAwaits =>
          simp only [PendingChallenge.awaitsMajority, PendingChallenge.isPendingOf,
            Bool.and_eq_true, decide_eq_true_eq] at hAwaits
          obtain ⟨⟨rfl, ⟨rfl, rfl⟩, -⟩, -⟩ := hAwaits
          rw [hProvider, hJob, hShard]
          exact Or.inr ⟨batchId, rfl, not_not.mp hLength, rfl⟩
      · exact Or.inl hSame
  · exact Or.inl (effect_keeps (·.majorityBatchId) (fun _ _ _ _ => rfl) (fun _ _ _ => rfl)
      (fun _ _ _ _ => rfl) moment q x fun p j s b h => absurd ⟨p, j, s, b, h⟩ hRecord)

end Batched

theorem batched_run (turns : List (Turn Call Moment)) :
    ∀ x ∈ (service.machine.run opened turns).state.rows, x.Batched turns := by
  induction turns using List.reverseRecOn with
  | nil => exact fun x hx => by cases hx
  | append_singleton before turn ih =>
      have hMono : ∀ x : PendingChallenge, x.Batched before → x.Batched (before ++ [turn]) :=
        fun x h =>
        ⟨fun b hb => (h.minority b hb).mono (List.prefix_append before [turn]),
          fun b hb => (h.majority b hb).mono (List.prefix_append before [turn])⟩
      have hTracked := everyState_tracked before before (List.prefix_refl before)
      rw [Machine.run_append, Machine.run_cons, Machine.run_nil]
      cases hTurn : service.machine.step (service.machine.run opened before) turn with
      | none =>
          rw [service.machine.exec_of_refused hTurn]
          exact fun x hx => hMono x (ih x hx)
      | some pool' =>
          rw [service.machine.exec_of_step hTurn]
          intro y hy
          rcases state_of_step hTracked hTurn with hSame |
            ⟨me, moment, r, answer, rfl, hAnswered, hServe⟩
          · rw [hSame] at hy
            exact hMono y (ih y hy)
          · rcases (mem_rows_of_serve hServe).2 y hy with ⟨x, hx, rfl⟩ | hBlank
            · have hHere := hMono x (ih x hx)
              have hSubject := @effect_subject moment
                (service.machine.run opened before).state r x
              simp only [PendingChallenge.subject, Prod.mk.injEq] at hSubject
              obtain ⟨hMinority, hMajority, hJob, hShard⟩ := hSubject
              constructor
              · rw [hMinority, hJob, hShard]
                intro b hb
                rcases effect_minority with hKept | ⟨b', hSet, hLength, hRecord⟩
                · exact hHere.minority b (hKept.symm.trans hb)
                · obtain rfl : b' = b := Option.some.inj (hSet.symm.trans hb)
                  exact ⟨hLength, before, me, moment, List.prefix_refl _, hRecord ▸ hAnswered⟩
              · rw [hMajority, hJob, hShard]
                intro b hb
                rcases effect_majority with hKept | ⟨b', hSet, hLength, hRecord⟩
                · exact hHere.majority b (hKept.symm.trans hb)
                · obtain rfl : b' = b := Option.some.inj (hSet.symm.trans hb)
                  exact ⟨hLength, before, me, moment, List.prefix_refl _, hRecord ▸ hAnswered⟩
            · exact ⟨fun b hb => by simp [hBlank.minorityBatchId] at hb,
                fun b hb => by simp [hBlank.majorityBatchId] at hb⟩

theorem hasBatches_run (turns : List (Turn Call Moment)) :
    ∀ x ∈ (service.machine.run opened turns).state.rows, x.HasBatches turns := by
  intro x hx hLeft
  have hTracked := everyState_tracked turns turns (List.prefix_refl turns)
  have hBatched := batched_run turns x hx
  obtain ⟨hMinority, hMajority⟩ := (hTracked.inv.sound x hx).batches hLeft
  obtain ⟨minority, hMinority⟩ := Option.isSome_iff_exists.mp hMinority
  obtain ⟨majority, hMajority⟩ := Option.isSome_iff_exists.mp hMajority
  exact ⟨minority, majority, hMinority, hMajority, hBatched.minority _ hMinority,
    hBatched.majority _ hMajority⟩

theorem submitted_stays {turns earlier later : List (Turn Call Moment)} {rowId : ℕ}
    (h : service.machine.EveryStep MovesForward opened turns) (hEarlier : earlier <+: later)
    (hLater : later <+: turns)
    (hStatus : HasStatus (service.machine.run opened earlier) rowId .submitted) :
    HasStatus (service.machine.run opened later) rowId .submitted := by
  refine service.machine.related_along (fun _ => True) MovesForward
    (fun pool pool' => HasStatus pool rowId .submitted → HasStatus pool' rowId .submitted)
    (fun _ => id) (fun _ _ _ h h' hHere => h' (h hHere)) ?_ trivial h hEarlier hLater hStatus
  intro pool turn pool' _ hMoves hTurn
  refine ⟨trivial, fun ⟨x, hx, hId, hSubmitted⟩ => ?_⟩
  rw [MovesForward, service.machine.exec_of_step hTurn] at hMoves
  obtain ⟨y, hy, hSameId, hMove⟩ := hMoves.1 x hx
  rw [hSubmitted] at hMove
  rcases hMove with hSame | ⟨hPending, -⟩ | ⟨hOpen, -⟩
  · exact ⟨y, hy, hSameId.trans hId, hSame⟩
  · cases hPending
  · cases hOpen

theorem mem_of_broadcasts {pool : Threads} {me : ℕ} {rows : List PendingChallenge}
    {row : PendingChallenge}
    (hAt : Program.At outline (fun _ _ _ => True) pool me (.working rows))
    (h : Broadcasts pool me row) : row ∈ rows := by
  obtain ⟨c, p, hTask, hFollows, -⟩ := hAt
  obtain ⟨c', p', hTask', hPending⟩ := h
  obtain ⟨rfl, rfl⟩ := Prod.mk.inj (Option.some.inj (hTask.symm.trans hTask'))
  cases p with
  | await r resume =>
      cases hPending
      obtain ⟨st', hAnswers, -⟩ := hFollows (.error (.batchIdLength 0))
      cases hAnswers with
      | submit hRow => exact hRow
  | _ => cases hPending

theorem notBroadcastAgain {turns : List (Turn Call Moment)}
    (h : service.machine.EveryStep MovesForward opened turns) : NotBroadcastAgain turns := by
  intro earlier before later me moment claimantId leaseSeconds limit row hEarlier hClaim hLater
    hAnswered hBroadcasts hSubmitted
  have hTracked := everyState_tracked before before (List.prefix_refl before)
  obtain ⟨rest, rfl⟩ := hClaim
  obtain ⟨pool', hTurn⟩ := step_of_answered hAnswered
  have hRun : service.machine.run opened (before ++ [.serve me moment]) = pool' := by
    rw [Machine.run_append, Machine.run_cons, Machine.run_nil,
      service.machine.exec_of_step hTurn]
  have hTracked' := everyState_tracked (before ++ [.serve me moment]) _ (List.prefix_refl _)
  rw [hRun] at hTracked'
  obtain ⟨st, answer, st', -, hServe, hAnswers, hAt⟩ := hTracked.served hAnswered trivial hTurn
  cases hAnswers with
  | claim =>
      have hAllowed : service.machine.EveryStep
          (Program.Answerable fun _ _ _ _ => True) pool' rest := fun _ _ _ _ _ _ _ _ _ => trivial
      -- the runner still works on the rows of this claim when it broadcasts
      have hKeeps : ∀ st q st' q', outline.Keeps st q st' q' → st = .working answer →
          st' = .working answer := fun _ _ _ _ hKept hHeld => hKept answer hHeld
      obtain ⟨st'', hAt', rfl⟩ :=
        hAt.later (fun _ => rfl) follows_body hKeeps hTracked' rfl hAllowed
      rw [← hRun, ← Machine.run_append] at hAt'
      have hRow := mem_of_broadcasts hAt' hBroadcasts
      obtain ⟨hHanded, hState⟩ : (claimSubmittable (claimToken claimantId moment.hex) leaseSeconds
          limit moment.now (service.machine.run opened before).state).1 = answer ∧
          (claimSubmittable (claimToken claimantId moment.hex) leaseSeconds
          limit moment.now (service.machine.run opened before).state).2 = pool'.state :=
        Prod.mk.inj (Option.some.inj hServe)
      have hOpen := open_of_handed (by rw [hState]; exact hTracked'.inv.sound) (hHanded ▸ hRow)
      rw [hState] at hOpen
      have hPrefix : before ++ [.serve me moment] <+: turns :=
        (List.prefix_append _ rest).trans hLater
      obtain ⟨x, hx, hId, hStatus⟩ := submitted_stays h
        (hEarlier.trans (List.prefix_append before _)) hPrefix hSubmitted
      rw [hRun] at hx
      rw [hTracked'.inv.numbered.unique hx hOpen.1 hId, hOpen.2] at hStatus
      cases hStatus

/-- The promises are kept in a run exactly when every mark comes in time. -/
theorem lifecycle_iff (turns : List (Turn Call Moment)) :
    Lifecycle turns ↔ service.machine.EveryStep MarksInTime opened turns := by
  have hTracked : ∀ before turn, before ++ [turn] <+: turns →
      Tracked (service.machine.run opened before) := fun before turn hBefore =>
    everyState_tracked turns before ((List.prefix_append before [turn]).trans hBefore)
  constructor
  · intro h before turn hBefore hAccepted
    obtain ⟨pool', hTurn⟩ := Option.isSome_iff_exists.mp hAccepted
    exact inTime_of_kept (hTracked before turn hBefore) hTurn
      (h.moves before turn hBefore hAccepted) (h.leases before turn hBefore hAccepted)
  · intro h
    have hMoves : service.machine.EveryStep MovesForward opened turns := by
      intro before turn hBefore hAccepted
      obtain ⟨pool', hTurn⟩ := Option.isSome_iff_exists.mp hAccepted
      exact movesForward_of_inTime (hTracked before turn hBefore) hTurn
        (h before turn hBefore hAccepted)
    refine ⟨hMoves, fun visited _ => hasBatches_run visited, ?_, notBroadcastAgain hMoves⟩
    intro before turn hBefore hAccepted
    obtain ⟨pool', hTurn⟩ := Option.isSome_iff_exists.mp hAccepted
    exact leasesRespected_of_inTime (hTracked before turn hBefore) hTurn
      (h before turn hBefore hAccepted)

/-! ## A runner that outlives its lease -/

def sampleReceipt (providerId outputHash : String) : Settlement.ShardExecutionReceipt :=
  ⟨"job", 0, providerId, "", outputHash, 0, "", none⟩

/-- One challenge, ready to be submitted. -/
def ready : List (Turn Call Moment) :=
  let moment : Moment := ⟨0, "", .error (.attemptRaised "")⟩
  [.call (.enqueueFromDrained
      [⟨"job", 0, "aa", 1, [sampleReceipt "major" "aa"], [sampleReceipt "minor" "bb"]⟩]),
    .serve 0 moment,
    .call (.recordBatchCommit "minor" "job" 0 (List.replicate 32 0)), .serve 1 moment,
    .call (.recordBatchCommit "major" "job" 0 (List.replicate 32 1)), .serve 2 moment]

/-- The first runner is slow: its lease runs out, a second runner submits the challenge,
and then the broadcast of the first one fails. -/
def lateMark : List (Turn Call Moment) :=
  let failure : ChallengeResult := ⟨false, none, some "BroadcastFailedError", some "timeout"⟩
  let success : ChallengeResult := ⟨true, some "0xabc", none, none⟩
  ready ++
    [.call (.processSubmittableQueue 100 5 "a" none), .serve 3 ⟨0, "1", .ok failure⟩,
      .serve 3 ⟨10, "", .ok failure⟩,
      .call (.processSubmittableQueue 100 5 "b" none), .serve 4 ⟨301, "2", .ok success⟩,
      .serve 4 ⟨302, "", .ok success⟩, .serve 4 ⟨303, "", .ok success⟩,
      .serve 3 ⟨400, "", .ok failure⟩]

/-- The mark of the first runner takes the submitted row back. -/
theorem lateMark_reopens : ¬Lifecycle lateMark := fun h =>
  absurd h.moves (by decide +kernel)

end Prsm.ConsensusQueue
