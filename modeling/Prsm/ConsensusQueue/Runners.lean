import Prsm.ConsensusQueue.Operations

/-!
# What the runners do to the rows

Every request rewrites the rows that are there, each on its own, and may add rows at
the end; `effect` is what it makes of one row.  A runner works on the rows that its
claim has handed to it.  Such a row has left `pending`, and no request takes it back
there; that is all a runner can rely on while others work on the same table.
-/

namespace Prsm.ConsensusQueue

open Foundations

/-! ## The effect on a row -/

/-- The row with the batch ids that a commit sets. -/
def PendingChallenge.withBatchIds (providerId jobId : String) (shardIndex : ℤ)
    (batchId : Evm.Bytes) (now : ℚ) (x : PendingChallenge) : PendingChallenge :=
  updated (·.awaitsMajority providerId jobId shardIndex) (·.setMajority batchId now)
    (updated (·.awaitsMinority providerId jobId shardIndex) (·.setMinority batchId now) x)

/-- What a batch commit makes of a row. -/
def PendingChallenge.recorded (providerId jobId : String) (shardIndex : ℤ) (batchId : Evm.Bytes)
    (now : ℚ) (x : PendingChallenge) : PendingChallenge :=
  updated (·.isComplete) (·.promote now)
    (x.withBatchIds providerId jobId shardIndex batchId now)

/-- What a request makes of a row. -/
def effect (moment : Moment) (q : Queue) : Request → PendingChallenge → PendingChallenge
  | .enqueueFromDrained _, x => x
  | .recordBatchCommit providerId jobId shardIndex batchId, x =>
      if batchId.length ≠ 32 then x
      else x.recorded providerId jobId shardIndex batchId moment.now
  | .claimSubmittable claimantId leaseSeconds limit, x =>
      updated (·.rowId ∈ picked limit moment.now q)
        (·.claim (claimToken claimantId moment.hex) leaseSeconds moment.now) x
  | .submitOne _, x => x
  | .markSubmitted row txHashHex, x =>
      updated (·.rowId = row.rowId) (·.markSubmitted txHashHex moment.now) x
  | .markFailed row errorType errorMessage terminal, x =>
      updated (·.rowId = row.rowId)
        (·.markFailed (errorType ++ ": " ++ errorMessage) terminal moment.now) x

/-- A row as it is inserted. -/
structure PendingChallenge.Blank (x : PendingChallenge) : Prop where
  status : x.status = .pending
  minorityBatchId : x.minorityBatchId = none
  majorityBatchId : x.majorityBatchId = none
  claimedBy : x.claimedBy = none

/-- The row ids count the rows. -/
def Numbered (rows : List PendingChallenge) : Prop :=
  rows.map PendingChallenge.rowId = (List.range rows.length).map (· + 1)

theorem Numbered.unique {rows : List PendingChallenge} (h : Numbered rows) {x y : PendingChallenge}
    (hx : x ∈ rows) (hy : y ∈ rows) (hId : x.rowId = y.rowId) : x = y := by
  have hNodup : (rows.map PendingChallenge.rowId).Nodup := by
    rw [h]
    exact List.nodup_range.map (Nat.succ_injective)
  exact List.inj_on_of_nodup_map hNodup hx hy hId

theorem Numbered.append_row {rows : List PendingChallenge} (h : Numbered rows)
    {x : PendingChallenge} (hId : x.rowId = rows.length + 1) : Numbered (rows ++ [x]) := by
  simp only [Numbered, List.map_append, List.length_append, List.length_singleton,
    List.range_succ, List.map_cons, List.map_nil, hId]
  rw [h]

theorem insert_foldl (now : ℚ) (entry : DrainedEntry)
    (majority : Settlement.ShardExecutionReceipt)
    (minorities : List Settlement.ShardExecutionReceipt) (rows : List PendingChallenge) :
    ∃ added, minorities.foldl (insert now entry majority) rows = rows ++ added ∧
      (Numbered rows → Numbered (rows ++ added)) ∧ ∀ y ∈ added, y.Blank := by
  induction minorities generalizing rows with
  | nil => exact ⟨[], by simp, fun h => by simpa using h, by simp⟩
  | cons minority minorities ih =>
      obtain ⟨added, hRows, hNumbered, hBlank⟩ := ih (insert now entry majority rows minority)
      rw [List.foldl_cons, hRows]
      simp only [insert, List.append_assoc] at hNumbered ⊢
      refine ⟨_, rfl, fun h => hNumbered (h.append_row rfl), fun y hy => ?_⟩
      rcases List.mem_cons.mp hy with rfl | hLater
      · exact ⟨rfl, rfl, rfl, rfl⟩
      · exact hBlank y hLater

theorem enqueue_foldl (now : ℚ) (entries : List DrainedEntry) (rows : List PendingChallenge) :
    ∃ added, entries.foldl (enqueueEntry now) rows = rows ++ added ∧
      (Numbered rows → Numbered (rows ++ added)) ∧ ∀ y ∈ added, y.Blank := by
  induction entries generalizing rows with
  | nil => exact ⟨[], by simp, fun h => by simpa using h, by simp⟩
  | cons entry entries ih =>
      have hHere : ∃ added, enqueueEntry now rows entry = rows ++ added ∧
          (Numbered rows → Numbered (rows ++ added)) ∧ ∀ y ∈ added, y.Blank := by
        unfold enqueueEntry
        cases canonicalMajority entry.majorityReceipts with
        | none => exact ⟨[], by simp, fun h => by simpa using h, by simp⟩
        | some majority => exact insert_foldl now entry majority entry.minorityReceipts rows
      obtain ⟨first, hFirst, hNumbered, hBlank⟩ := hHere
      obtain ⟨added, hRows, hNumbered', hBlank'⟩ := ih (rows ++ first)
      rw [List.foldl_cons, hFirst, hRows]
      refine ⟨first ++ added, by simp, fun h => ?_, fun y hy => ?_⟩
      · rw [← List.append_assoc]
        exact hNumbered' (hNumbered h)
      · rcases List.mem_append.mp hy with h | h
        · exact hBlank y h
        · exact hBlank' y h

theorem updated_keeps {α : Type} (field : PendingChallenge → α)
    {selected : PendingChallenge → Bool} {f : PendingChallenge → PendingChallenge}
    (hF : ∀ x, field (f x) = field x) (x : PendingChallenge) :
    field (updated selected f x) = field x := by
  unfold updated
  split
  · exact hF x
  · rfl

theorem withBatchIds_keeps {α : Type} (field : PendingChallenge → α)
    (hMinority : ∀ b now x, field (x.setMinority b now) = field x)
    (hMajority : ∀ b now x, field (x.setMajority b now) = field x)
    {providerId jobId : String} {shardIndex : ℤ} {batchId : Evm.Bytes} {now : ℚ}
    (x : PendingChallenge) :
    field (x.withBatchIds providerId jobId shardIndex batchId now) = field x := by
  unfold PendingChallenge.withBatchIds
  rw [updated_keeps field (hMajority _ _), updated_keeps field (hMinority _ _)]

theorem recorded_keeps {α : Type} (field : PendingChallenge → α)
    (hMinority : ∀ b now x, field (x.setMinority b now) = field x)
    (hMajority : ∀ b now x, field (x.setMajority b now) = field x)
    (hPromote : ∀ now x, field (x.promote now) = field x)
    {providerId jobId : String} {shardIndex : ℤ} {batchId : Evm.Bytes} {now : ℚ}
    (x : PendingChallenge) :
    field (x.recorded providerId jobId shardIndex batchId now) = field x := by
  unfold PendingChallenge.recorded
  rw [updated_keeps field (hPromote _), withBatchIds_keeps field hMinority hMajority]
variable {r : Request} {q : Queue} {moment : Moment}

theorem effect_keeps {α : Type} (field : PendingChallenge → α)
    (hClaim : ∀ token lease now x, field (x.claim token lease now) = field x)
    (hSubmitted : ∀ txHash now x, field (x.markSubmitted txHash now) = field x)
    (hFailed : ∀ error terminal now x, field (x.markFailed error terminal now) = field x)
    (moment : Moment) (q : Queue) (x : PendingChallenge)
    (hRecord : ∀ providerId jobId shardIndex batchId,
      r = .recordBatchCommit providerId jobId shardIndex batchId →
      field (x.recorded providerId jobId shardIndex batchId moment.now) = field x) :
    field (effect moment q r x) = field x := by
  cases r with
  | enqueueFromDrained drainedEntries => rfl
  | recordBatchCommit providerId jobId shardIndex batchId =>
      simp only [effect]
      split
      · rfl
      · exact hRecord providerId jobId shardIndex batchId rfl
  | claimSubmittable claimantId leaseSeconds limit =>
      simp only [effect]
      exact updated_keeps field (hClaim _ _ _) x
  | submitOne row => rfl
  | markSubmitted row txHashHex =>
      simp only [effect]
      exact updated_keeps field (hSubmitted _ _) x
  | markFailed row errorType errorMessage terminal =>
      simp only [effect]
      exact updated_keeps field (hFailed _ _ _) x

theorem effect_rowId (moment : Moment) (q : Queue) (r : Request) (x : PendingChallenge) :
    (effect moment q r x).rowId = x.rowId :=
  effect_keeps (·.rowId) (fun _ _ _ _ => rfl) (fun _ _ _ => rfl) (fun _ _ _ _ => rfl) moment q x
    fun _ _ _ _ _ =>
      recorded_keeps (·.rowId) (fun _ _ _ => rfl) (fun _ _ _ => rfl) (fun _ _ => rfl) x

theorem Numbered.map_effect (h : Numbered q.rows) (moment : Moment) (r : Request) :
    Numbered (q.rows.map (effect moment q r)) := by
  have hIds : (PendingChallenge.rowId ∘ effect moment q r) = PendingChallenge.rowId :=
    funext (effect_rowId moment q r)
  rw [Numbered, List.map_map, hIds, List.length_map]
  exact h

theorem serve_rows {me : ℕ} {q q' : Queue} {answer : Answer r}
    (h : serve me moment q r = some (answer, q')) :
    ∃ added, q'.rows = q.rows.map (effect moment q r) ++ added ∧
      (Numbered q.rows → Numbered q'.rows) ∧ ∀ y ∈ added, y.Blank := by
  have hRewrite : q'.rows = q.rows.map (effect moment q r) →
      ∃ added, q'.rows = q.rows.map (effect moment q r) ++ added ∧
        (Numbered q.rows → Numbered q'.rows) ∧ ∀ y ∈ added, y.Blank := by
    intro hRows
    refine ⟨[], by rw [hRows, List.append_nil], fun hHere => ?_, by simp⟩
    rw [hRows]
    exact hHere.map_effect moment r
  cases r with
  | enqueueFromDrained drainedEntries =>
      obtain ⟨added, hRows, hNumbered, hBlank⟩ := enqueue_foldl moment.now drainedEntries q.rows
      have hSame : q'.rows = q.rows ++ added := by
        cases h
        exact hRows
      refine ⟨added, ?_, fun hHere => ?_, hBlank⟩
      · rw [hSame]
        exact congrArg (· ++ added) (List.map_id' q.rows).symm
      · rw [hSame]
        exact hNumbered hHere
  | recordBatchCommit providerId jobId shardIndex batchId =>
      apply hRewrite
      simp only [serve, recordBatchCommit] at h
      by_cases hLength : batchId.length ≠ 32
      · rw [if_pos hLength] at h
        cases h
        refine (List.map_id' q.rows).symm.trans (List.map_congr_left fun x _ => ?_)
        simp only [effect, if_pos hLength]
      · rw [if_neg hLength] at h
        cases h
        simp only [update, List.map_map]
        refine List.map_congr_left fun x _ => ?_
        simp only [effect, if_neg hLength]
        rfl
  | claimSubmittable claimantId leaseSeconds limit =>
      cases h
      exact hRewrite rfl
  | submitOne row =>
      cases h
      exact hRewrite (List.map_id' q.rows).symm
  | markSubmitted row txHashHex =>
      cases h
      exact hRewrite rfl
  | markFailed row errorType errorMessage terminal =>
      cases h
      exact hRewrite rfl

/-! ## Rows that have left `pending` -/

section Recorded

variable {providerId jobId : String} {shardIndex : ℤ} {batchId : Evm.Bytes} {now : ℚ}
  {x : PendingChallenge}

theorem recorded_of_left (h : x.status ≠ .pending) :
    x.recorded providerId jobId shardIndex batchId now = x := by
  have hOpen : x.isPendingOf jobId shardIndex = false := by simp [PendingChallenge.isPendingOf, h]
  have hMinority : x.awaitsMinority providerId jobId shardIndex = false := by
    simp [PendingChallenge.awaitsMinority, hOpen]
  have hMajority : x.awaitsMajority providerId jobId shardIndex = false := by
    simp [PendingChallenge.awaitsMajority, hOpen]
  have hComplete : x.isComplete = false := by simp [PendingChallenge.isComplete, h]
  simp [PendingChallenge.recorded, PendingChallenge.withBatchIds, updated, hMinority, hMajority,
    hComplete]

theorem recorded_status :
    (x.recorded providerId jobId shardIndex batchId now).status = x.status ∨
      x.status = .pending ∧
        (x.recorded providerId jobId shardIndex batchId now).status = .submittable ∧
        (x.recorded providerId jobId shardIndex batchId now).minorityBatchId.isSome ∧
        (x.recorded providerId jobId shardIndex batchId now).majorityBatchId.isSome := by
  have hStatus : (x.withBatchIds providerId jobId shardIndex batchId now).status = x.status :=
    withBatchIds_keeps (·.status) (fun _ _ _ => rfl) (fun _ _ _ => rfl) x
  show (updated _ _ (x.withBatchIds providerId jobId shardIndex batchId now)).status = _ ∨ _ ∧
    (updated _ _ (x.withBatchIds providerId jobId shardIndex batchId now)).status = _ ∧
    (updated _ _ (x.withBatchIds providerId jobId shardIndex batchId now)).minorityBatchId.isSome ∧
    (updated _ _ (x.withBatchIds providerId jobId shardIndex batchId now)).majorityBatchId.isSome
  by_cases hComplete : (x.withBatchIds providerId jobId shardIndex batchId now).isComplete
  · simp only [updated, hComplete, if_true]
    simp only [PendingChallenge.isComplete, Bool.and_eq_true, decide_eq_true_eq] at hComplete
    exact Or.inr ⟨hStatus ▸ hComplete.1.1, rfl, hComplete.1.2, hComplete.2⟩
  · simp only [updated, hComplete]
    exact Or.inl hStatus

theorem recorded_claimedBy :
    (x.recorded providerId jobId shardIndex batchId now).claimedBy = x.claimedBy :=
  recorded_keeps (·.claimedBy) (fun _ _ _ => rfl) (fun _ _ _ => rfl) (fun _ _ => rfl) x

end Recorded

theorem claimable_of_picked (hNumbered : Numbered q.rows) {limit : ℤ} {now : ℚ}
    {x : PendingChallenge} (hx : x ∈ q.rows) (h : x.rowId ∈ picked limit now q) :
    x.claimable now := by
  obtain ⟨y, hy, hId⟩ := List.mem_map.mp h
  have hSorted : y ∈ oldestFirst (q.rows.filter (·.claimable now)) := by
    unfold limited at hy
    split at hy
    · exact hy
    · exact List.mem_of_mem_take hy
  have hFiltered := List.mem_filter.mp (List.mem_mergeSort.mp hSorted)
  rw [hNumbered.unique hx hFiltered.1 hId.symm]
  exact hFiltered.2

/-- The row that a request marks. -/
def Request.marks : Request → Option PendingChallenge
  | .markSubmitted row _ => some row
  | .markFailed row _ _ _ => some row
  | _ => none

/-- What holds of every row. -/
structure PendingChallenge.Sound (x : PendingChallenge) : Prop where
  batches : x.status ≠ .pending → x.minorityBatchId.isSome ∧ x.majorityBatchId.isSome
  claimed : x.claimedBy ≠ none → x.status = .submittable

theorem PendingChallenge.Blank.sound {x : PendingChallenge} (h : x.Blank) : x.Sound :=
  ⟨fun hLeft => absurd h.status hLeft, fun hClaimed => absurd h.claimedBy hClaimed⟩

theorem left_effect {x : PendingChallenge}
    (h : x.status ≠ .pending) : (effect moment q r x).status ≠ .pending := by
  cases r with
  | enqueueFromDrained drainedEntries => exact h
  | recordBatchCommit providerId jobId shardIndex batchId =>
      simp only [effect, recorded_of_left h, ite_self]
      exact h
  | claimSubmittable claimantId leaseSeconds limit =>
      simp only [effect, updated]
      split <;> exact h
  | submitOne row => exact h
  | markSubmitted row txHashHex =>
      simp only [effect, updated]
      split
      · simp [PendingChallenge.markSubmitted]
      · exact h
  | markFailed row errorType errorMessage terminal =>
      simp only [effect, updated]
      split
      · cases terminal <;> simp [PendingChallenge.markFailed]
      · exact h

theorem sound_effect {x : PendingChallenge}
    (hNumbered : Numbered q.rows) (hx : x ∈ q.rows) (h : x.Sound)
    (hMarks : ∀ row, r.marks = some row → x.rowId = row.rowId → x.status ≠ .pending) :
    (effect moment q r x).Sound := by
  cases r with
  | enqueueFromDrained drainedEntries => exact h
  | recordBatchCommit providerId jobId shardIndex batchId =>
      simp only [effect]
      split
      · exact h
      by_cases hLeft : x.status = .pending
      · refine ⟨fun hPromoted => ?_, fun hClaimed => ?_⟩
        · rcases recorded_status with hSame | ⟨-, -, hBatches⟩
          · exact absurd (hSame.trans hLeft) hPromoted
          · exact hBatches
        · rw [recorded_claimedBy] at hClaimed
          have hStatus := h.claimed hClaimed
          rw [hLeft] at hStatus
          cases hStatus
      · rw [recorded_of_left hLeft]
        exact h
  | claimSubmittable claimantId leaseSeconds limit =>
      simp only [effect, updated]
      split
      case isTrue hPicked =>
          have hFree := claimable_of_picked hNumbered hx (of_decide_eq_true hPicked)
          simp only [PendingChallenge.claimable, Bool.and_eq_true, decide_eq_true_eq] at hFree
          exact ⟨h.batches, fun _ => hFree.1⟩
      · exact h
  | submitOne row => exact h
  | markSubmitted row txHashHex =>
      simp only [effect, updated]
      split
      case isTrue hId =>
          have hLeft := hMarks row rfl (of_decide_eq_true hId)
          exact ⟨fun _ => h.batches hLeft, fun hClaimed => absurd rfl hClaimed⟩
      · exact h
  | markFailed row errorType errorMessage terminal =>
      simp only [effect, updated]
      split
      case isTrue hId =>
          have hLeft := hMarks row rfl (of_decide_eq_true hId)
          exact ⟨fun _ => h.batches hLeft, fun hClaimed => absurd rfl hClaimed⟩
      · exact h

/-! ## What a runner works on -/

/-- A runner before its claim, or with the rows that the claim has handed to it. -/
inductive Stage
  | outside
  | working (rows : List PendingChallenge)

inductive Answers : Stage → (r : Request) → Answer r → Stage → Prop
  | enqueue {drainedEntries ids} :
      Answers .outside (.enqueueFromDrained drainedEntries) ids .outside
  | record {providerId jobId shardIndex batchId result} :
      Answers .outside (.recordBatchCommit providerId jobId shardIndex batchId) result .outside
  | claim {claimantId leaseSeconds limit rows} :
      Answers .outside (.claimSubmittable claimantId leaseSeconds limit) rows (.working rows)
  | submit {rows row result} (hRow : row ∈ rows) :
      Answers (.working rows) (.submitOne row) result (.working rows)
  | submitted {rows row txHashHex} (hRow : row ∈ rows) :
      Answers (.working rows) (.markSubmitted row txHashHex) () (.working rows)
  | failed {rows row errorType errorMessage terminal} (hRow : row ∈ rows) :
      Answers (.working rows) (.markFailed row errorType errorMessage terminal) () (.working rows)

/-- The methods write the table through requests only. -/
def protocol : Protocol Queue Request Answer Stage where
  Sees := fun _ _ _ => False
  Writes := fun _ _ _ => False
  Answers := Answers

theorem follows_processRows {maxAttempts : ℤ} {handed rows : List PendingChallenge}
    {results : List ChallengeResult} (hRows : rows ⊆ handed)
    {R : Except Error (List ChallengeResult) → Stage → Prop} (hR : ∀ r, R r (.working handed)) :
    protocol.Follows R (.working handed) (processRows maxAttempts rows results) := by
  induction rows generalizing results with
  | nil => exact hR _
  | cons row rows ih =>
      obtain ⟨hRow, hRest⟩ := List.cons_subset.mp hRows
      intro answer
      refine ⟨.working handed, .submit hRow, ?_⟩
      cases answer with
      | error e => exact hR _
      | ok result =>
          by_cases hSuccess : result.success
          · simp only [Coroutine.bind_returned, hSuccess, if_true]
            intro _
            exact ⟨.working handed, .submitted hRow, ih hRest⟩
          · simp only [Coroutine.bind_returned, hSuccess]
            intro _
            exact ⟨.working handed, .failed hRow, ih hRest⟩

theorem follows_body (me : ℕ) (c : Call) :
    protocol.Follows (fun _ _ => True) .outside (body me c) := by
  cases c with
  | enqueueFromDrained drainedEntries => exact fun ids => ⟨.outside, .enqueue, trivial⟩
  | recordBatchCommit providerId jobId shardIndex batchId =>
      intro result
      refine ⟨.outside, .record, ?_⟩
      cases result with
      | error e => exact trivial
      | ok count => exact trivial
  | processSubmittableQueue limit maxAttempts claimantId leaseSeconds =>
      apply Protocol.follows_bind
      intro rows
      refine ⟨.working rows, .claim, ?_⟩
      refine follows_processRows (List.Subset.refl rows) fun r => ?_
      cases r with
      | error e => exact trivial
      | ok results => exact trivial

end Prsm.ConsensusQueue
