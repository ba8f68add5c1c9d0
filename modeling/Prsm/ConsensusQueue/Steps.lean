import Prsm.ConsensusQueue.Runners

/-!
# What one step of the queue promises

A row goes from `pending` to `submittable` to one of the two ends, and a lease keeps
other runners away from it.  The claim of a row is one statement and respects both.  A
mark is keyed by the row id alone; a step keeps the two promises exactly when a mark
finds its row open, or where the mark takes it, and not under the lease of another.
-/

namespace Prsm.ConsensusQueue

open Foundations

/-- The table and what is left of every call. -/
@[reducible] def Threads : Type := Pool Queue Request Answer Error Reply Call

/-- An empty table, before any call. -/
def opened : Threads := ⟨⟨[]⟩, []⟩

structure Invariant (q : Queue) : Prop where
  numbered : Numbered q.rows
  sound : ∀ x ∈ q.rows, x.Sound

/-- The rows that a runner works on have left `pending`. -/
def Holds : Stage → Queue → Prop
  | .outside, _ => True
  | .working rows, q => ∀ row ∈ rows, ∃ x ∈ q.rows, x.rowId = row.rowId ∧ x.status ≠ .pending

def annotation : Annotation Queue Stage where
  Inv := Invariant
  Holds := fun _ => Holds
  Keeps := fun st _ st' _ => ∀ rows, st = .working rows → st' = .working rows
  keeps_refl := fun _ _ _ h => h
  keeps_trans := fun _ _ _ _ _ _ h h' rows hHere => h' rows (h rows hHere)

variable {q : Queue} {moment : Moment} {r : Request} {st : Stage} {me : ℕ} {pool : Threads}

theorem holds_effect {q' : Queue} {added : List PendingChallenge}
    (hRows : q'.rows = q.rows.map (effect moment q r) ++ added) (h : Holds st q) :
    Holds st q' := by
  cases st with
  | outside => trivial
  | working rows =>
      intro row hRow
      obtain ⟨x, hx, hId, hLeft⟩ := h row hRow
      refine ⟨effect moment q r x, ?_, (effect_rowId moment q r x).trans hId, left_effect hLeft⟩
      rw [hRows]
      exact List.mem_append_left added (List.mem_map_of_mem hx)

theorem marks_of_answers {st' : Stage} {answer : Answer r} {row : PendingChallenge}
    (h : Answers st r answer st') (hMarks : r.marks = some row) :
    ∃ rows, st = .working rows ∧ row ∈ rows := by
  cases h with
  | submitted hRow =>
      cases hMarks
      exact ⟨_, rfl, hRow⟩
  | failed hRow =>
      cases hMarks
      exact ⟨_, rfl, hRow⟩
  | _ => cases hMarks

theorem invariant_serve {q' : Queue} {answer : Answer r}
    {st' : Stage} (hInv : Invariant q) (hHolds : Holds st q) (hAnswers : Answers st r answer st')
    (h : serve me moment q r = some (answer, q')) : Invariant q' := by
  obtain ⟨added, hRows, hNumbered, hBlank⟩ := serve_rows h
  refine ⟨hNumbered hInv.numbered, fun y hy => ?_⟩
  rw [hRows] at hy
  rcases List.mem_append.mp hy with hOld | hNew
  · obtain ⟨x, hx, rfl⟩ := List.mem_map.mp hOld
    refine sound_effect hInv.numbered hx (hInv.sound x hx) fun row hMarks hId => ?_
    obtain ⟨rows, rfl, hRow⟩ := marks_of_answers hAnswers hMarks
    obtain ⟨x', hx', hId', hLeft⟩ := hHolds row hRow
    rw [hInv.numbered.unique hx hx' (hId.trans hId'.symm)]
    exact hLeft
  · exact (hBlank y hNew).sound

theorem open_of_handed {token : String} {leaseSeconds now : ℚ} {limit : ℤ}
    {row : PendingChallenge}
    (hSound : ∀ x ∈ (claimSubmittable token leaseSeconds limit now q).2.rows, x.Sound)
    (h : row ∈ (claimSubmittable token leaseSeconds limit now q).1) :
    row ∈ (claimSubmittable token leaseSeconds limit now q).2.rows ∧
      row.status = .submittable := by
  have hFiltered := List.mem_filter.mp (List.mem_mergeSort.mp h)
  have hClaimed : row.claimedBy = some token := of_decide_eq_true hFiltered.2
  exact ⟨hFiltered.1, (hSound row hFiltered.1).claimed (by simp [hClaimed])⟩

theorem holds_claimed {token : String} {leaseSeconds now : ℚ} {limit : ℤ}
    (hSound : ∀ x ∈ (claimSubmittable token leaseSeconds limit now q).2.rows, x.Sound) :
    Holds (.working (claimSubmittable token leaseSeconds limit now q).1)
      (claimSubmittable token leaseSeconds limit now q).2 := by
  intro row hRow
  obtain ⟨hMem, hOpen⟩ := open_of_handed hSound hRow
  exact ⟨row, hMem, rfl, by simp [hOpen]⟩

def outline : Outline protocol service.serve (fun _ _ _ _ => True) where
  toAnnotation := annotation
  sees := fun h => h.elim
  writes := fun h => h.elim
  answers := by
    intro me st r answer st' moment q q' hAnswers hInv hHolds _ hServe
    replace hServe : serve me moment q r = some (answer, q') := hServe
    replace hHolds : Holds st q := hHolds
    have hInv' := invariant_serve hInv hHolds hAnswers hServe
    obtain ⟨added, hRows, -, -⟩ := serve_rows hServe
    refine ⟨hInv', ?_, ?_, fun _ _ _ hOther => holds_effect hRows hOther⟩
    · cases hAnswers with
      | claim =>
          cases hServe
          exact holds_claimed hInv'.sound
      | enqueue => trivial
      | record => trivial
      | submit hRow => exact holds_effect hRows hHolds
      | submitted hRow => exact holds_effect hRows hHolds
      | failed hRow => exact holds_effect hRows hHolds
    · intro rows hHere
      cases hAnswers with
      | enqueue => cases hHere
      | record => cases hHere
      | claim => cases hHere
      | submit hRow => exact hHere
      | submitted hRow => exact hHere
      | failed hRow => exact hHere

@[reducible] def Tracked (pool : Threads) : Prop :=
  Program.Tracked outline (fun _ _ _ => True) Stage.outside pool

theorem tracked_opened : Tracked opened where
  inv := ⟨rfl, fun x hx => by cases hx⟩
  tasks := fun me c p hTask => by cases hTask
  fresh := fun _ _ => trivial

theorem everyState_tracked (turns : List (Turn Call Moment)) :
    service.machine.EveryState Tracked opened turns :=
  Program.everyState_tracked (fun _ _ => True) follows_body (fun _ _ _ _ _ _ _ _ => trivial)
    (fun _ _ _ _ hCrash => by cases hCrash) tracked_opened fun _ _ _ _ => trivial

theorem serve_of_step {pool' : Threads}
    (h : service.machine.step pool (.serve me moment) = some pool')
    (hAnswered : Program.answered pool (.serve me moment : Turn Call Moment) = some r) :
    ∃ answer, serve me moment pool.state r = some (answer, pool'.state) := by
  obtain ⟨c, p, p', hTask, hMoved, -⟩ := Program.of_turnOf h
  obtain ⟨r', resume, answer, rfl, hServe, -⟩ := Coroutine.of_served hMoved
  have hSame : some r' = some r := by
    simpa [Program.answered, hTask, Coroutine.pending] using hAnswered
  cases hSame
  exact ⟨answer, hServe⟩

theorem serve_isSome (me : ℕ) (moment : Moment) (q : Queue) (r : Request) :
    (serve me moment q r).isSome := by
  cases r with
  | recordBatchCommit providerId jobId shardIndex batchId =>
      simp only [serve]
      split <;> rfl
  | _ => rfl

theorem step_of_answered
    (h : Program.answered pool (.serve me moment : Turn Call Moment) = some r) :
    ∃ pool', service.machine.step pool (.serve me moment) = some pool' := by
  obtain ⟨⟨c, p⟩, hTask, hPending⟩ := Option.bind_eq_some_iff.mp h
  cases p with
  | await r' resume =>
      obtain ⟨⟨answer, q'⟩, hServe⟩ :=
        Option.isSome_iff_exists.mp (serve_isSome me moment pool.state r')
      have hServed : Coroutine.served (serve me moment) (Coroutine.await r' resume) pool.state =
          some (q', resume answer) := by
        simp [Coroutine.served, hServe]
      refine ⟨⟨q', pool.tasks.set me (c, resume answer)⟩, ?_⟩
      show Program.turnOf pool me (Coroutine.served (serve me moment)) = _
      simp [Program.turnOf, hTask, hServed]
  | _ => cases hPending

theorem state_of_step {pool' : Threads} {turn : Turn Call Moment} (hTracked : Tracked pool)
    (h : service.machine.step pool turn = some pool') :
    pool'.state = pool.state ∨ ∃ me moment r answer, turn = .serve me moment ∧
      Program.answered pool turn = some r ∧
      serve me moment pool.state r = some (answer, pool'.state) := by
  cases turn with
  | call c =>
      cases h
      exact Or.inl rfl
  | resume me =>
      obtain ⟨c, p, p', hTask, hMoved, -⟩ := Program.of_turnOf h
      obtain ⟨st, hFollows, -⟩ := hTracked.tasks me c p hTask
      obtain ⟨hState, -, -⟩ := Coroutine.of_resumed hMoved
      have hKept := hFollows.settle_keeps (fun s s' => s' = s) (fun _ => rfl)
        (fun _ _ _ h h' => h'.trans h) (fun _ _ _ _ hWrites => hWrites.elim) pool.state
      exact Or.inl (hState.trans hKept)
  | serve me moment =>
      obtain ⟨c, p, p', hTask, hMoved, -⟩ := Program.of_turnOf h
      obtain ⟨r, resume, answer, rfl, hServe, -⟩ := Coroutine.of_served hMoved
      refine Or.inr ⟨me, moment, r, answer, rfl, ?_, hServe⟩
      simp [Program.answered, hTask, Coroutine.pending]
  | crash => cases h

/-! ## What is promised of a run -/

/-- A row goes forward, or stays where it is. -/
def Status.Moves (before after : Status) : Prop :=
  after = before ∨ before = .pending ∧ after = .submittable ∨
    before = .submittable ∧ (after = .submitted ∨ after = .failed)

instance (before after : Status) : Decidable (before.Moves after) :=
  inferInstanceAs (Decidable (_ ∨ _))

/-- A step loses no row and moves every row forward, and new rows are pending. -/
def MovesForward (pool : Threads) (turn : Turn Call Moment) : Prop :=
  (∀ x ∈ pool.state.rows, ∃ y ∈ (service.machine.exec pool turn).state.rows,
    y.rowId = x.rowId ∧ x.status.Moves y.status) ∧
  ∀ y ∈ (service.machine.exec pool turn).state.rows,
    (∃ x ∈ pool.state.rows, x.rowId = y.rowId) ∨ y.status = .pending

instance (pool : Threads) (turn : Turn Call Moment) : Decidable (MovesForward pool turn) :=
  inferInstanceAs (Decidable (_ ∧ _))

/-- A batch commit of the provider for the shard was recorded in the run. -/
def Recorded (turns : List (Turn Call Moment)) (providerId jobId : String) (shardIndex : ℤ)
    (batchId : Evm.Bytes) : Prop :=
  batchId.length = 32 ∧ ∃ before me moment, before ++ [.serve me moment] <+: turns ∧
    Program.answered (service.machine.run opened before)
      (.serve me moment : Turn Call Moment) =
        some (.recordBatchCommit providerId jobId shardIndex batchId)

/-- Both batch ids of a row that has left `pending` were recorded for it. -/
def PendingChallenge.HasBatches (turns : List (Turn Call Moment)) (x : PendingChallenge) : Prop :=
  x.status ≠ .pending → ∃ minority majority,
    x.minorityBatchId = some minority ∧ x.majorityBatchId = some majority ∧
    Recorded turns x.minorityProviderId x.jobId x.shardIndex minority ∧
    Recorded turns x.majorityProviderId x.jobId x.shardIndex majority

/-- The row is under a lease that has not run out. -/
def PendingChallenge.Leased (now : ℚ) (token : String) (x : PendingChallenge) : Prop :=
  x.claimedBy = some token ∧ ∃ expires ∈ x.leaseExpiresAt, now ≤ expires

/-- A row under a lease is not handed to another claim, and the lease is only given up
by a runner whose claim it is. -/
def LeasesRespected (pool : Threads) (turn : Turn Call Moment) : Prop :=
  ∀ me moment r, turn = .serve me moment → Program.answered pool turn = some r →
    ∀ x ∈ pool.state.rows, ∀ token, x.Leased moment.now token →
      (∀ claimantId leaseSeconds limit, r = .claimSubmittable claimantId leaseSeconds limit →
        ∀ row ∈ (claimSubmittable (claimToken claimantId moment.hex) leaseSeconds limit moment.now
          pool.state).1, row.rowId = x.rowId → token = claimToken claimantId moment.hex) ∧
      ∀ y ∈ (service.machine.exec pool turn).state.rows, y.rowId = x.rowId →
        (y.claimedBy = x.claimedBy ∧ y.leaseExpiresAt = x.leaseExpiresAt) ∨
          ∃ row, r.marks = some row ∧ row.claimedBy = some token

/-- The row is in the table with the status. -/
def HasStatus (pool : Threads) (rowId : ℕ) (status : Status) : Prop :=
  ∃ x ∈ pool.state.rows, x.rowId = rowId ∧ x.status = status

/-- The runner is about to submit the challenge of the row. -/
def Broadcasts (pool : Threads) (me : ℕ) (row : PendingChallenge) : Prop :=
  ∃ c p, pool.tasks[me]? = some (c, p) ∧ p.pending = some (.submitOne row)

/-- A runner whose claim comes after a row was submitted does not broadcast it. -/
def NotBroadcastAgain (turns : List (Turn Call Moment)) : Prop :=
  ∀ earlier before later me moment claimantId leaseSeconds limit row, earlier <+: before →
    before ++ [.serve me moment] <+: later → later <+: turns →
    Program.answered (service.machine.run opened before) (.serve me moment : Turn Call Moment) =
      some (.claimSubmittable claimantId leaseSeconds limit) →
    Broadcasts (service.machine.run opened later) me row →
    ¬HasStatus (service.machine.run opened earlier) row.rowId .submitted

/-- What is promised of every run of the queue and its runners. -/
structure Lifecycle (turns : List (Turn Call Moment)) : Prop where
  moves : service.machine.EveryStep MovesForward opened turns
  batches : ∀ visited, visited <+: turns →
    ∀ x ∈ (service.machine.run opened visited).state.rows, x.HasBatches visited
  leases : service.machine.EveryStep LeasesRespected opened turns
  broadcasts : NotBroadcastAgain turns

/-- The status that a request writes to the row that it marks. -/
def Request.outcome : Request → Status
  | .markSubmitted _ _ => .submitted
  | .markFailed _ _ _ true => .failed
  | _ => .submittable

/-- A mark finds its row still open or where the mark takes it, and not under the lease
of another claim. -/
def MarksInTime (pool : Threads) (turn : Turn Call Moment) : Prop :=
  ∀ me moment r row, turn = .serve me moment → Program.answered pool turn = some r →
    r.marks = some row → ∀ x ∈ pool.state.rows, x.rowId = row.rowId →
      (x.status = .submittable ∨ x.status = r.outcome) ∧
        ∀ token, x.Leased moment.now token → row.claimedBy = some token

/-! ## One answer -/

section Effect

variable {moment : Moment} {q : Queue} {r : Request} {x : PendingChallenge}

variable {row : PendingChallenge} {token : String}

theorem effect_marked (hMarks : r.marks = some row)
    (hId : x.rowId = row.rowId) :
    (effect moment q r x).status = r.outcome ∧ (effect moment q r x).claimedBy = none := by
  cases r with
  | markSubmitted row' txHashHex =>
      cases hMarks
      simp only [effect, updated, hId, decide_true, if_true]
      exact ⟨rfl, rfl⟩
  | markFailed row' errorType errorMessage terminal =>
      cases hMarks
      simp only [effect, updated, hId, decide_true, if_true]
      cases terminal <;> exact ⟨rfl, rfl⟩
  | _ => cases hMarks

theorem moves_of_unmarked (h : ∀ row, r.marks = some row → x.rowId ≠ row.rowId) :
    x.status.Moves (effect moment q r x).status := by
  cases r with
  | enqueueFromDrained drainedEntries => exact Or.inl rfl
  | recordBatchCommit providerId jobId shardIndex batchId =>
      simp only [effect]
      split
      · exact Or.inl rfl
      · rcases recorded_status with hSame | ⟨hPending, hPromoted, -⟩
        · exact Or.inl hSame
        · exact Or.inr (Or.inl ⟨hPending, hPromoted⟩)
  | claimSubmittable claimantId leaseSeconds limit =>
      simp only [effect, updated]
      split <;> exact Or.inl rfl
  | submitOne row => exact Or.inl rfl
  | markSubmitted row txHashHex =>
      simp only [effect, updated, h row rfl, decide_false]
      exact Or.inl rfl
  | markFailed row errorType errorMessage terminal =>
      simp only [effect, updated, h row rfl, decide_false]
      exact Or.inl rfl

theorem outcome_of_marks (hMarks : r.marks = some row) :
    r.outcome = .submittable ∨ r.outcome = .submitted ∨ r.outcome = .failed := by
  cases r with
  | markSubmitted row' txHashHex => exact Or.inr (Or.inl rfl)
  | markFailed row' errorType errorMessage terminal =>
      cases terminal
      · exact Or.inl rfl
      · exact Or.inr (Or.inr rfl)
  | _ => cases hMarks

theorem moves_marked_iff (hMarks : r.marks = some row)
    (hId : x.rowId = row.rowId) (hLeft : x.status ≠ .pending) :
    x.status.Moves (effect moment q r x).status ↔
      x.status = .submittable ∨ x.status = r.outcome := by
  rw [(effect_marked hMarks hId).1]
  constructor
  · rintro (hSame | ⟨hPending, -⟩ | ⟨hOpen, -⟩)
    · exact Or.inr hSame.symm
    · exact absurd hPending hLeft
    · exact Or.inl hOpen
  · rintro (hOpen | hSame)
    · rcases outcome_of_marks hMarks with h | h | h
      · exact Or.inl (h.trans hOpen.symm)
      · exact Or.inr (Or.inr ⟨hOpen, Or.inl h⟩)
      · exact Or.inr (Or.inr ⟨hOpen, Or.inr h⟩)
    · exact Or.inl hSame.symm

theorem not_picked_of_leased {limit : ℤ} {now : ℚ}
    (hNumbered : Numbered q.rows) (hx : x ∈ q.rows) (hLeased : x.Leased now token) :
    x.rowId ∉ picked limit now q := by
  intro hPicked
  have hFree := claimable_of_picked hNumbered hx hPicked
  obtain ⟨hClaimed, expires, hExpires, hLive⟩ := hLeased
  simp only [PendingChallenge.claimable, hClaimed, Option.mem_def.mp hExpires, Option.isNone_some,
    Option.any_some, Bool.false_or, Bool.and_eq_true, decide_eq_true_eq] at hFree
  exact absurd hFree.2 (not_lt.mpr hLive)

theorem lease_of_unmarked (hNumbered : Numbered q.rows) (hx : x ∈ q.rows)
    (hLeased : x.Leased moment.now token) (h : ∀ row, r.marks = some row → x.rowId ≠ row.rowId) :
    (effect moment q r x).claimedBy = x.claimedBy ∧
      (effect moment q r x).leaseExpiresAt = x.leaseExpiresAt := by
  cases r with
  | enqueueFromDrained drainedEntries => exact ⟨rfl, rfl⟩
  | recordBatchCommit providerId jobId shardIndex batchId =>
      simp only [effect]
      split
      · exact ⟨rfl, rfl⟩
      · exact ⟨recorded_claimedBy, recorded_keeps (·.leaseExpiresAt) (fun _ _ _ => rfl)
          (fun _ _ _ => rfl) (fun _ _ => rfl) x⟩
  | claimSubmittable claimantId leaseSeconds limit =>
      have hFree : x.rowId ∉ picked limit moment.now q :=
        not_picked_of_leased hNumbered hx hLeased
      simp only [effect, updated, hFree, decide_false]
      exact ⟨rfl, rfl⟩
  | submitOne row => exact ⟨rfl, rfl⟩
  | markSubmitted row txHashHex =>
      simp only [effect, updated, h row rfl, decide_false]
      exact ⟨rfl, rfl⟩
  | markFailed row errorType errorMessage terminal =>
      simp only [effect, updated, h row rfl, decide_false]
      exact ⟨rfl, rfl⟩

theorem token_of_handed {claimToken : String} {leaseSeconds now : ℚ} {limit : ℤ}
    (hNumbered : Numbered q.rows) (hx : x ∈ q.rows) (hLeased : x.Leased now token)
    (hRow : row ∈ (claimSubmittable claimToken leaseSeconds limit now q).1)
    (hId : row.rowId = x.rowId) : token = claimToken := by
  have hFiltered := List.mem_filter.mp (List.mem_mergeSort.mp hRow)
  obtain ⟨y, hy, hSame⟩ := List.mem_map.mp hFiltered.1
  have hKeptId : row.rowId = y.rowId := by
    rw [← hSame]
    apply updated_keeps (·.rowId)
    exact fun _ => rfl
  have hxy : y = x := hNumbered.unique hy hx (hKeptId.symm.trans hId)
  have hFree : x.rowId ∉ picked limit now q := not_picked_of_leased hNumbered hx hLeased
  rw [hxy] at hSame
  simp only [updated, hFree, decide_false] at hSame
  rw [← hSame] at hFiltered
  exact Option.some.inj (hLeased.1.symm.trans (of_decide_eq_true hFiltered.2))

end Effect

section Step

variable {pool pool' : Threads} {turn : Turn Call Moment}

theorem left_of_marks (hTracked : Tracked pool) {r : Request} {row x : PendingChallenge}
    (hAnswered : Program.answered pool turn = some r) (hMarks : r.marks = some row)
    (hx : x ∈ pool.state.rows) (hId : x.rowId = row.rowId) : x.status ≠ .pending := by
  obtain ⟨me, st, hHolds, hAnswers⟩ := hTracked.waiting hAnswered
  have hAnswer : Nonempty (Answer r) := by
    cases r with
    | markSubmitted row' txHashHex => exact ⟨()⟩
    | markFailed row' errorType errorMessage terminal => exact ⟨()⟩
    | _ => cases hMarks
  obtain ⟨answer⟩ := hAnswer
  obtain ⟨st', hAnswers⟩ := hAnswers answer
  obtain ⟨rows, rfl, hRow⟩ := marks_of_answers hAnswers hMarks
  obtain ⟨x', hx', hId', hLeft⟩ := hHolds row hRow
  rw [hTracked.inv.numbered.unique hx hx' (hId.trans hId'.symm)]
  exact hLeft

theorem mem_rows_of_serve {me : ℕ} {moment : Moment} {q q' : Queue} {r : Request}
    {answer : Answer r} (h : serve me moment q r = some (answer, q')) :
    (∀ x ∈ q.rows, effect moment q r x ∈ q'.rows) ∧
      ∀ y ∈ q'.rows, (∃ x ∈ q.rows, y = effect moment q r x) ∨ y.Blank := by
  obtain ⟨added, hRows, -, hBlank⟩ := serve_rows h
  rw [hRows]
  refine ⟨fun x hx => List.mem_append_left added (List.mem_map_of_mem hx), fun y hy => ?_⟩
  rcases List.mem_append.mp hy with hOld | hNew
  · obtain ⟨x, hx, rfl⟩ := List.mem_map.mp hOld
    exact Or.inl ⟨x, hx, rfl⟩
  · exact Or.inr (hBlank y hNew)

theorem effect_of_rowId {me : ℕ} {moment : Moment} {q q' : Queue} {r : Request} {answer : Answer r}
    (h : serve me moment q r = some (answer, q')) (hNumbered : Numbered q.rows)
    {x y : PendingChallenge} (hx : x ∈ q.rows) (hy : y ∈ q'.rows) (hId : y.rowId = x.rowId) :
    y = effect moment q r x := by
  obtain ⟨added, -, hNumbered', -⟩ := serve_rows h
  have hEffect := (mem_rows_of_serve h).1 x hx
  exact (hNumbered' hNumbered).unique hy hEffect (hId.trans (effect_rowId moment q r x).symm)

theorem movesForward_of_inTime (hTracked : Tracked pool)
    (hTurn : service.machine.step pool turn = some pool') (hInTime : MarksInTime pool turn) :
    MovesForward pool turn := by
  rw [MovesForward, service.machine.exec_of_step hTurn]
  rcases state_of_step hTracked hTurn with hSame | ⟨me, moment, r, answer, rfl, hAnswered, hServe⟩
  · rw [hSame]
    exact ⟨fun x hx => ⟨x, hx, rfl, Or.inl rfl⟩, fun y hy => Or.inl ⟨y, hy, rfl⟩⟩
  · obtain ⟨hOld, hAll⟩ := mem_rows_of_serve hServe
    refine ⟨fun x hx => ⟨_, hOld x hx, effect_rowId moment _ r x, ?_⟩, fun y hy => ?_⟩
    · by_cases hMarked : ∃ row, r.marks = some row ∧ x.rowId = row.rowId
      · obtain ⟨row, hMarks, hId⟩ := hMarked
        have hLeft := left_of_marks hTracked hAnswered hMarks hx hId
        have hHere := (hInTime me moment r row rfl hAnswered hMarks x hx hId).1
        exact (moves_marked_iff hMarks hId hLeft).mpr hHere
      · exact moves_of_unmarked fun row hMarks hId => hMarked ⟨row, hMarks, hId⟩
    · rcases hAll y hy with ⟨x, hx, rfl⟩ | hBlank
      · exact Or.inl ⟨x, hx, (effect_rowId moment _ r x).symm⟩
      · exact Or.inr hBlank.status

theorem leasesRespected_of_inTime (hTracked : Tracked pool)
    (hTurn : service.machine.step pool turn = some pool') (hInTime : MarksInTime pool turn) :
    LeasesRespected pool turn := by
  intro me moment r hSame hAnswered x hx token hLeased
  subst hSame
  have hNumbered := hTracked.inv.numbered
  refine ⟨fun claimantId leaseSeconds limit hClaim row hRow hId => ?_, fun y hy hId => ?_⟩
  · exact token_of_handed hNumbered hx hLeased hRow hId
  rw [service.machine.exec_of_step hTurn] at hy
  obtain ⟨answer, hServe⟩ := serve_of_step hTurn hAnswered
  rw [effect_of_rowId hServe hNumbered hx hy hId]
  by_cases hMarked : ∃ row, r.marks = some row ∧ x.rowId = row.rowId
  · obtain ⟨row, hMarks, hRowId⟩ := hMarked
    have hHere := (hInTime me moment r row rfl hAnswered hMarks x hx hRowId).2
    exact Or.inr ⟨row, hMarks, hHere token hLeased⟩
  · exact Or.inl (lease_of_unmarked hNumbered hx hLeased fun row hMarks hRowId =>
      hMarked ⟨row, hMarks, hRowId⟩)

theorem inTime_of_kept (hTracked : Tracked pool)
    (hTurn : service.machine.step pool turn = some pool') (hMoves : MovesForward pool turn)
    (hLeases : LeasesRespected pool turn) : MarksInTime pool turn := by
  intro me moment r row hSame hAnswered hMarks x hx hId
  subst hSame
  have hNumbered := hTracked.inv.numbered
  have hLeft := left_of_marks hTracked hAnswered hMarks hx hId
  obtain ⟨answer, hServe⟩ := serve_of_step hTurn hAnswered
  have hEffect := (mem_rows_of_serve hServe).1 x hx
  rw [MovesForward, service.machine.exec_of_step hTurn] at hMoves
  constructor
  · obtain ⟨y, hy, hSameId, hMove⟩ := hMoves.1 x hx
    rw [effect_of_rowId hServe hNumbered hx hy hSameId] at hMove
    exact (moves_marked_iff hMarks hId hLeft).mp hMove
  · intro token hLeased
    have hKept := (hLeases me moment r rfl hAnswered x hx token hLeased).2
    rw [service.machine.exec_of_step hTurn] at hKept
    rcases hKept _ hEffect (effect_rowId moment _ r x) with ⟨hClaimed, -⟩ | ⟨row', hMarks', hToken⟩
    · rw [(effect_marked hMarks hId).2, hLeased.1] at hClaimed
      cases hClaimed
    · obtain rfl : row' = row := Option.some.inj (hMarks'.symm.trans hMarks)
      exact hToken

end Step

end Prsm.ConsensusQueue
