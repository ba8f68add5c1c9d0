import Prsm.AtomicFtns.Sessions
import Prsm.Foundations.Protocol

/-!
# Balances and their log

A deduction and a transfer look at the `rowcount` of each `UPDATE` and roll back when the
version they have read is gone.  A mint does not: its row of the log is committed although its
amount has not moved.  A mint also takes a negative amount.
-/

namespace Prsm.AtomicFtns

open Foundations

/-- What a call is to move. -/
def Call.moves : Call → String → ℚ
  | .deduct user amount _ _ _ => fun userId => if userId = user then -amount else 0
  | .transfer fromUser toUser amount _ _ _ => fun userId =>
      (if userId = toUser then amount else 0) - if userId = fromUser then amount else 0
  | .mint toUser amount _ _ _ => fun userId => if userId = toUser then amount else 0

/-- The result reports an operation that was carried out now. -/
def TransactionResult.Applied (result : TransactionResult) : Prop :=
  result.success = true ∧ result.idempotentReplay = false

/-- What the service promises of the committed tables and of its results. -/
structure Sound (opening : String → ℚ) (pool : ServicePool) : Prop where
  agrees : pool.state.committed.Agrees opening
  covered : pool.state.committed.Covered
  apart : pool.state.committed.Apart
  reported : ∀ me call p result, pool.tasks[me]? = some (call, p) →
    p.outcome = some (.ok result) → result.Applied → Moved me call.moves pool.state

section Methods

variable {opening : String → ℚ} {me : ℕ} {db : Database} {moves : String → ℚ}

variable {message : Message} {transactionId userId key description fromUserId toUserId : String}
  {amount : ℚ}

theorem not_applied_failure :
    ¬ (TransactionResult.failure message).Applied :=
  fun h => Bool.false_ne_true h.1

theorem not_applied_replay :
    ¬ (TransactionResult.replay transactionId).Applied :=
  fun h => Bool.false_ne_true h.2.symm

theorem finished_failure (hIdle : Idle me db) :
    Finished me moves (TransactionResult.failure message).Applied db :=
  ⟨hIdle, fun h => absurd h not_applied_failure⟩

theorem finished_replay (hIdle : Idle me db) :
    Finished me moves (TransactionResult.replay transactionId).Applied db :=
  ⟨hIdle, fun h => absurd h not_applied_replay⟩

theorem meets_withSession {α : Type} {p : α → Prop} {body : Method α} (hInv : Good opening db)
    (hBody : Meets opening me (fun a => Finished me moves (p a)) body db) :
    Meets opening me (fun a => Finished me moves (p a)) (withSession body) db := by
  apply Meets.tryCatch _ hInv
  · intro e db hInv
    exact (meets_rollback hInv).bind hInv fun _ _ _ _ => meets_raised
  · apply hBody.bind hInv
    intro a db hInv hFinished
    exact (meets_commit_idle hInv hFinished).bind hInv fun _ _ _ hHere => meets_returned hHere

theorem meets_failure (hInv : Good opening db) :
    Meets opening me (fun result => Finished me moves (TransactionResult.Applied result))
      ((execute .rollback).bind fun _ => .returned (TransactionResult.failure message)) db :=
  (meets_rollback hInv).bind hInv fun _ _ _ hIdle => meets_returned (finished_failure hIdle)

theorem meets_ensureAccountExists (hInv : Good opening db)
    (hIdle : Idle me db) :
    Meets opening me (fun _ => Idle me) (ensureAccountExists userId 0) db := by
  have hSession : Meets opening me (fun _ => Finished me (fun _ => 0) False)
      (ensureAccountExists userId 0) db := by
    apply meets_withSession hInv
    apply Meets.tryCatch _ hInv
    · intro e db hInv
      exact (meets_rollback hInv).bind hInv fun _ _ _ hIdle => meets_returned ⟨hIdle, False.elim⟩
    · have hInsert : Meets opening me
          (fun _ => Holding me fun committed t => committed.Accounted t ∧
            ∀ u, t.balance u = committed.balance u + 0)
          (execute (.insertAccount userId 0)) db := by
        apply meets_firstWrite (f := fun _ t => .ok ((), t.insertAccount userId 0))
          (F := fun _ => True) hInv hIdle trivial (fun _ _ _ => id) (fun _ => rfl)
        intro choice db now rows t _ _ _ _ _ hOk
        cases hOk
        refine ⟨Tables.accounted_insertAccount _ _, fun u => ?_⟩
        have hAccounted := (Tables.accounted_insertAccount db.committed userId).balance u
        have hLogged : (db.committed.insertAccount userId 0).logged u = db.committed.logged u := by
          unfold Tables.insertAccount
          split <;> rfl
        linarith
      apply hInsert.bind hInv
      intro _ db hInv hHeld
      apply (meets_commit hInv hHeld).bind hInv
      exact fun _ _ _ hFinished => meets_returned ⟨hFinished.1, False.elim⟩
  exact hSession.imp hInv fun _ _ hFinished => hFinished.1

theorem meets_checkIdempotency (hInv : Good opening db) (hIdle : Idle me db) :
    Meets opening me (fun _ => Idle me) (checkIdempotency key) db := by
  have hSelect : Meets opening me (fun _ db => Idle me db ∧ True) (checkIdempotency key) db := by
    apply meets_select (K := fun _ _ => True) hInv hIdle fun _ _ _ _ _ _ => id
    exact fun db _ => ⟨_, rfl, trivial⟩
  exact hSelect.imp hInv fun _ _ hHere => hHere.1

theorem safe_selectBalance (hInv : Good opening db) (hIdle : Idle me db) :
    (discipline opening).Safe serve me
      (Ends (fun row db => Idle me db ∧ ∀ a, row = some a → db.committed.Seen userId a)
        fun _ => Idle me) (execute (.selectBalance userId)) db := by
  apply safe_select (r := .selectBalance userId)
    (K := fun row db => ∀ a, row = some a → db.committed.Seen userId a) hInv hIdle
  · intro row db db' hInv hRely hInv' hSeen a hRow
    exact stable_seen db db' hInv hRely hInv' (hSeen a hRow)
  · intro db hIdle
    refine ⟨_, rfl, fun a hRow => ⟨a, ?_, le_rfl, fun _ => rfl⟩⟩
    rwa [visible_of_idle hIdle] at hRow

theorem meets_selectBalance (hInv : Good opening db) (hIdle : Idle me db) :
    Meets opening me (fun _ => Idle me) (execute (.selectBalance userId)) db := by
  apply (safe_selectBalance hInv hIdle).imp hInv
  intro answer db _ hHere
  cases answer with
  | ok row => exact hHere.1
  | error e => trivial

theorem meets_attemptBalance (hInv : Good opening db) (hIdle : Idle me db) :
    Meets opening me
      (fun row db => Idle me db ∧ ∀ a, row = .ok (some a) → db.committed.Seen userId a)
      (execute (.selectBalance userId)).attempt db := by
  apply (safe_selectBalance hInv hIdle).attempt.imp hInv
  rintro (e | row) db hInv hHere
  · trivial
  · cases row with
    | error e => exact ⟨hHere, fun a hEq => by cases hEq⟩
    | ok row => exact ⟨hHere.1, fun a hEq => hHere.2 a (Except.ok.inj hEq)⟩

theorem meets_booked {row : Transaction}
    {operationType : TransactionType} {result : TransactionResult}
    (hInv : Good opening db) (hHeld : Holding me (Tables.Moves moves) db)
    (hEffect : ∀ createdAt u, TransactionRow.effect ⟨row, createdAt⟩ u = moves u) :
    Meets opening me (fun result => Finished me moves result.Applied)
      ((execute (.insertTransaction row)).bind fun _ =>
        (recordIdempotency key transactionId userId operationType amount).bind fun _ =>
          (execute .commit).bind fun _ => .returned result) db := by
  let R : Tables → Tables → Prop := fun committed t =>
    committed.Accounted t ∧ ∀ u, t.balance u = committed.balance u + moves u
  have hInsert : Meets opening me (fun _ => Holding me R)
      (execute (.insertTransaction row)) db := by
    apply meets_nextWrite (f := fun now t => if t.accepts row then
      .ok ((), { t with ftnsTransactions := t.ftnsTransactions ++ [⟨row, now⟩] })
      else .error .integrity) hInv hHeld (fun _ => rfl)
    intro now committed t _ t' hMoves hOk
    split at hOk
    next hAccepts =>
      cases hOk
      exact ⟨hMoves.accounted hAccepts (hEffect now), hMoves.balance⟩
    · cases hOk
  apply hInsert.bind hInv
  intro _ db hInv hHeld
  have hRecord : Meets opening me (fun _ => Holding me R)
      (recordIdempotency key transactionId userId operationType amount) db := by
    apply meets_nextWrite (f := fun now t => .ok ((), t.insertKey key
      ⟨transactionId, userId, operationType, amount, now, now + idempotencyTtl⟩)) hInv hHeld
      (fun _ => rfl)
    rintro now committed t _ t' ⟨hAccounted, hBalance⟩ hOk
    cases hOk
    exact ⟨Tables.accounted_insertKey hAccounted _ _, fun u => by simp [hBalance]⟩
  apply hRecord.bind hInv
  intro _ db hInv hHeld
  apply (meets_commit hInv hHeld).bind hInv
  exact fun _ _ _ hFinished => meets_returned ⟨hFinished.1, fun _ => hFinished.2 trivial⟩

theorem meets_modified {α : Type} {K : α → Database → Prop} {e : Error} (hInv : Good opening db) :
    Meets opening me K ((execute .rollback).bind fun _ => .raised e) db :=
  (meets_rollback hInv).bind hInv fun _ _ _ _ => meets_raised

/-! ### Deductions -/

theorem meets_applyDeduction
    {row : Account} (hInv : Good opening db) (hIdle : Idle me db)
    (hSeen : db.committed.Seen userId row) (hCovered : amount ≤ row.balance - row.lockedBalance) :
    Meets opening me (fun result => Finished me (fun u => if u = userId then -amount else 0)
        result.Applied)
      (applyDeduction userId amount key description transactionId row) db := by
  have hUpdate : Meets opening me
      (fun rowcount => Holding me fun committed t =>
        rowcount = 0 ∨ Tables.Moves (fun u => if u = userId then -amount else 0) committed t)
      (execute (.updateDeducted userId (row.balance - amount) amount (row.version + 1)
        row.version)) db := by
    apply meets_firstWrite (f := fun _ t => .ok (t.update userId row.version fun a =>
      a.deducted (row.balance - amount) amount (row.version + 1))) hInv hIdle hSeen
      (fun _ _ hGrown hSeen => hSeen.grown hGrown) (fun _ => rfl)
    intro choice db now rowcount t _ _ hSeen _ _ hOk
    rcases Tables.of_update (Except.ok.inj hOk) with hNone | ⟨a, hHere, hVersion, rfl⟩
    · exact .inl hNone
    · obtain ⟨a', hHere', -, hSame⟩ := hSeen
      cases hHere.symm.trans hHere'
      obtain rfl := hSame hVersion
      refine .inr ((Tables.moves_set hHere ?_ ?_).congr fun u => ?_)
      · exact Nat.lt_succ_self _
      · intro _
        show a.lockedBalance ≤ a.balance - amount
        linarith
      · simp [Account.deducted]
  apply hUpdate.bind hInv
  intro rowcount db hInv hHeld
  show Meets _ _ _ (if rowcount = 0 then _ else _) db
  split
  · exact meets_modified hInv
  next hSome =>
    obtain ⟨t, hWriter, hMoves⟩ := hHeld
    apply meets_booked hInv ⟨t, hWriter, hMoves.resolve_left hSome⟩
    intro createdAt u
    by_cases hu : u = userId
    · simp [TransactionRow.effect, hu]
    · simp [TransactionRow.effect, hu, Ne.symm hu]

theorem meets_deduct
    (hInv : Good opening db) (hIdle : Idle me db) :
    Meets opening me (fun result => Finished me (fun u => if u = userId then -amount else 0)
        result.Applied)
      (deduct userId amount key description transactionId) db := by
  apply (meets_checkIdempotency hInv hIdle).bind hInv
  intro existing db hInv hIdle
  cases existing with
  | some existing => exact meets_returned (finished_replay hIdle)
  | none =>
      apply (meets_attemptBalance hInv hIdle).bind hInv
      rintro row db hInv ⟨hIdle, hRow⟩
      rcases row with e | (_ | row)
      · exact meets_returned (finished_failure hIdle)
      · exact meets_returned (finished_failure hIdle)
      · show Meets _ _ _ (if row.balance - row.lockedBalance < amount then _ else _) db
        split
        · exact meets_returned (finished_failure hIdle)
        next hEnough =>
          exact meets_applyDeduction hInv hIdle (hRow _ rfl) (not_lt.mp hEnough)

theorem meets_deductTokensAtomic
    (hInv : Good opening db) (hIdle : Idle me db) :
    Meets opening me (fun result => Finished me (fun u => if u = userId then -amount else 0)
        result.Applied)
      (deductTokensAtomic userId amount key description transactionId) db := by
  unfold deductTokensAtomic
  split
  · exact meets_returned (finished_failure hIdle)
  · apply meets_withSession hInv
    apply (meets_deduct hInv hIdle).tryCatch hInv
    intro e db hInv
    apply (meets_rollback hInv).bind hInv
    intro _ db hInv hIdle
    split
    · exact meets_raised
    · exact meets_returned (finished_failure hIdle)

/-! ### Transfers -/

theorem meets_selectBalances {user1 user2 : String} (hInv : Good opening db)
    (hIdle : Idle me db) :
    Meets opening me
      (fun rows db => Idle me db ∧
        ∀ userId a, rows.get? userId = some a → db.committed.Seen userId a)
      (execute (.selectBalances user1 user2)) db := by
  apply meets_select (r := .selectBalances user1 user2)
    (K := fun rows db => ∀ userId a, rows.get? userId = some a → db.committed.Seen userId a)
    hInv hIdle
  · intro rows db db' hInv hRely hInv' hSeen userId a hRow
    exact stable_seen db db' hInv hRely hInv' (hSeen userId a hRow)
  · intro db hIdle
    refine ⟨_, rfl, fun userId a hRow => ⟨a, ?_, le_rfl, fun _ => rfl⟩⟩
    rw [visible_of_idle hIdle] at hRow
    exact (Dict.get?_of_filterKeys hRow).2

theorem meets_updateSender {sender : Account}
    (hInv : Good opening db) (hIdle : Idle me db) (hSeen : db.committed.Seen userId sender)
    (hCovered : amount ≤ sender.balance - sender.lockedBalance) :
    Meets opening me
      (fun rowcount => Holding me fun committed t =>
        rowcount = 0 ∨ Tables.Moves (fun u => if u = userId then -amount else 0) committed t)
      (execute (.updateSender userId amount sender.version)) db := by
  apply meets_firstWrite (f := fun _ t => .ok (t.update userId sender.version fun a =>
    a.debited amount)) hInv hIdle hSeen (fun _ _ hGrown hSeen => hSeen.grown hGrown)
    (fun _ => rfl)
  intro choice db now rowcount t _ _ hSeen _ _ hOk
  rcases Tables.of_update (Except.ok.inj hOk) with hNone | ⟨a, hHere, hVersion, rfl⟩
  · exact .inl hNone
  · obtain ⟨a', hHere', -, hSame⟩ := hSeen
    cases hHere.symm.trans hHere'
    obtain rfl := hSame hVersion
    refine .inr ((Tables.moves_set hHere ?_ ?_).congr fun u => ?_)
    · exact Nat.lt_succ_self _
    · intro _
      show a.lockedBalance ≤ a.balance - amount
      linarith
    · simp [Account.debited]

theorem meets_updateReceiver {version : ℕ}
    (hInv : Good opening db) (hHeld : Holding me (Tables.Moves moves) db) (hAmount : 0 < amount) :
    Meets opening me
      (fun rowcount => Holding me fun committed t => rowcount = 0 ∨
        Tables.Moves (fun u => moves u + if u = userId then amount else 0) committed t)
      (execute (.updateReceiver userId amount version)) db := by
  apply meets_nextWrite (f := fun _ t => .ok (t.update userId version fun a =>
    a.credited amount)) hInv hHeld (fun _ => rfl)
  intro now committed t rowcount t' hMoves hOk
  rcases Tables.of_update (Except.ok.inj hOk) with hNone | ⟨a, hHere, hVersion, rfl⟩
  · exact .inl hNone
  · refine .inr (hMoves.trans ((Tables.moves_set hHere ?_ ?_).congr fun u => ?_))
    · exact Nat.lt_succ_self _
    · intro hCovered
      show a.lockedBalance ≤ a.balance + amount
      linarith
    · simp [Account.credited]

theorem meets_applyTransfer {sender receiver : Account} (hInv : Good opening db)
    (hIdle : Idle me db)
    (hSeen : db.committed.Seen fromUserId sender) (hAmount : 0 < amount)
    (hCovered : amount ≤ sender.balance - sender.lockedBalance) :
    Meets opening me (fun result => Finished me
        (fun u => (if u = toUserId then amount else 0) - if u = fromUserId then amount else 0)
        result.Applied)
      (applyTransfer fromUserId toUserId amount key description transactionId sender receiver)
      db := by
  apply (meets_updateSender hInv hIdle hSeen hCovered).bind hInv
  intro debited db hInv hHeld
  show Meets _ _ _ (if debited = 0 then _ else _) db
  split
  · exact meets_modified hInv
  next hDebited =>
    obtain ⟨t, hWriter, hMoves⟩ := hHeld
    have hHeld : Holding me (Tables.Moves fun u => if u = fromUserId then -amount else 0) db :=
      ⟨t, hWriter, hMoves.resolve_left hDebited⟩
    apply (meets_updateReceiver hInv hHeld hAmount).bind hInv
    intro credited db hInv hHeld
    show Meets _ _ _ (if credited = 0 then _ else _) db
    split
    · exact meets_modified hInv
    next hCredited =>
      obtain ⟨t, hWriter, hMoves⟩ := hHeld
      have hBoth : Tables.Moves (fun u => (if u = toUserId then amount else 0) -
          if u = fromUserId then amount else 0) db.committed t := by
        apply (hMoves.resolve_left hCredited).congr
        intro u
        split <;> ring
      apply meets_booked hInv ⟨t, hWriter, hBoth⟩
      intro createdAt u
      simp [TransactionRow.effect, eq_comm]

theorem meets_transfer
    (hInv : Good opening db) (hIdle : Idle me db) (hAmount : 0 < amount) :
    Meets opening me (fun result => Finished me
        (fun u => (if u = toUserId then amount else 0) - if u = fromUserId then amount else 0)
        result.Applied)
      (transfer fromUserId toUserId amount key description transactionId) db := by
  apply (meets_checkIdempotency hInv hIdle).bind hInv
  intro existing db hInv hIdle
  split
  · exact meets_returned (finished_replay hIdle)
  · apply (meets_selectBalances hInv hIdle).bind hInv
    rintro rows db hInv ⟨hIdle, hRows⟩
    split
    · exact meets_returned (finished_failure hIdle)
    · exact meets_returned (finished_failure hIdle)
    next sender receiver hSender _ =>
      show Meets _ _ _ (if sender.balance - sender.lockedBalance < amount then _ else _) db
      split
      · exact meets_returned (finished_failure hIdle)
      next hEnough =>
        exact meets_applyTransfer hInv hIdle (hRows _ _ hSender) hAmount (not_lt.mp hEnough)

theorem meets_transferTokensAtomic (hInv : Good opening db) (hIdle : Idle me db) :
    Meets opening me (fun result => Finished me
        (fun u => (if u = toUserId then amount else 0) - if u = fromUserId then amount else 0)
        result.Applied)
      (transferTokensAtomic fromUserId toUserId amount key description transactionId) db := by
  unfold transferTokensAtomic
  split
  · exact meets_returned (finished_failure hIdle)
  next hAmount =>
    split
    · exact meets_returned (finished_failure hIdle)
    · apply (meets_ensureAccountExists hInv hIdle).bind hInv
      intro _ db hInv hIdle
      apply (meets_ensureAccountExists hInv hIdle).bind hInv
      intro _ db hInv hIdle
      apply meets_withSession hInv
      apply (meets_transfer hInv hIdle (not_le.mp hAmount)).tryCatch hInv
      exact fun _ _ hInv => meets_failure hInv

/-! ### Mints -/

theorem meets_applyMint
    {row : Account} (hInv : Good opening db) (hIdle : Idle me db) :
    Meets opening me (fun result => Finished me (fun u => if u = toUserId then amount else 0)
        result.Applied)
      (applyMint toUserId amount key description transactionId row) db := by
  have hUpdate : Meets opening me
      (fun _ => Holding me (Tables.Moves fun u => if u = toUserId then amount else 0))
      (execute (.updateMinted toUserId amount row.version)) db := by
    apply meets_firstWrite (f := fun _ t => .ok (t.update toUserId row.version fun a =>
      a.credited amount)) (F := fun _ => True) hInv hIdle trivial (fun _ _ _ => id) (fun _ => rfl)
    intro choice db now rowcount t _ hIdle _ hFails hPermitted hOk
    obtain ⟨a, hHere, hVersion, hCovered⟩ := hPermitted (hFails.resolve_right (by simp))
    rw [visible_of_idle hIdle] at hHere
    -- the version is the one that the mint has read, so the row changes
    have hSet : t = { db.committed with
        ftnsBalances := db.committed.ftnsBalances.set toUserId (a.credited amount) } := by
      have hUpdated := Except.ok.inj hOk
      have hRow : db.committed.ftnsBalances.get? toUserId = some a := hHere
      simp only [Tables.update, hRow, hVersion, if_true] at hUpdated
      exact (Prod.mk.inj hUpdated).2.symm
    rw [hSet]
    refine (Tables.moves_set hHere ?_ ?_).congr fun u => ?_
    · exact Nat.lt_succ_self _
    · exact fun _ => hCovered
    · simp [Account.credited]
  apply hUpdate.bind hInv
  intro _ db hInv hHeld
  apply meets_booked hInv hHeld
  intro createdAt u
  simp [TransactionRow.effect, eq_comm]

theorem meets_mint
    (hInv : Good opening db) (hIdle : Idle me db) :
    Meets opening me (fun result => Finished me (fun u => if u = toUserId then amount else 0)
        result.Applied)
      (mint toUserId amount key description transactionId) db := by
  apply (meets_checkIdempotency hInv hIdle).bind hInv
  intro existing db hInv hIdle
  split
  · exact meets_returned (finished_replay hIdle)
  · apply (meets_selectBalance hInv hIdle).bind hInv
    intro row db hInv hIdle
    cases row with
    | none => exact meets_returned (finished_failure hIdle)
    | some row => exact meets_applyMint hInv hIdle

theorem meets_mintTokensAtomic
    (hInv : Good opening db) (hIdle : Idle me db) :
    Meets opening me (fun result => Finished me (fun u => if u = toUserId then amount else 0)
        result.Applied)
      (mintTokensAtomic toUserId amount key description transactionId) db := by
  apply (meets_ensureAccountExists hInv hIdle).bind hInv
  intro _ db hInv hIdle
  apply meets_withSession hInv
  apply (meets_mint hInv hIdle).tryCatch hInv
  exact fun _ _ hInv => meets_failure hInv

theorem meets_body (call : Call) (hInv : Good opening db) (hIdle : Idle me db) :
    Meets opening me (fun result => Finished me call.moves result.Applied) (body call) db := by
  cases call with
  | deduct => exact meets_deductTokensAtomic hInv hIdle
  | transfer => exact meets_transferTokensAtomic hInv hIdle
  | mint => exact meets_mintTokensAtomic hInv hIdle

end Methods

section Runs

variable {opening : String → ℚ} {pool pool' : ServicePool}

/-- The invariant holds, and every session is safe. -/
def Tracked (opening : String → ℚ) (pool : ServicePool) : Prop :=
  program.Good (discipline opening)
    (fun me call => Ends (fun result => Finished me call.moves result.Applied) fun _ _ => True) pool

theorem Tracked.sound (h : Tracked opening pool) : Sound opening pool where
  agrees := h.inv.agrees
  covered := h.inv.covered
  apart := h.inv.unique.apart
  reported := fun _ _ _ _ hTask hOutcome hApplied => (h.post hTask hOutcome).2 hApplied

theorem Tracked.advance (h : Tracked opening pool) {turn : Turn Call Choice}
    (hAllowed : Program.Answerable Permitted pool turn)
    (hTurn : program.machine.step pool turn = some pool') : Tracked opening pool' := by
  apply Program.Good.advance h _ hTurn
  · exact fun call me db _ hInv hIdle => meets_body call hInv hIdle
  · exact hAllowed
  · exact fun db _ hState => by cases hState
  · intro me call answer
    cases answer with
    | ok result => exact stable_finished
    | error e => exact fun _ _ _ _ _ => id

theorem tracked_opened {t : Tables} (hCovered : t.Covered) (hUnique : t.UniqueKeys) (now : ℕ) :
    Tracked t.opening (opened t now) where
  inv := ⟨t.agrees_opening, hCovered, hUnique⟩
  suspended := fun me call p hTask => by simp [opened] at hTask
  fresh := fun me _ _ hEq => by cases hEq

end Runs

/-- The balances agree with the log of the transactions and cover what is locked, no key
is applied twice within its validity, and a call that reports success has moved its
amount: in every run in which each mint finds the version that it has read and leaves
the balance above what is locked. -/
theorem balances_agree {t : Tables} (hCovered : t.Covered) (hUnique : t.UniqueKeys) (now : ℕ)
    {turns : List (Turn Call Choice)}
    (hSteps : program.machine.EveryStep (Program.Answerable Permitted) (opened t now) turns) :
    program.machine.EveryState (Sound t.opening) (opened t now) turns := by
  have hTracked : program.machine.EveryState (Tracked t.opening) (opened t now) turns :=
    program.machine.everyState_of_everyStep _ (Program.Answerable Permitted)
      (fun _ _ _ h hAllowed hTurn => h.advance hAllowed hTurn)
      (tracked_opened hCovered hUnique now) hSteps
  exact fun visited hVisited => (hTracked visited hVisited).sound

section Examples

def bobsTables : Tables :=
  ⟨Dict.ofEntries [("bob", ⟨4, 3, 4, 0, 1⟩)], [], ∅⟩

def mintForBob (amount : ℚ) (key : String) : Call :=
  .mint "bob" amount key "Token mint" key

def serves (task count : ℕ) : List (Turn Call Choice) :=
  List.replicate count (.serve task ⟨1, false⟩)

def mintsInTurn : List (Turn Call Choice) :=
  [.call (mintForBob 5 "k1"), .call (mintForBob 7 "k2")] ++ serves 0 10 ++ serves 1 10

theorem balances_agree_mintsInTurn :
    program.machine.EveryState (Sound bobsTables.opening) (opened bobsTables 0) mintsInTurn ∧
      (program.machine.run (opened bobsTables 0) mintsInTurn).state.committed.balance "bob" = 16 :=
  ⟨balances_agree (by decide +kernel) (by decide +kernel) 0 (by decide +kernel),
    by decide +kernel⟩

def overlappingMints : List (Turn Call Choice) :=
  [.call (mintForBob 5 "k1"), .call (mintForBob 7 "k2")] ++
    serves 0 5 ++ serves 1 5 ++ serves 0 5 ++ serves 1 5

def negativeMint : List (Turn Call Choice) :=
  .call (mintForBob (-2) "k1") :: serves 0 10

/-- Of two overlapping mints one does not move its amount and reports success all the
same; a negative mint takes what is locked. -/
theorem balances_disagree :
    bobsTables.Covered ∧ bobsTables.UniqueKeys ∧
      ¬ program.machine.EveryState (Sound bobsTables.opening) (opened bobsTables 0)
        overlappingMints ∧
      ¬ program.machine.EveryState (Sound bobsTables.opening) (opened bobsTables 0)
        negativeMint := by
  refine ⟨by decide +kernel, by decide +kernel, fun h => ?_, fun h => ?_⟩
  · have hBob := h.last.agrees "bob"
    revert hBob
    decide +kernel
  · have hCovered := h.last.covered
    revert hCovered
    decide +kernel

end Examples

end Prsm.AtomicFtns
