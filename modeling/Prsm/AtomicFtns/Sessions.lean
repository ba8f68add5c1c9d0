import Prsm.AtomicFtns.Accounting

/-!
# Sessions

What a session may rely on between two of its statements, and one rule for each kind of
statement.  A session that holds the write lock knows what is committed; one that does
not knows of an account it has read that the same version means the same row.
-/

namespace Prsm.AtomicFtns

open Foundations

/-! ## What the statements are to do -/

/-- One commit of the session has moved the amounts. -/
def Moved (me : ℕ) (moves : String → ℚ) (db : Database) : Prop :=
  ∃ commit ∈ db.commits, commit.session = me ∧
    ∀ userId, commit.after.balance userId = commit.before.balance userId + moves userId

/-- The `UPDATE` of a mint finds the version that the mint has read, and leaves the
balance above what is locked. -/
def Permitted (me : ℕ) (choice : Choice) (db : Database) : Statement → Prop
  | .updateMinted userId amount version => choice.fails = false →
      ∃ a ∈ (db.visible me).ftnsBalances.get? userId,
        a.version = version ∧ a.lockedBalance ≤ a.balance + amount
  | _ => True

instance (me : ℕ) (choice : Choice) (db : Database) (r : Statement) :
    Decidable (Permitted me choice db r) := by
  cases r with
  | updateMinted userId amount version =>
      exact inferInstanceAs (Decidable (_ → ∃ a ∈ (db.visible me).ftnsBalances.get? userId, _))
  | _ => exact isTrue trivial

/-! ## What a session relies on -/

/-- The session has written nothing that is not committed. -/
def Idle (me : ℕ) (db : Database) : Prop :=
  ∀ t, db.writer ≠ some (me, t)

/-- The session holds the write lock, and what it sees is related to what is committed. -/
def Holding (me : ℕ) (R : Tables → Tables → Prop) (db : Database) : Prop :=
  ∃ t, db.writer = some (me, t) ∧ R db.committed t

/-- The invariant of the committed tables. -/
structure Good (opening : String → ℚ) (db : Database) : Prop where
  agrees : db.committed.Agrees opening
  covered : db.committed.Covered
  unique : db.committed.UniqueKeys

/-- What the others leave alone. -/
structure Relies (me : ℕ) (db db' : Database) : Prop where
  held : ∀ t, db.writer = some (me, t) → db'.writer = some (me, t) ∧ db'.committed = db.committed
  idle : Idle me db → Idle me db'
  grown : db.committed.Grown db'.committed
  commits : db.commits ⊆ db'.commits

theorem Relies.refl (me : ℕ) (db : Database) : Relies me db db :=
  ⟨fun _ h => ⟨h, rfl⟩, id, .refl _, fun _ => id⟩

theorem Relies.trans {me : ℕ} {db db' db'' : Database} (h : Relies me db db')
    (h' : Relies me db' db'') : Relies me db db'' where
  held := by
    intro t hHere
    obtain ⟨hNext, hSame⟩ := h.held t hHere
    obtain ⟨hLast, hSame'⟩ := h'.held t hNext
    exact ⟨hLast, hSame'.trans hSame⟩
  idle := fun hIdle => h'.idle (h.idle hIdle)
  grown := h.grown.trans h'.grown
  commits := fun _ hMem => h'.commits (h.commits hMem)

def discipline (opening : String → ℚ) : Discipline Database Statement Choice where
  Inv := Good opening
  Fresh := Idle
  Rely := Relies
  Writes := fun _ _ => True
  Allowed := Permitted
  Before := fun _ _ _ => True
  rely_refl := .refl
  rely_trans := fun _ _ _ _ => .trans
  writes_refl := fun _ => trivial
  writes_trans := fun _ _ _ _ _ => trivial
  fresh_stable := fun _ _ _ _ hRely _ => hRely.idle

section Rules

variable {opening : String → ℚ} {me : ℕ} {db db' : Database} {moves : String → ℚ}

theorem stable_idle : (discipline opening).Stable me (Idle me) :=
  fun _ _ _ hRely _ => hRely.idle

theorem stable_holding (R : Tables → Tables → Prop) :
    (discipline opening).Stable me (Holding me R) := by
  rintro db db' - hRely - ⟨t, hHeld, hR⟩
  obtain ⟨hHeld', hSame⟩ := hRely.held t hHeld
  exact ⟨t, hHeld', by rwa [hSame]⟩

theorem stable_moved : (discipline opening).Stable me (Moved me moves) := by
  rintro db db' - hRely - ⟨commit, hMem, hCommit⟩
  exact ⟨commit, hRely.commits hMem, hCommit⟩

/-- The session has nothing left to commit, and it has moved the amounts if it says so. -/
def Finished (me : ℕ) (moves : String → ℚ) (p : Prop) (db : Database) : Prop :=
  Idle me db ∧ (p → Moved me moves db)

theorem stable_finished {p : Prop} : (discipline opening).Stable me (Finished me moves p) :=
  fun db db' hInv hRely hInv' hHere =>
    ⟨stable_idle db db' hInv hRely hInv' hHere.1,
      fun hp => stable_moved db db' hInv hRely hInv' (hHere.2 hp)⟩

theorem stable_and {H H' : Database → Prop} (h : (discipline opening).Stable me H)
    (h' : (discipline opening).Stable me H') :
    (discipline opening).Stable me fun db => H db ∧ H' db :=
  fun db db' hInv hRely hInv' hHere =>
    ⟨h db db' hInv hRely hInv' hHere.1, h' db db' hInv hRely hInv' hHere.2⟩

theorem stable_seen {userId : String} {a : Account} :
    (discipline opening).Stable me fun db => db.committed.Seen userId a :=
  fun _ _ _ hRely _ hSeen => hSeen.grown hRely.grown

theorem visible_of_idle (h : Idle me db) : db.visible me = db.committed := by
  unfold Database.visible
  split
  next session t hWriter =>
    rw [if_neg]
    rintro rfl
    exact h t hWriter
  · rfl

theorem visible_of_held {t : Tables} (h : db.writer = some (me, t)) : db.visible me = t := by
  simp [Database.visible, h]

theorem of_write {α : Type} {f : Tables → Except DatabaseError (α × Tables)}
    {answer : Except DatabaseError α} (h : db.write me f = some (answer, db')) :
    db.CanWrite me ∧ ((∃ e, answer = .error e ∧ db' = db) ∨
      ∃ a t, f (db.visible me) = .ok (a, t) ∧ answer = .ok a ∧
        db' = { db with writer := some (me, t) }) := by
  unfold Database.write at h
  split at h
  next hCan =>
    refine ⟨hCan, ?_⟩
    split at h
    next e _ =>
      cases h
      exact .inl ⟨e, rfl, rfl⟩
    next a t hOk =>
      cases h
      exact .inr ⟨a, t, hOk, rfl, rfl⟩
  · cases h

theorem of_serve {choice : Choice} {r : Statement} {answer : Answer r}
    (h : serve me choice db r = some (answer, db')) :
    (∃ e, answer = .error e ∧ r ≠ .rollback ∧
        db' = { db with now := db.now + choice.elapsed }) ∨
      (choice.fails = false ∨ r = .rollback) ∧
        { db with now := db.now + choice.elapsed }.execute me r = some (answer, db') := by
  unfold serve at h
  by_cases hFails : choice.Fails r
  · rw [if_pos hFails] at h
    cases h
    exact .inl ⟨_, rfl, hFails.2, rfl⟩
  · rw [if_neg hFails] at h
    refine .inr ⟨?_, h⟩
    simpa [Choice.Fails, or_iff_not_imp_left] using hFails

theorem guarantee_elapsed (hInv : Good opening db) (now : ℕ) :
    (discipline opening).Guarantee me db { db with now := now } :=
  ⟨⟨hInv.agrees, hInv.covered, hInv.unique⟩,
    fun _ _ => ⟨fun _ h => ⟨h, rfl⟩, id, .refl _, fun _ => id⟩⟩

theorem guarantee_write (hInv : Good opening db) (hCan : db.CanWrite me) (now : ℕ) (t : Tables) :
    (discipline opening).Guarantee me db { db with now := now, writer := some (me, t) } := by
  refine ⟨⟨hInv.agrees, hInv.covered, hInv.unique⟩, fun other hOther => ?_⟩
  refine ⟨fun t' hHeld => absurd (hCan _ hHeld) hOther, fun _ t' hEq => ?_, .refl _, fun _ => id⟩
  cases hEq
  exact hOther rfl

theorem guarantee_rollback (me : ℕ) (hInv : Good opening db) (now : ℕ) :
    (discipline opening).Guarantee me db (({ db with now := now } : Database).rollback me) ∧
      Idle me (({ db with now := now } : Database).rollback me) := by
  unfold Database.rollback
  split
  next hNone =>
    refine ⟨guarantee_elapsed hInv now, fun t hEq => ?_⟩
    exact Option.some_ne_none _ (hEq.symm.trans hNone)
  next session t hHeld =>
    have hWriter : db.writer = some (session, t) := hHeld
    split
    next hMine =>
      subst hMine
      refine ⟨⟨⟨hInv.agrees, hInv.covered, hInv.unique⟩, fun other hOther => ?_⟩, by simp [Idle]⟩
      refine ⟨fun t' hEq => ?_, fun _ => by simp [Idle], .refl _, fun _ => id⟩
      rw [hWriter] at hEq
      cases hEq
      exact absurd rfl hOther
    next hNot =>
      refine ⟨guarantee_elapsed hInv now, fun t' hEq => hNot ?_⟩
      have hSame : some (session, t) = some (me, t') := hHeld.symm.trans hEq
      cases hSame
      rfl

theorem commit_of_idle (h : Idle me db) : db.commit me = db := by
  unfold Database.commit
  split
  · rfl
  next session t hHeld =>
    rw [if_neg]
    rintro rfl
    exact h t hHeld

theorem guarantee_commit {t : Tables} (hInv : Good opening db) (hHeld : db.writer = some (me, t))
    (hAccounted : db.committed.Accounted t) (now : ℕ) :
    (discipline opening).Guarantee me db (({ db with now := now } : Database).commit me) ∧
      Idle me (({ db with now := now } : Database).commit me) ∧
      ⟨me, db.committed, t⟩ ∈ (({ db with now := now } : Database).commit me).commits := by
  have hCommit : ({ db with now := now } : Database).commit me =
      { db with
        now := now, committed := t, writer := none
        commits := db.commits ++ [⟨me, db.committed, t⟩] } := by
    simp [Database.commit, hHeld]
  rw [hCommit]
  refine ⟨⟨⟨fun u => ?_, hAccounted.covered hInv.covered, hAccounted.unique hInv.unique⟩,
    fun other hOther => ?_⟩, by simp [Idle], by simp⟩
  · have hBefore := hInv.agrees u
    have hChange := hAccounted.balance u
    linarith
  · refine ⟨fun t' hEq => ?_, fun _ => by simp [Idle], hAccounted.grown, by simp⟩
    rw [hHeld] at hEq
    cases hEq
    exact absurd rfl hOther

end Rules

/-! ## The rules -/

/-- The call keeps the rules, and it returns a value only with `K`. -/
def Meets {α : Type} (opening : String → ℚ) (me : ℕ) (K : α → Database → Prop) (p : Method α)
    (db : Database) : Prop :=
  (discipline opening).Safe serve me (Ends K fun _ _ => True) p db

section Calls

variable {opening : String → ℚ} {me : ℕ} {db : Database} {α β : Type} {K : α → Database → Prop}
  {K' : β → Database → Prop} {p : Method α} {f : α → Method β}

theorem meets_returned {a : α} (h : K a db) : Meets opening me K (.returned a) db :=
  h

theorem meets_raised {e : Error} : Meets opening me K (.raised e) db :=
  trivial

theorem Meets.bind (h : Meets opening me K p db) (hInv : Good opening db)
    (hNext : ∀ a db, Good opening db → K a db → Meets opening me K' (f a) db) :
    Meets opening me K' (p.bind f) db :=
  Discipline.Safe.bind h hInv hNext fun _ _ _ _ => trivial

theorem Meets.imp {K' : α → Database → Prop} (h : Meets opening me K p db) (hInv : Good opening db)
    (hImp : ∀ a db, K a db → K' a db) : Meets opening me K' p db := by
  apply Discipline.Safe.imp h hInv
  intro r db _ hHere
  cases r with
  | ok a => exact hImp a db hHere
  | error e => trivial

theorem Meets.tryCatch {handler : Error → Method α} (h : Meets opening me K p db)
    (hInv : Good opening db)
    (hHandler : ∀ e db, Good opening db → Meets opening me K (handler e) db) :
    Meets opening me K (p.tryCatch handler) db :=
  Discipline.Safe.tryCatch h hInv (fun _ _ _ hHere => hHere) fun e db hInv _ => hHandler e db hInv

end Calls

section Statements

variable {opening : String → ℚ} {me : ℕ} {db : Database} {r : Statement}

theorem safe_execute {H E : Database → Prop} {K : Rows r → Database → Prop}
    (hInv : Good opening db) (hHere : H db) (hStable : (discipline opening).Stable me H)
    (hStable' : ∀ rows, (discipline opening).Stable me (K rows))
    (hStableE : (discipline opening).Stable me E)
    (hServe : ∀ choice answer db db', Good opening db → H db → Permitted me choice db r →
      serve me choice db r = some (answer, db') →
        (discipline opening).Guarantee me db db' ∧
          (∀ rows, answer = .ok rows → K rows db') ∧ ∀ e, answer = .error e → E db') :
    (discipline opening).Safe serve me (Ends K fun _ => E) (execute r) db := by
  apply Discipline.safe_ask
    (K := fun answer db => (∀ rows, answer = .ok rows → K rows db) ∧
      ∀ e, answer = .error e → E db) hInv hHere hStable
  · rintro answer db db' hInv hRely hInv' ⟨hOk, hError⟩
    exact ⟨fun rows hEq => hStable' rows db db' hInv hRely hInv' (hOk rows hEq),
      fun e hEq => hStableE db db' hInv hRely hInv' (hError e hEq)⟩
  · exact fun _ _ _ => trivial
  · exact hServe
  · rintro answer db hInv ⟨hOk, hError⟩
    cases answer with
    | ok rows => exact hOk rows rfl
    | error e => exact hError e rfl

theorem meets_execute {H : Database → Prop} {K : Rows r → Database → Prop}
    (hInv : Good opening db) (hHere : H db) (hStable : (discipline opening).Stable me H)
    (hStable' : ∀ rows, (discipline opening).Stable me (K rows))
    (hServe : ∀ choice answer db db', Good opening db → H db → Permitted me choice db r →
      serve me choice db r = some (answer, db') →
        (discipline opening).Guarantee me db db' ∧ ∀ rows, answer = .ok rows → K rows db') :
    Meets opening me K (execute r) db := by
  apply safe_execute (E := fun _ => True) hInv hHere hStable hStable' fun _ _ _ _ _ => id
  intro choice answer db db' hInv hHere hPermitted hServed
  obtain ⟨hGuarantee, hOk⟩ := hServe choice answer db db' hInv hHere hPermitted hServed
  exact ⟨hGuarantee, hOk, fun _ _ => trivial⟩

theorem safe_select {K : Rows r → Database → Prop} (hInv : Good opening db) (hIdle : Idle me db)
    (hStable : ∀ rows, (discipline opening).Stable me (K rows))
    (hRead : ∀ db, Idle me db →
      ∃ rows, db.execute me r = some (.ok rows, db) ∧ K rows db) :
    (discipline opening).Safe serve me
      (Ends (fun rows db => Idle me db ∧ K rows db) fun _ => Idle me) (execute r) db := by
  apply safe_execute hInv hIdle stable_idle (fun rows => stable_and stable_idle (hStable rows))
    stable_idle
  intro choice answer db db' hInv hIdle _ hServe
  rcases of_serve hServe with ⟨e, rfl, -, rfl⟩ | ⟨-, hExecute⟩
  · exact ⟨guarantee_elapsed hInv _, fun rows hEq => (by cases hEq), fun _ _ => hIdle⟩
  · obtain ⟨rows, hRows, hK⟩ := hRead { db with now := db.now + choice.elapsed } hIdle
    cases hRows.symm.trans hExecute
    refine ⟨guarantee_elapsed hInv _, fun rows' hEq => ?_, fun e hEq => by cases hEq⟩
    cases hEq
    exact ⟨hIdle, hK⟩

theorem meets_select {K : Rows r → Database → Prop} (hInv : Good opening db) (hIdle : Idle me db)
    (hStable : ∀ rows, (discipline opening).Stable me (K rows))
    (hRead : ∀ db, Idle me db →
      ∃ rows, db.execute me r = some (.ok rows, db) ∧ K rows db) :
    Meets opening me (fun rows db => Idle me db ∧ K rows db) (execute r) db := by
  apply (safe_select hInv hIdle hStable hRead).imp hInv
  intro answer db _ hHere
  cases answer with
  | ok rows => exact hHere
  | error e => trivial

theorem meets_firstWrite {f : ℕ → Tables → Except DatabaseError (Rows r × Tables)}
    {F : Tables → Prop} {R : Rows r → Tables → Tables → Prop} (hInv : Good opening db)
    (hIdle : Idle me db) (hRead : F db.committed)
    (hGrown : ∀ t t', Tables.Grown t t' → F t → F t')
    (hWrite : ∀ db : Database, db.execute me r = db.write me (f db.now))
    (hR : ∀ choice db now rows t, Good opening db → Idle me db → F db.committed →
      (choice.fails = false ∨ r = .rollback) → Permitted me choice db r →
      f now db.committed = .ok (rows, t) → R rows db.committed t) :
    Meets opening me (fun rows => Holding me (R rows)) (execute r) db := by
  have hStable : (discipline opening).Stable me fun db => Idle me db ∧ F db.committed :=
    stable_and stable_idle fun _ _ _ hRely _ => hGrown _ _ hRely.grown
  apply meets_execute (H := fun db => Idle me db ∧ F db.committed) hInv ⟨hIdle, hRead⟩ hStable
    fun rows => stable_holding (R rows)
  rintro choice answer db db' hInv ⟨hIdle, hRead⟩ hPermitted hServe
  rcases of_serve hServe with ⟨e, rfl, -, rfl⟩ | ⟨hFails, hExecute⟩
  · exact ⟨guarantee_elapsed hInv _, fun rows hEq => by cases hEq⟩
  · rw [hWrite] at hExecute
    obtain ⟨hCan, ⟨e, rfl, rfl⟩ | ⟨rows, t, hOk, rfl, rfl⟩⟩ := of_write hExecute
    · exact ⟨guarantee_elapsed hInv _, fun rows hEq => by cases hEq⟩
    · have hIdle' : Idle me { db with now := db.now + choice.elapsed } := hIdle
      rw [visible_of_idle hIdle'] at hOk
      refine ⟨guarantee_write hInv hCan _ t, fun rows' hEq => ?_⟩
      cases hEq
      exact ⟨t, rfl, hR choice db _ rows t hInv hIdle hRead hFails hPermitted hOk⟩

theorem meets_nextWrite {f : ℕ → Tables → Except DatabaseError (Rows r × Tables)}
    {R : Tables → Tables → Prop} {R' : Rows r → Tables → Tables → Prop} (hInv : Good opening db)
    (hHeld : Holding me R db) (hWrite : ∀ db : Database, db.execute me r = db.write me (f db.now))
    (hR : ∀ now committed t rows t', R committed t → f now t = .ok (rows, t') →
      R' rows committed t') :
    Meets opening me (fun rows => Holding me (R' rows)) (execute r) db := by
  apply meets_execute hInv hHeld (stable_holding R) fun rows => stable_holding (R' rows)
  rintro choice answer db db' hInv ⟨t, hWriter, hHere⟩ - hServe
  rcases of_serve hServe with ⟨e, rfl, -, rfl⟩ | ⟨-, hExecute⟩
  · exact ⟨guarantee_elapsed hInv _, fun rows hEq => by cases hEq⟩
  · rw [hWrite] at hExecute
    obtain ⟨hCan, ⟨e, rfl, rfl⟩ | ⟨rows, t', hOk, rfl, rfl⟩⟩ := of_write hExecute
    · exact ⟨guarantee_elapsed hInv _, fun rows hEq => by cases hEq⟩
    · have hWriter' :
          ({ db with now := db.now + choice.elapsed } : Database).writer = some (me, t) := hWriter
      rw [visible_of_held hWriter'] at hOk
      refine ⟨guarantee_write hInv hCan _ t', fun rows' hEq => ?_⟩
      cases hEq
      exact ⟨t', rfl, hR _ db.committed t rows t' hHere hOk⟩

theorem meets_rollback (hInv : Good opening db) :
    Meets opening me (fun _ => Idle me) (execute .rollback) db := by
  apply meets_execute (H := fun _ => True) hInv trivial (fun _ _ _ _ _ => id) fun _ => stable_idle
  intro choice answer db db' hInv _ _ hServe
  rcases of_serve hServe with ⟨e, -, hNot, -⟩ | ⟨-, hExecute⟩
  · exact absurd rfl hNot
  · cases hExecute
    obtain ⟨hGuarantee, hIdle⟩ := guarantee_rollback me hInv (db.now + choice.elapsed)
    exact ⟨hGuarantee, fun _ _ => hIdle⟩

theorem meets_commit_idle {p : Prop} {moves : String → ℚ} (hInv : Good opening db)
    (hFinished : Finished me moves p db) :
    Meets opening me (fun _ => Finished me moves p) (execute .commit) db := by
  apply meets_execute hInv hFinished stable_finished fun _ => stable_finished
  intro choice answer db db' hInv hFinished _ hServe
  rcases of_serve hServe with ⟨e, rfl, -, rfl⟩ | ⟨-, hExecute⟩
  · exact ⟨guarantee_elapsed hInv _, fun rows hEq => by cases hEq⟩
  · cases hExecute
    have hIdle' : Idle me { db with now := db.now + choice.elapsed } := hFinished.1
    rw [commit_of_idle hIdle']
    exact ⟨guarantee_elapsed hInv _, fun _ _ => hFinished⟩

theorem meets_commit {moves : String → ℚ} (hInv : Good opening db)
    (hHeld : Holding me (fun committed t => committed.Accounted t ∧
      ∀ userId, t.balance userId = committed.balance userId + moves userId) db) :
    Meets opening me (fun _ => Finished me moves True) (execute .commit) db := by
  apply meets_execute hInv hHeld (stable_holding _) fun _ => stable_finished
  rintro choice answer db db' hInv ⟨t, hWriter, hAccounted, hMoves⟩ - hServe
  rcases of_serve hServe with ⟨e, rfl, -, rfl⟩ | ⟨-, hExecute⟩
  · exact ⟨guarantee_elapsed hInv _, fun rows hEq => by cases hEq⟩
  · cases hExecute
    obtain ⟨hGuarantee, hIdle, hMem⟩ :=
      guarantee_commit hInv hWriter hAccounted (db.now + choice.elapsed)
    exact ⟨hGuarantee, fun _ _ => ⟨hIdle, fun _ => ⟨_, hMem, rfl, hMoves⟩⟩⟩

end Statements

end Prsm.AtomicFtns
