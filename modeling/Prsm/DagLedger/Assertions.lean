import Prsm.DagLedger.Stages

/-!
# Assertions about the stages

A property of the ledger says something of the connection and of the memory while the
lock is free, and in each stage of a task.  `Assertions.outline` turns what the single
moves keep into an outline of the whole protocol.  Only one task is in a stage with the
lock, so its moves have to leave alone what `known` tasks say, and nothing else; the
moves without the lock that change something, which are those of the node services and
of `get_transaction`, have to keep what every stage says.
-/

namespace Prsm.DagLedger

open Foundations

/-- What a property says while the lock is free and in each stage, and what a move keeps
of a stage and the state before it. -/
structure Assertions where
  Rest : Connection Tables → Memory → Prop
  Assert : Stage → Connection Tables → Memory → Prop
  Keeps : Stage → Ledger → Stage → Ledger → Prop := fun _ _ _ _ => True

/-! ## The moves -/

namespace Statement

/-- The statements that work on the tables. -/
def isPlain : Statement → Bool
  | savepoint | release _ | rollbackTo | commit _ => false
  | _ => true

variable {statement : Statement} {db : Connection Tables} {e : DbError}

theorem execute_plain (h : statement.isPlain) :
    statement.execute db = ((statement.onTables db.live).1,
      if statement.isChange then db.update fun t => (statement.onTables t).2 else db) := by
  cases statement with
  | savepoint => cases h
  | release after => cases h
  | rollbackTo => cases h
  | commit barrier => cases h
  | _ => rfl

theorem onTables_error {t : Tables} (h : (statement.onTables t).1 = .error e) :
    (statement.onTables t).2 = t := by
  cases statement with
  | insertWallet walletId row =>
      simp only [onTables] at h
      split at h <;> cases h
  | insertBalance walletId =>
      simp only [onTables] at h ⊢
      split at h
      · cases h
      case isFalse hRefused => rw [if_neg hRefused]
  | deductBalance walletId amount expectedVersion =>
      simp only [onTables] at h
      split at h
      · cases h
      · split at h <;> cases h
  | creditBalance walletId amount =>
      simp only [onTables] at h ⊢
      split at h
      · cases h
      case isFalse hRefused => rw [if_neg hRefused]
  | insertNonce nonce origin =>
      simp only [onTables] at h
      split at h <;> cases h
  | _ => cases h

theorem execute_error (h : (statement.execute db).1 = .error e) :
    (statement.execute db).2 = db ∨ (statement.execute db).2 = db.begin := by
  by_cases hPlain : statement.isPlain = true
  · rw [execute_plain hPlain] at h ⊢
    by_cases hChange : statement.isChange = true
    · refine Or.inr ?_
      rw [if_pos hChange]
      exact Connection.update_of_fixed (f := fun t => (onTables t statement).2) (onTables_error h)
    · exact Or.inl (if_neg hChange)
  · refine Or.inl ?_
    cases statement with
    | savepoint => cases h
    | release after =>
        simp only [execute] at h ⊢
        split at h
        · cases h
        · rfl
    | rollbackTo =>
        simp only [execute] at h ⊢
        split at h
        · cases h
        · rfl
    | commit barrier => cases h
    | _ => exact absurd rfl hPlain

end Statement

namespace Ledger

variable {l l' : Ledger} {moment : Moment} {statement : Statement}

/-- The ledger at the time of an answer. -/
def atMoment (l : Ledger) (moment : Moment) : Ledger :=
  { l with now := moment.now, draws := moment.draws }

theorem perform_memory {fault : Option Bool} {a : Except DbError (Value statement)}
    (h : l.perform fault statement = (a, l')) :
    l'.memory = l.memory ∧ l'.writeLock = l.writeLock := by
  cases fault with
  | none =>
      cases h
      exact ⟨rfl, rfl⟩
  | some locked =>
      cases h
      exact ⟨rfl, rfl⟩

theorem of_perform_ok {fault : Option Bool} {v : Value statement}
    (h : l.perform fault statement = (.ok v, l')) :
    fault = none ∧ statement.execute l.db = (.ok v, l'.db) := by
  cases fault with
  | none =>
      obtain ⟨hAnswer, rfl⟩ := Prod.mk.inj h
      exact ⟨rfl, Prod.ext hAnswer rfl⟩
  | some locked => cases (Prod.mk.inj h).1

theorem of_perform_error {fault : Option Bool} {e : DbError}
    (h : l.perform fault statement = (.error e, l')) :
    (l'.db = l.db ∨ l'.db = l.db.begin) ∧
      (fault = none → (statement.execute l.db).1 = .error e) := by
  cases fault with
  | none =>
      obtain ⟨hAnswer, rfl⟩ := Prod.mk.inj h
      exact ⟨Statement.execute_error hAnswer, fun _ => hAnswer⟩
  | some locked =>
      obtain ⟨-, rfl⟩ := Prod.mk.inj h
      refine ⟨?_, fun h => by cases h⟩
      by_cases hChange : statement.isChange = true
      · exact Or.inr (by simp [hChange])
      · exact Or.inl (by simp [hChange])

end Ledger

/-! ## The outline -/

/-- The moves keep what an assertion says.  `Allowed` is what is asked of the moment of an
answer. -/
structure Assertions.Valid (A : Assertions) (lib : Library) (verifySignatures : Bool)
    (Allowed : Moment → Ledger → Request → Prop) : Prop where
  outside : ∀ db m, A.Assert .outside db m
  acquire : ∀ {moment l submission}, A.Rest l.db l.memory →
    Allowed moment l (.acquireWriteLock submission) → A.Assert (acquired submission) l.db l.memory
  unlocks : ∀ {st st' db m}, Unlocks st st' → A.Assert st db m → A.Rest db m ∧ A.Assert st' db m
  sees : ∀ {st l st'}, Sees lib verifySignatures st l st' → A.Assert st l.db l.memory →
    A.Assert st' l.db l.memory
  writes : ∀ {st g st' db m}, MemoryWrites st g st' → A.Assert st db m → A.Assert st' db (g m)
  replies : ∀ {st statement a st' moment l l'}, Replies st statement a st' →
    A.Assert st l.db l.memory → Allowed moment l (.execute statement) →
    (l.atMoment moment).perform moment.fault statement = (a, l') →
    A.Assert st' l'.db l'.memory
  known_writes : ∀ {st g st' txId db m}, MemoryWrites st g st' → A.Assert (.known txId) db m →
    A.Assert (.known txId) db (g m) := by intros; trivial
  known_replies : ∀ {st statement a st' txId moment l l'}, Replies st statement a st' →
    A.Assert st l.db l.memory → A.Assert (.known txId) l.db l.memory →
    Allowed moment l (.execute statement) →
    (l.atMoment moment).perform moment.fault statement = (a, l') →
    A.Assert (.known txId) l'.db l'.memory := by intros; trivial
  remember : ∀ {st txId tx db m}, A.Assert (.known txId) db m → A.Assert st db m →
    A.Assert st db { m with transactions := m.transactions.set txId tx }
  remember_rest : ∀ {txId tx db m}, A.Assert (.known txId) db m → A.Rest db m →
    A.Rest db { m with transactions := m.transactions.set txId tx }
  service : ∀ {st statement a moment l l'}, statement.isService → A.Assert st l.db l.memory →
    Allowed moment l (.execute statement) →
    (l.atMoment moment).perform moment.fault statement = (a, l') → A.Assert st l'.db l'.memory
  service_rest : ∀ {statement a moment l l'}, statement.isService → A.Rest l.db l.memory →
    Allowed moment l (.execute statement) →
    (l.atMoment moment).perform moment.fault statement = (a, l') → A.Rest l'.db l'.memory
  keeps_refl : ∀ st l, A.Keeps st l st l := by intros; trivial
  keeps_trans : ∀ st l st' l' st'' l'', A.Keeps st l st' l' → A.Keeps st' l' st'' l'' →
    A.Keeps st l st'' l'' := by intros; trivial
  keeps_acquire : ∀ {me moment l submission}, A.Keeps .outside l (acquired submission)
    { l.atMoment moment with writeLock := some me } := by intros; trivial
  keeps_unlock : ∀ {st st' l}, Unlocks st st' → A.Assert st l.db l.memory →
    A.Keeps st l st' (unlock l) := by intros; trivial
  keeps_sees : ∀ {st l st'}, Sees lib verifySignatures st l st' → A.Assert st l.db l.memory →
    A.Keeps st l st' l := by intros; trivial
  keeps_writes : ∀ {st g st' l}, MemoryWrites st g st' → A.Assert st l.db l.memory →
    A.Keeps st l st' { l with memory := g l.memory } := by intros; trivial
  keeps_replies : ∀ {st statement a st' moment l l'}, Replies st statement a st' →
    A.Assert st l.db l.memory → Allowed moment l (.execute statement) →
    (l.atMoment moment).perform moment.fault statement = (a, l') →
    A.Keeps st l st' l' := by intros; trivial

namespace Stage

theorem eq_of_not_locked {st : Stage} (h : st.locked = false) :
    st = .outside ∨ ∃ txId, st = .known txId := by
  cases st with
  | outside => exact Or.inl rfl
  | known txId => exact Or.inr ⟨txId, rfl⟩
  | _ => cases h

theorem awaits_of_not_locked {st : Stage} (h : st.locked = false) :
    st.bare = false ∧ st.guarded = false ∧ st.late = false := by
  obtain rfl | ⟨txId, rfl⟩ := eq_of_not_locked h
  · exact ⟨rfl, rfl, rfl⟩
  · exact ⟨rfl, rfl, rfl⟩

end Stage

theorem Replies.locked {st st' : Stage} {statement : Statement}
    {a : Except DbError (Value statement)} (h : Replies st statement a st')
    (hLocked : st.locked) : st'.locked := by
  cases h with
  | look => cases hLocked
  | find => cases hLocked
  | service => cases hLocked
  | _ => rfl

theorem MemoryWrites.locked {st st' : Stage} {g : Memory → Memory} (h : MemoryWrites st g st') :
    st'.locked = st.locked := by
  cases h <;> rfl

theorem Replies.outside {st st' : Stage} {statement : Statement}
    {a : Except DbError (Value statement)} (h : Replies st statement a st')
    (hLocked : st.locked = false) :
    st = .outside ∧ st'.locked = false ∧ (statement.isSelect ∨ statement.isService) := by
  cases h with
  | look h => exact ⟨rfl, rfl, Or.inl h⟩
  | find => exact ⟨rfl, rfl, Or.inl rfl⟩
  | service h => exact ⟨rfl, rfl, Or.inr h⟩
  | failBare h =>
      rw [(Stage.awaits_of_not_locked hLocked).1] at h
      cases h
  | failGuarded h =>
      rw [(Stage.awaits_of_not_locked hLocked).2.1] at h
      cases h
  | failLate h =>
      rw [(Stage.awaits_of_not_locked hLocked).2.2] at h
      cases h
  | _ => cases hLocked

namespace Assertions

variable (A : Assertions) {lib : Library} {verifySignatures : Bool}
  {Allowed : Moment → Ledger → Request → Prop}

/-- The annotation of an assertion: exactly the stages with the lock hold it. -/
def annotation (hA : A.Valid lib verifySignatures Allowed) : Annotation Ledger Stage where
  Inv := fun l => l.writeLock = none → A.Rest l.db l.memory
  Holds := fun me st l => (l.writeLock = some me ↔ st.locked) ∧ A.Assert st l.db l.memory
  Keeps := A.Keeps
  keeps_refl := hA.keeps_refl
  keeps_trans := hA.keeps_trans

variable {A}

variable {me : ℕ} {st st' : Stage}

theorem others_of_locked (hA : A.Valid lib verifySignatures Allowed) {other : ℕ}
    {l l' : Ledger} (hMine : l.writeLock = some me) (hOther : other ≠ me)
    (hLock : l'.writeLock ≠ some other)
    (hKnown : ∀ txId, A.Assert (.known txId) l.db l.memory →
      A.Assert (.known txId) l'.db l'.memory)
    (h : (A.annotation hA).Holds other st l) : (A.annotation hA).Holds other st l' := by
  obtain ⟨hHolder, hHere⟩ := h
  have hNot : st.locked = false := by
    rw [hMine] at hHolder
    simpa [Ne.symm hOther] using hHolder
  refine ⟨by simp [hLock, hNot], ?_⟩
  obtain rfl | ⟨txId, rfl⟩ := Stage.eq_of_not_locked hNot
  · exact hA.outside _ _
  · exact hKnown txId hHere

theorem step_reply (hA : A.Valid lib verifySignatures Allowed)
    {statement : Statement} {a : Except DbError (Value statement)} {moment : Moment}
    {l l' : Ledger} (hReplies : Replies st statement a st') (hInv : (A.annotation hA).Inv l)
    (hHolds : (A.annotation hA).Holds me st l)
    (hAllowed : Allowed moment l (.execute statement))
    (hPerform : (l.atMoment moment).perform moment.fault statement = (a, l')) :
    (A.annotation hA).Step me st l st' l' := by
  obtain ⟨hHolder, hHere⟩ := hHolds
  have hAfter := hA.replies hReplies hHere hAllowed hPerform
  have hKeeps := hA.keeps_replies hReplies hHere hAllowed hPerform
  have hLock : l'.writeLock = l.writeLock := (Ledger.perform_memory hPerform).2
  cases hLocked : st.locked with
  | true =>
      have hMine : l.writeLock = some me := hHolder.mpr hLocked
      refine ⟨fun hFree => ?_, ⟨?_, hAfter⟩, hKeeps, fun other st'' hOther hOthers => ?_⟩
      · rw [hLock, hMine] at hFree
        cases hFree
      · rw [hLock, hMine]
        simp [hReplies.locked hLocked]
      · refine others_of_locked hA hMine hOther ?_ (fun txId hKnown => ?_) hOthers
        · rw [hLock, hMine]
          exact fun h => hOther (Option.some.inj h).symm
        · exact hA.known_replies hReplies hHere hKnown hAllowed hPerform
  | false =>
      obtain ⟨rfl, hNext, hKind⟩ := hReplies.outside hLocked
      have hSame : statement.isSelect → l'.db = l.db ∧ l'.memory = l.memory := by
        intro hSelect
        refine ⟨?_, (Ledger.perform_memory hPerform).1⟩
        have hChange : statement.isChange = false := by
          cases statement <;> first | rfl | cases hSelect
        have hPlain : statement.isPlain = true := by
          cases statement <;> first | rfl | cases hSelect
        cases hFault : moment.fault with
        | none =>
            rw [hFault] at hPerform
            obtain ⟨-, rfl⟩ := Prod.mk.inj hPerform
            simp [Statement.execute_plain hPlain, hChange, Ledger.atMoment]
        | some locked =>
            rw [hFault] at hPerform
            obtain ⟨-, rfl⟩ := Prod.mk.inj hPerform
            simp [hChange, Ledger.atMoment]
      refine ⟨fun hFree => ?_, ⟨?_, hAfter⟩, hKeeps, fun other st'' hOther hOthers => ⟨?_, ?_⟩⟩
      · rw [hLock] at hFree
        rcases hKind with hSelect | hService
        · obtain ⟨hDb, hMemory⟩ := hSame hSelect
          rw [hDb, hMemory]
          exact hInv hFree
        · exact hA.service_rest hService (hInv hFree) hAllowed hPerform
      · rw [hLock, hNext]
        exact hHolder
      · rw [hLock]
        exact hOthers.1
      · rcases hKind with hSelect | hService
        · obtain ⟨hDb, hMemory⟩ := hSame hSelect
          rw [hDb, hMemory]
          exact hOthers.2
        · exact hA.service hService hOthers.2 hAllowed hPerform

theorem step_acquire (hA : A.Valid lib verifySignatures Allowed)
    {submission : Option Submission} {moment : Moment} {l : Ledger} (hFree : l.writeLock = none)
    (hInv : (A.annotation hA).Inv l)
    (hAllowed : Allowed moment l (.acquireWriteLock submission)) :
    (A.annotation hA).Step me .outside l (acquired submission)
      { l.atMoment moment with writeLock := some me } := by
  refine ⟨fun h => (by cases h), ⟨?_, ?_⟩, hA.keeps_acquire, fun other st'' hOther hOthers => ?_⟩
  · cases submission <;> simp [acquired, Stage.locked]
  · have hAssert := hA.acquire (hInv hFree) hAllowed
    exact hAssert
  · obtain ⟨hHolder, hHere⟩ := hOthers
    have hNot : st''.locked = false := by simpa [hFree] using hHolder
    exact ⟨by simp [hNot, Ne.symm hOther], hHere⟩

theorem step_write (hA : A.Valid lib verifySignatures Allowed)
    {g : Memory → Memory} {l : Ledger} (hWrites : MemoryWrites st g st')
    (hInv : (A.annotation hA).Inv l) (hHolds : (A.annotation hA).Holds me st l) :
    (A.annotation hA).Step me st l st' { l with memory := g l.memory } := by
  obtain ⟨hHolder, hHere⟩ := hHolds
  have hAfter := hA.writes hWrites hHere
  have hKeeps := hA.keeps_writes hWrites hHere
  cases hLocked : st.locked with
  | true =>
      have hMine : l.writeLock = some me := hHolder.mpr hLocked
      refine ⟨fun hFree => ?_, ⟨?_, hAfter⟩, hKeeps, fun other st'' hOther hOthers => ?_⟩
      · rw [hMine] at hFree
        cases hFree
      · rw [hWrites.locked]
        exact hHolder
      · refine others_of_locked hA hMine hOther ?_ (fun txId hKnown => ?_) hOthers
        · rw [hMine]
          exact fun h => hOther (Option.some.inj h).symm
        · exact hA.known_writes hWrites hKnown
  | false =>
      have hKeep := hWrites.locked
      cases hWrites with
      | remember =>
          refine ⟨fun hFree => hA.remember_rest hHere (hInv hFree), ⟨hHolder, hAfter⟩, hKeeps,
            fun other st'' hOther hOthers => ⟨hOthers.1, hA.remember hHere hOthers.2⟩⟩
      | _ => cases hLocked

theorem step_unlock (hA : A.Valid lib verifySignatures Allowed)
    {l : Ledger} (hUnlocks : Unlocks st st') (hHolds : (A.annotation hA).Holds me st l) :
    (A.annotation hA).Step me st l st' (unlock l) := by
  obtain ⟨hHolder, hHere⟩ := hHolds
  obtain ⟨hRest, hAfter⟩ := hA.unlocks hUnlocks hHere
  have hMine : l.writeLock = some me := hHolder.mpr (by cases hUnlocks <;> rfl)
  have hFree : (unlock l).writeLock = none := rfl
  refine ⟨fun _ => hRest, ⟨?_, hAfter⟩, hA.keeps_unlock hUnlocks hHere,
    fun other st'' hOther hOthers => ?_⟩
  · cases hUnlocks <;> simp [hFree, Stage.locked]
  · refine others_of_locked hA hMine hOther ?_ (fun txId hKnown => hKnown) hOthers
    rw [hFree]
    exact fun h => by cases h

/-- The outline of the protocol that an assertion is. -/
def outline (hA : A.Valid lib verifySignatures Allowed) :
    Outline (protocol lib verifySignatures) Ledger.serve fun _ => Allowed where
  toAnnotation := A.annotation hA
  sees := by
    intro me st l st' hSees _ hHolds
    obtain ⟨hHolder, hHere⟩ := hHolds
    have hKeeps := hA.keeps_sees hSees hHere
    refine ⟨⟨?_, hA.sees hSees hHere⟩, hKeeps⟩
    cases hSees <;> exact hHolder
  writes := by
    intro me st f st' l hWrites hInv hHolds
    obtain ⟨g, rfl, hWrites⟩ | ⟨rfl, hUnlocks⟩ := hWrites
    · exact step_write hA hWrites hInv hHolds
    · exact step_unlock hA hUnlocks hHolds
  answers := by
    intro me st r answer st' moment l l' hAnswers hInv hHolds hAllowed hServe
    cases r with
    | execute statement =>
        exact step_reply hA hAnswers hInv hHolds hAllowed (Option.some.inj hServe)
    | acquireWriteLock submission =>
        obtain ⟨rfl, rfl⟩ := hAnswers
        cases hFree : l.writeLock with
        | some holder => simp [Ledger.serve, hFree] at hServe
        | none =>
            simp only [Ledger.serve, hFree, Option.some.injEq, Prod.mk.injEq, true_and] at hServe
            obtain rfl := hServe
            exact step_acquire hA hFree hInv hAllowed

theorem initializeLedger_free (tables : Tables) (now : ℚ) :
    (initializeLedger tables now).writeLock = none := by
  unfold initializeLedger
  split <;> rfl

theorem holds_of_free (hA : A.Valid lib verifySignatures Allowed) {l : Ledger}
    (hFree : l.writeLock = none) (hRest : A.Rest l.db l.memory) :
    (A.annotation hA).Inv l ∧ ∀ me, (A.annotation hA).Holds me .outside l :=
  ⟨fun _ => hRest, fun _ => ⟨by simp [hFree, Stage.locked], hA.outside _ _⟩⟩

/-- The node in its stages. -/
abbrev Tracked (hA : A.Valid lib verifySignatures Allowed) (pool : State) : Prop :=
  Program.Tracked (P := node lib verifySignatures) (outline hA) (Ending lib) .outside pool

theorem everyState_tracked (hA : A.Valid lib verifySignatures Allowed)
    (C : State → Turn Call Moment → Prop)
    (hAnswerable : ∀ pool turn, C pool turn → Program.Answerable (fun _ => Allowed) pool turn)
    (hRestart : ∀ pool : State, Tracked hA pool → C pool .crash →
      A.Rest (initializeLedger pool.state.db.durable pool.state.now).db
        (initializeLedger pool.state.db.durable pool.state.now).memory)
    {l : Ledger} (hFree : l.writeLock = none) (hRest : A.Rest l.db l.memory)
    {turns : List (Turn Call Moment)}
    (hSteps : (node lib verifySignatures).machine.EveryStep C ⟨l, []⟩ turns) :
    (node lib verifySignatures).machine.EveryState (Tracked hA) ⟨l, []⟩ turns := by
  obtain ⟨hInv, hFresh⟩ := holds_of_free hA hFree hRest
  refine Program.everyState_tracked (P := node lib verifySignatures) C
    (fun me c => follows_body c) hAnswerable ?_
    ⟨hInv, fun me c p hTask => by simp at hTask, fun me _ => hFresh me⟩ hSteps
  intro pool s hTracked hCrash hState
  cases hState
  exact holds_of_free hA (initializeLedger_free _ _) (hRestart pool hTracked hCrash)

theorem answered_of_storedBy {pool : State} {turn : Turn Call Moment} {tx : DAGTransaction}
    (h : tx ∈ storedBy pool turn) :
    Program.answered pool turn = some (.execute (.storeTransaction tx)) := by
  unfold storedBy at h
  split at h
  case h_1 hAnswered =>
      cases h
      exact hAnswered
  case h_2 => cases h

theorem stage_of_answered {hA : A.Valid lib verifySignatures Allowed} {pool : State}
    (h : Tracked hA pool) {turn : Turn Call Moment} {statement : Statement}
    (hAnswered : Program.answered pool turn = some (.execute statement)) :
    ∃ st, A.Assert st pool.state.db pool.state.memory ∧
      ∀ a, ∃ st', Replies st statement a st' := by
  obtain ⟨me, st, hHolds, hReplies⟩ := h.waiting hAnswered
  exact ⟨st, hHolds.2, hReplies⟩

end Assertions
end Prsm.DagLedger
