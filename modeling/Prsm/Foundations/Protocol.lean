import Prsm.Foundations.Coroutine

/-!
# Proof outlines for coroutines

A `Protocol` says in which stages a task can be and which reads, writes and
answers take it from one stage to the next; `Follows` says that a coroutine keeps
to it.  That is a fact about the code alone, and it is proved once.

An `Outline` annotates a protocol: it says what holds of the state while a task is in a stage, and
that every move of the protocol keeps the annotations of all other tasks.  Different properties of
the same code are different outlines of one protocol.  `Tracked.advance` puts the tasks together.
-/

namespace Prsm.Foundations

/-- The moves of a task between stages. -/
structure Protocol (σ Req : Type) (Ans : Req → Type) (Stage : Type) where
  Sees : Stage → σ → Stage → Prop
  Writes : Stage → (σ → σ) → Stage → Prop
  Answers : Stage → (r : Req) → Ans r → Stage → Prop

namespace Protocol

variable {σ Req : Type} {Ans : Req → Type} {ε α β Stage : Type}
  (Γ : Protocol σ Req Ans Stage)

/-- A coroutine that starts in a stage keeps to the protocol and ends in a stage
with `Q`. -/
def Follows (Q : Except ε α → Stage → Prop) : Stage → Coroutine σ Req Ans ε α → Prop
  | st, .returned a => Q (.ok a) st
  | st, .raised e => Q (.error e) st
  | st, .read next => ∀ s, ∃ st', Γ.Sees st s st' ∧ Follows Q st' (next s)
  | st, .write f next => ∃ st', Γ.Writes st f st' ∧ Follows Q st' next
  | st, .await r resume => ∀ answer, ∃ st', Γ.Answers st r answer st' ∧
      Follows Q st' (resume answer)

variable {Γ} {Q Q' : Except ε α → Stage → Prop} {st : Stage} {p : Coroutine σ Req Ans ε α}

theorem Follows.imp (h : Γ.Follows Q st p) (hImp : ∀ r st, Q r st → Q' r st) :
    Γ.Follows Q' st p := by
  induction p generalizing st with
  | returned a => exact hImp _ _ h
  | raised e => exact hImp _ _ h
  | read next ih =>
      intro s
      obtain ⟨st', hSees, hNext⟩ := h s
      exact ⟨st', hSees, ih s hNext⟩
  | write f next ih =>
      obtain ⟨st', hWrites, hNext⟩ := h
      exact ⟨st', hWrites, ih hNext⟩
  | await r resume ih =>
      intro answer
      obtain ⟨st', hAnswers, hNext⟩ := h answer
      exact ⟨st', hAnswers, ih answer hNext⟩

theorem follows_bind {R : Except ε β → Stage → Prop} {f : α → Coroutine σ Req Ans ε β}
    (h : Γ.Follows (Ends (fun a st => Γ.Follows R st (f a)) fun e st => R (.error e) st) st p) :
    Γ.Follows R st (p.bind f) := by
  induction p generalizing st with
  | returned a => exact h
  | raised e => exact h
  | read next ih =>
      intro s
      obtain ⟨st', hSees, hNext⟩ := h s
      exact ⟨st', hSees, ih s hNext⟩
  | write g next ih =>
      obtain ⟨st', hWrites, hNext⟩ := h
      exact ⟨st', hWrites, ih hNext⟩
  | await r resume ih =>
      intro answer
      obtain ⟨st', hAnswers, hNext⟩ := h answer
      exact ⟨st', hAnswers, ih answer hNext⟩

theorem follows_tryCatch {handler : ε → Coroutine σ Req Ans ε α}
    (h : Γ.Follows (Ends (fun a st => Q (.ok a) st) fun e st => Γ.Follows Q st (handler e))
      st p) :
    Γ.Follows Q st (p.tryCatch handler) := by
  induction p generalizing st with
  | returned a => exact h
  | raised e => exact h
  | read next ih =>
      intro s
      obtain ⟨st', hSees, hNext⟩ := h s
      exact ⟨st', hSees, ih s hNext⟩
  | write g next ih =>
      obtain ⟨st', hWrites, hNext⟩ := h
      exact ⟨st', hWrites, ih hNext⟩
  | await r resume ih =>
      intro answer
      obtain ⟨st', hAnswers, hNext⟩ := h answer
      exact ⟨st', hAnswers, ih answer hNext⟩

theorem follows_andFinally {f : σ → σ}
    (h : Γ.Follows (fun r st => ∃ st', Γ.Writes st f st' ∧ Q r st') st p) :
    Γ.Follows Q st (p.andFinally f) := by
  induction p generalizing st with
  | returned a => exact h
  | raised e => exact h
  | read next ih =>
      intro s
      obtain ⟨st', hSees, hNext⟩ := h s
      exact ⟨st', hSees, ih s hNext⟩
  | write g next ih =>
      obtain ⟨st', hWrites, hNext⟩ := h
      exact ⟨st', hWrites, ih hNext⟩
  | await r resume ih =>
      intro answer
      obtain ⟨st', hAnswers, hNext⟩ := h answer
      exact ⟨st', hAnswers, ih answer hNext⟩

theorem Follows.settle_keeps (h : Γ.Follows Q st p) (Keeps : σ → σ → Prop)
    (hRefl : ∀ s, Keeps s s) (hTrans : ∀ s s' s'', Keeps s s' → Keeps s' s'' → Keeps s s'')
    (hWrites : ∀ st f st' s, Γ.Writes st f st' → Keeps s (f s)) (s : σ) :
    Keeps s (p.settle s).1 := by
  induction p generalizing st s with
  | returned a => exact hRefl s
  | raised e => exact hRefl s
  | read next ih =>
      obtain ⟨st', -, hNext⟩ := h s
      exact ih s hNext s
  | write f next ih =>
      obtain ⟨st', hWrite, hNext⟩ := h
      exact hTrans _ _ _ (hWrites st f st' s hWrite) (ih hNext (f s))
  | await r resume ih => exact hRefl s

theorem Follows.settle (h : Γ.Follows Q st p) (s : σ) :
    ∃ st', Γ.Follows Q st' (p.settle s).2 := by
  induction p generalizing st s with
  | returned a => exact ⟨st, h⟩
  | raised e => exact ⟨st, h⟩
  | read next ih =>
      obtain ⟨st', -, hNext⟩ := h s
      exact ih s hNext s
  | write f next ih =>
      obtain ⟨st', -, hNext⟩ := h
      exact ih hNext (f s)
  | await r resume ih => exact ⟨st, h⟩

end Protocol

/-! ## Annotations -/

/-- What holds of the state at all times and in each stage, and what a move of one
task keeps of its stage and the state before it. -/
structure Annotation (σ Stage : Type) where
  Inv : σ → Prop
  Holds : ℕ → Stage → σ → Prop
  Keeps : Stage → σ → Stage → σ → Prop
  keeps_refl : ∀ st s, Keeps st s st s
  keeps_trans : ∀ st s st' s' st'' s'', Keeps st s st' s' → Keeps st' s' st'' s'' →
    Keeps st s st'' s''

namespace Annotation

variable {σ Stage : Type} (A : Annotation σ Stage)

/-- A move of one task that keeps the invariant and the annotations of the others. -/
structure Step (me : ℕ) (st : Stage) (s : σ) (st' : Stage) (s' : σ) : Prop where
  inv : A.Inv s'
  holds : A.Holds me st' s'
  keeps : A.Keeps st s st' s'
  others : ∀ other st'', other ≠ me → A.Holds other st'' s → A.Holds other st'' s'

variable {A} {me : ℕ} {st st' st'' : Stage} {s s' s'' : σ}

theorem Step.refl (hInv : A.Inv s) (h : A.Holds me st s) : A.Step me st s st s :=
  ⟨hInv, h, A.keeps_refl st s, fun _ _ _ hOther => hOther⟩

theorem Step.trans (h : A.Step me st s st' s') (h' : A.Step me st' s' st'' s'') :
    A.Step me st s st'' s'' where
  inv := h'.inv
  holds := h'.holds
  keeps := A.keeps_trans _ _ _ _ _ _ h.keeps h'.keeps
  others := fun other last hOther hHere =>
    h'.others other last hOther (h.others other last hOther hHere)

end Annotation

/-- The annotation of a protocol whose moves keep it.  `Allowed` is what is asked
of the environment. -/
structure Outline {σ Req : Type} {Ans : Req → Type} {Choice Stage : Type}
    (Γ : Protocol σ Req Ans Stage) (serve : ℕ → Choice → σ → (r : Req) → Option (Ans r × σ))
    (Allowed : ℕ → Choice → σ → Req → Prop) extends Annotation σ Stage where
  sees : ∀ {me st s st'}, Γ.Sees st s st' → Inv s → Holds me st s →
    Holds me st' s ∧ Keeps st s st' s
  writes : ∀ {me st f st' s}, Γ.Writes st f st' → Inv s → Holds me st s →
    toAnnotation.Step me st s st' (f s)
  answers : ∀ {me st r answer st' choice s s'}, Γ.Answers st r answer st' → Inv s →
    Holds me st s → Allowed me choice s r → serve me choice s r = some (answer, s') →
    toAnnotation.Step me st s st' s'

namespace Outline

variable {σ Req : Type} {Ans : Req → Type} {ε α Choice Stage : Type}
  {Γ : Protocol σ Req Ans Stage} {serve : ℕ → Choice → σ → (r : Req) → Option (Ans r × σ)}
  {Allowed : ℕ → Choice → σ → Req → Prop} (O : Outline Γ serve Allowed)
  {Q : Except ε α → Stage → Prop} {me : ℕ} {st : Stage}
  {p p' : Coroutine σ Req Ans ε α} {s s' : σ}

theorem settle (h : Γ.Follows Q st p) (hInv : O.Inv s) (hHolds : O.Holds me st s) :
    ∃ st', O.Step me st s st' (p.settle s).1 ∧ Γ.Follows Q st' (p.settle s).2 := by
  induction p generalizing st s with
  | returned a => exact ⟨st, .refl hInv hHolds, h⟩
  | raised e => exact ⟨st, .refl hInv hHolds, h⟩
  | read next ih =>
      obtain ⟨st', hSees, hNext⟩ := h s
      obtain ⟨hHolds', hKeeps⟩ := O.sees hSees hInv hHolds
      obtain ⟨last, hStep, hFollows⟩ := ih s hNext hInv hHolds'
      have hHere : O.Step me st s st' s := ⟨hInv, hHolds', hKeeps, fun _ _ _ hOther => hOther⟩
      exact ⟨last, hHere.trans hStep, hFollows⟩
  | write f next ih =>
      obtain ⟨st', hWrites, hNext⟩ := h
      have hHere := O.writes hWrites hInv hHolds
      obtain ⟨last, hStep, hFollows⟩ := ih hNext hHere.inv hHere.holds
      exact ⟨last, hHere.trans hStep, hFollows⟩
  | await r resume => exact ⟨st, .refl hInv hHolds, h⟩

theorem resumed (h : Γ.Follows Q st p) (hInv : O.Inv s) (hHolds : O.Holds me st s)
    (hTurn : p.resumed s = some (s', p')) :
    ∃ st', O.Step me st s st' s' ∧ Γ.Follows Q st' p' := by
  obtain ⟨rfl, rfl, -⟩ := Coroutine.of_resumed hTurn
  exact O.settle h hInv hHolds

theorem served {choice : Choice} (h : Γ.Follows Q st p) (hInv : O.Inv s)
    (hHolds : O.Holds me st s) (hAllowed : ∀ r, p.pending = some r → Allowed me choice s r)
    (hTurn : p.served (serve me choice) s = some (s', p')) :
    ∃ st', O.Step me st s st' s' ∧ Γ.Follows Q st' p' := by
  obtain ⟨r, resume, answer, rfl, hServe, rfl⟩ := Coroutine.of_served hTurn
  obtain ⟨st', hAnswers, hNext⟩ := h answer
  exact ⟨st', O.answers hAnswers hInv hHolds (hAllowed r rfl) hServe, hNext⟩

end Outline

/-! ## Tasks together -/

namespace Program

variable {σ Req : Type} {Ans : Req → Type} {ε α Call Choice Stage : Type}
  {P : Program σ Req Ans ε α Call Choice} {Γ : Protocol σ Req Ans Stage}
  {Allowed : ℕ → Choice → σ → Req → Prop} (O : Outline Γ P.serve Allowed)
  (Q : Call → Except ε α → Stage → Prop) (start : Stage)

/-- The task is in a stage. -/
def At (pool : Pool σ Req Ans ε α Call) (me : ℕ) (st : Stage) : Prop :=
  ∃ c p, pool.tasks[me]? = some (c, p) ∧ Γ.Follows (Q c) st p ∧ O.Holds me st pool.state

/-- Every task is in some stage, and those to come are in the first one. -/
structure Tracked (pool : Pool σ Req Ans ε α Call) : Prop where
  inv : O.Inv pool.state
  tasks : ∀ me c p, pool.tasks[me]? = some (c, p) →
    ∃ st, Γ.Follows (Q c) st p ∧ O.Holds me st pool.state
  fresh : ∀ me, pool.tasks.length ≤ me → O.Holds me start pool.state

/-- The task that a turn moves. -/
def mover : Turn Call Choice → Option ℕ
  | .resume me => some me
  | .serve me _ => some me
  | _ => none

/-- The environment gives only answers that it may give. -/
def Answerable (Allowed : ℕ → Choice → σ → Req → Prop) (pool : Pool σ Req Ans ε α Call)
    (turn : Turn Call Choice) : Prop :=
  ∀ me choice r, turn = .serve me choice → answered pool turn = some r →
    Allowed me choice pool.state r

instance (Allowed : ℕ → Choice → σ → Req → Prop)
    [∀ me choice s r, Decidable (Allowed me choice s r)] (pool : Pool σ Req Ans ε α Call)
    (turn : Turn Call Choice) : Decidable (Answerable Allowed pool turn) :=
  match turn with
  | .serve me choice =>
      decidable_of_iff
        (∀ r ∈ answered pool (.serve me choice : Turn Call Choice), Allowed me choice pool.state r)
        ⟨fun h me' choice' r hTurn hAnswered => by cases hTurn; exact h r hAnswered,
          fun h r hAnswered => h me choice r rfl hAnswered⟩
  | .call c => isTrue fun me choice r hTurn => by cases hTurn
  | .resume task => isTrue fun me choice r hTurn => by cases hTurn
  | .crash => isTrue fun me choice r hTurn => by cases hTurn

variable {O Q start} {pool pool' : Pool σ Req Ans ε α Call}

variable {turn : Turn Call Choice}

theorem step_of_turn (hInv : O.Inv pool.state) {me : ℕ}
    (hMover : mover turn = some me) (hAllowed : Answerable Allowed pool turn)
    (hTurn : P.machine.step pool turn = some pool') :
    ∃ c p p', pool.tasks[me]? = some (c, p) ∧ pool'.tasks = pool.tasks.set me (c, p') ∧
      ∀ st, Γ.Follows (Q c) st p → O.Holds me st pool.state →
        ∃ st', O.Step me st pool.state st' pool'.state ∧ Γ.Follows (Q c) st' p' := by
  cases turn with
  | resume task =>
      cases hMover
      obtain ⟨c, p, p', hTask, hMoved, hTasks⟩ := Program.of_turnOf hTurn
      refine ⟨c, p, p', hTask, hTasks, fun st hFollows hHolds => ?_⟩
      exact O.resumed hFollows hInv hHolds hMoved
  | serve task choice =>
      cases hMover
      obtain ⟨c, p, p', hTask, hMoved, hTasks⟩ := Program.of_turnOf hTurn
      refine ⟨c, p, p', hTask, hTasks, fun st hFollows hHolds => ?_⟩
      refine O.served hFollows hInv hHolds (fun r hPending => hAllowed me choice r rfl ?_) hMoved
      simp [answered, hTask, hPending]
  | call c => cases hMover
  | crash => cases hMover

theorem Tracked.advance (h : Tracked O Q start pool)
    (hBody : ∀ me c, Γ.Follows (Q c) start (P.body me c))
    (hTurn : P.machine.step pool turn = some pool')
    (hAllowed : Answerable Allowed pool turn)
    (hRestart : ∀ s, turn = .crash → P.restart pool.state = some s →
      O.Inv s ∧ ∀ me, O.Holds me start s) :
    Tracked O Q start pool' := by
  cases hMover : mover turn with
  | some me =>
      obtain ⟨c, p, p', hTask, hTasks, hStep⟩ := step_of_turn h.inv hMover hAllowed hTurn
      obtain ⟨st, hFollows, hHolds⟩ := h.tasks me c p hTask
      obtain ⟨st', hMoved, hNext⟩ := hStep st hFollows hHolds
      have hLength : me < pool.tasks.length := (List.getElem?_eq_some_iff.mp hTask).1
      refine ⟨hMoved.inv, fun other d q hOther => ?_, fun other hNew => ?_⟩
      · rw [hTasks] at hOther
        by_cases hMe : other = me
        · subst hMe
          rw [List.getElem?_set_self hLength] at hOther
          cases hOther
          exact ⟨st', hNext, hMoved.holds⟩
        · rw [List.getElem?_set_ne (Ne.symm hMe)] at hOther
          obtain ⟨st'', hFollows'', hHolds''⟩ := h.tasks other d q hOther
          exact ⟨st'', hFollows'', hMoved.others other st'' hMe hHolds''⟩
      · rw [hTasks, List.length_set] at hNew
        exact hMoved.others other start (by omega) (h.fresh other hNew)
  | none =>
      cases turn with
      | call c =>
          cases hTurn
          refine ⟨h.inv, fun me d p hTask => ?_, fun me hNew => ?_⟩
          · rw [List.getElem?_append] at hTask
            split at hTask
            · exact h.tasks me d p hTask
            case isFalse hNew =>
                have hLength : me - pool.tasks.length < 1 :=
                  (List.getElem?_eq_some_iff.mp hTask).1
                obtain rfl : me = pool.tasks.length := by omega
                rw [Nat.sub_self] at hTask
                cases hTask
                exact ⟨start, hBody _ _, h.fresh _ le_rfl⟩
          · rw [List.length_append] at hNew
            exact h.fresh me ((Nat.le_add_right _ _).trans hNew)
      | resume me => cases hMover
      | serve me choice => cases hMover
      | crash =>
          obtain ⟨s, hState, rfl⟩ := Option.map_eq_some_iff.mp hTurn
          obtain ⟨hInv, hFresh⟩ := hRestart s rfl hState
          exact ⟨hInv, fun me c p hTask => by simp at hTask, fun me _ => hFresh me⟩

theorem everyState_tracked (C : Pool σ Req Ans ε α Call → Turn Call Choice → Prop)
    (hBody : ∀ me c, Γ.Follows (Q c) start (P.body me c))
    (hAnswerable : ∀ pool turn, C pool turn → Answerable Allowed pool turn)
    (hRestart : ∀ pool s, Tracked O Q start pool → C pool .crash →
      P.restart pool.state = some s → O.Inv s ∧ ∀ me, O.Holds me start s)
    (h : Tracked O Q start pool) {turns : List (Turn Call Choice)}
    (hSteps : P.machine.EveryStep C pool turns) :
    P.machine.EveryState (Tracked O Q start) pool turns := by
  refine P.machine.everyState_of_everyStep _ C ?_ h hSteps
  intro pool turn pool' hTracked hCondition hTurn
  refine hTracked.advance hBody hTurn (hAnswerable pool turn hCondition) fun s hCrash hState => ?_
  subst hCrash
  exact hRestart pool s hTracked hCondition hState

/-- A task that waits for a request is in a stage in which every answer has a next
one. -/
theorem Tracked.waiting (h : Tracked O Q start pool) {r : Req}
    (hAnswered : answered pool turn = some r) :
    ∃ me st, O.Holds me st pool.state ∧ ∀ a, ∃ st', Γ.Answers st r a st' := by
  cases turn with
  | serve me choice =>
      obtain ⟨⟨c, p⟩, hTask, hPending⟩ := Option.bind_eq_some_iff.mp hAnswered
      obtain ⟨st, hFollows, hHolds⟩ := h.tasks me c p hTask
      cases p with
      | await r' resume =>
          cases hPending
          refine ⟨me, st, hHolds, fun a => ?_⟩
          obtain ⟨st', hAnswers, -⟩ := hFollows a
          exact ⟨st', hAnswers⟩
      | _ => cases hPending
  | call c => cases hAnswered
  | resume me => cases hAnswered
  | crash => cases hAnswered

theorem At.moved {me : ℕ} {st : Stage} (h : At O Q pool me st) (hInv : O.Inv pool.state)
    (hMover : mover turn = some me)
    (hAllowed : Answerable Allowed pool turn) (hTurn : P.machine.step pool turn = some pool') :
    ∃ st', At O Q pool' me st' ∧ O.Keeps st pool.state st' pool'.state := by
  obtain ⟨c, p, hTask, hFollows, hHolds⟩ := h
  obtain ⟨d, q, q', hTask', hTasks, hStep⟩ :=
    step_of_turn (Q := Q) hInv hMover hAllowed hTurn
  obtain ⟨rfl, rfl⟩ := Prod.mk.inj (Option.some.inj (hTask.symm.trans hTask'))
  obtain ⟨st', hMoved, hNext⟩ := hStep st hFollows hHolds
  have hLength : me < pool.tasks.length := (List.getElem?_eq_some_iff.mp hTask).1
  refine ⟨st', ⟨c, q', ?_, hNext, hMoved.holds⟩, hMoved.keeps⟩
  rw [hTasks, List.getElem?_set_self hLength]

theorem At.waits {me : ℕ} {st : Stage} (h : At O Q pool me st) (hTracked : Tracked O Q start pool)
    (hMover : mover turn ≠ some me) (hCrash : turn ≠ .crash)
    (hAllowed : Answerable Allowed pool turn) (hTurn : P.machine.step pool turn = some pool') :
    At O Q pool' me st := by
  obtain ⟨c, p, hTask, hFollows, hHolds⟩ := h
  cases hOther : mover turn with
  | some other =>
      obtain ⟨d, q, q', hTask', hTasks, hStep⟩ :=
        step_of_turn (Q := Q) hTracked.inv hOther hAllowed hTurn
      obtain ⟨st', hFollows', hHolds'⟩ := hTracked.tasks other d q hTask'
      obtain ⟨st'', hMoved, -⟩ := hStep st' hFollows' hHolds'
      have hNe : me ≠ other := fun hEq => hMover (hEq ▸ hOther)
      refine ⟨c, p, ?_, hFollows, hMoved.others me st hNe hHolds⟩
      rw [hTasks, List.getElem?_set_ne (Ne.symm hNe), hTask]
  | none =>
      cases turn with
      | call d =>
          cases hTurn
          have hLength : me < pool.tasks.length := (List.getElem?_eq_some_iff.mp hTask).1
          exact ⟨c, p, by rw [List.getElem?_append_left hLength, hTask], hFollows, hHolds⟩
      | resume me => cases hOther
      | serve me choice => cases hOther
      | crash => exact absurd rfl hCrash

theorem Tracked.served (h : Tracked O Q start pool) {me : ℕ} {choice : Choice} {r : Req}
    (hAnswered : answered pool (.serve me choice : Turn Call Choice) = some r)
    (hAllowed : Allowed me choice pool.state r)
    (hTurn : P.machine.step pool (.serve me choice) = some pool') :
    ∃ st answer st', O.Holds me st pool.state ∧
      P.serve me choice pool.state r = some (answer, pool'.state) ∧
      Γ.Answers st r answer st' ∧ At O Q pool' me st' := by
  obtain ⟨c, p, p', hTask, hMoved, hTasks⟩ := Program.of_turnOf hTurn
  obtain ⟨r', resume, answer, rfl, hServe, rfl⟩ := Coroutine.of_served hMoved
  obtain ⟨st, hFollows, hHolds⟩ := h.tasks me c _ hTask
  obtain ⟨st', hAnswers, hNext⟩ := hFollows answer
  have hSame : some r' = some r := by simpa [answered, hTask, Coroutine.pending] using hAnswered
  cases hSame
  have hLength : me < pool.tasks.length := (List.getElem?_eq_some_iff.mp hTask).1
  have hStep := O.answers hAnswers h.inv hHolds hAllowed hServe
  refine ⟨st, answer, st', hHolds, hServe, hAnswers, c, resume answer, ?_, hNext, hStep.holds⟩
  rw [hTasks, List.getElem?_set_self hLength]

theorem At.later {Held : Stage → Prop} (hRestart : ∀ s, P.restart s = none)
    (hBody : ∀ me c, Γ.Follows (Q c) start (P.body me c))
    (hKeeps : ∀ st s st' s', O.Keeps st s st' s' → Held st → Held st') {me : ℕ} {st : Stage}
    (hTracked : Tracked O Q start pool) (h : At O Q pool me st) (hHeld : Held st)
    {turns : List (Turn Call Choice)}
    (hSteps : P.machine.EveryStep (Answerable Allowed) pool turns) :
    ∃ st', At O Q (P.machine.run pool turns) me st' ∧ Held st' := by
  induction turns generalizing pool st with
  | nil => exact ⟨st, h, hHeld⟩
  | cons turn turns ih =>
      obtain ⟨hHere, hRest⟩ := P.machine.everyStep_cons.mp hSteps
      rw [Machine.run_cons]
      cases hTurn : P.machine.step pool turn with
      | none =>
          rw [P.machine.exec_of_refused hTurn] at hRest ⊢
          exact ih hTracked h hHeld hRest
      | some pool' =>
          rw [P.machine.exec_of_step hTurn] at hRest ⊢
          have hAllowed := hHere (by simp [hTurn])
          have hCrash : turn ≠ .crash := by
            rintro rfl
            obtain ⟨s, hState, -⟩ := Option.map_eq_some_iff.mp hTurn
            rw [hRestart] at hState
            cases hState
          have hTracked' := hTracked.advance hBody hTurn hAllowed
            fun s hEq _ => absurd hEq hCrash
          by_cases hMover : mover turn = some me
          · obtain ⟨st', hMoved, hKept⟩ := h.moved hTracked.inv hMover hAllowed hTurn
            exact ih hTracked' hMoved (hKeeps _ _ _ _ hKept hHeld) hRest
          · exact ih hTracked' (h.waits hTracked hMover hCrash hAllowed hTurn) hHeld hRest

end Program
end Prsm.Foundations
