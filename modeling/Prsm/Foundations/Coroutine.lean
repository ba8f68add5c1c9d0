import Prsm.Foundations.Machine

/-!
# Coroutines on an event loop

A `Coroutine` is the call of an asynchronous function: it reads and writes a
state directly between two awaits, and at an await it waits for the answer to a
request.  Several of them run on one event loop.  `Program.machine` is that loop:
a turn starts a call, serves the request that one task waits for, or resumes a
served task until its next await, and nothing else happens in between.  So the
runs of the machine are the interleavings of the calls at their awaits.

`Safe` is the rule for reasoning about one call among others, by rely and guarantee.  A
`Discipline` says what every task may rely on while it waits, and a call is safe when each of its
own steps keeps the invariant and what the other tasks rely on.  `Good.advance` puts the calls
together.
-/

namespace Prsm.Foundations

/-- The call of an asynchronous function with the state `σ`. -/
inductive Coroutine (σ Req : Type) (Ans : Req → Type) (ε α : Type) : Type
  | returned (value : α)
  | raised (error : ε)
  | read (next : σ → Coroutine σ Req Ans ε α)
  | write (f : σ → σ) (next : Coroutine σ Req Ans ε α)
  | await (request : Req) (resume : Ans request → Coroutine σ Req Ans ε α)

namespace Coroutine

variable {σ Req : Type} {Ans : Req → Type} {ε α β : Type}

def bind (p : Coroutine σ Req Ans ε α) (f : α → Coroutine σ Req Ans ε β) :
    Coroutine σ Req Ans ε β :=
  match p with
  | returned a => f a
  | raised e => raised e
  | read next => read fun s => (next s).bind f
  | write g next => write g (next.bind f)
  | await r resume => await r fun answer => (resume answer).bind f

/-- `try … except`: what is raised goes to the handler. -/
def tryCatch (p : Coroutine σ Req Ans ε α) (handler : ε → Coroutine σ Req Ans ε α) :
    Coroutine σ Req Ans ε α :=
  match p with
  | returned a => returned a
  | raised e => handler e
  | read next => read fun s => (next s).tryCatch handler
  | write g next => write g (next.tryCatch handler)
  | await r resume => await r fun answer => (resume answer).tryCatch handler

/-- `try … finally`, where the last part only writes. -/
def andFinally (p : Coroutine σ Req Ans ε α) (f : σ → σ) : Coroutine σ Req Ans ε α :=
  match p with
  | returned a => write f (returned a)
  | raised e => write f (raised e)
  | read next => read fun s => (next s).andFinally f
  | write g next => write g (next.andFinally f)
  | await r resume => await r fun answer => (resume answer).andFinally f

instance : Monad (Coroutine σ Req Ans ε) where
  pure := returned
  bind := bind

instance : MonadExceptOf ε (Coroutine σ Req Ans ε) where
  throw := raised
  tryCatch := tryCatch

/-- Wait for the answer to a request. -/
def ask (r : Req) : Coroutine σ Req Ans ε (Ans r) :=
  await r returned

/-- Read a part of the state. -/
def gets (f : σ → α) : Coroutine σ Req Ans ε α :=
  read fun s => returned (f s)

/-- Write the state. -/
def modify (f : σ → σ) : Coroutine σ Req Ans ε Unit :=
  write f (returned ())

/-- The outcome of a call, without raising its error. -/
def attempt (p : Coroutine σ Req Ans ε α) : Coroutine σ Req Ans ε (Except ε α) :=
  (p.bind fun a => returned (.ok a)).tryCatch fun e => returned (.error e)

/-- The request that the coroutine waits for. -/
def pending : Coroutine σ Req Ans ε α → Option Req
  | await r _ => some r
  | _ => none

/-- What the coroutine ended with. -/
def outcome : Coroutine σ Req Ans ε α → Option (Except ε α)
  | returned a => some (.ok a)
  | raised e => some (.error e)
  | _ => none

/-- Run up to the next await, or to the end. -/
def settle : Coroutine σ Req Ans ε α → σ → σ × Coroutine σ Req Ans ε α
  | returned a, s => (s, returned a)
  | raised e, s => (s, raised e)
  | read next, s => (next s).settle s
  | write f next, s => next.settle (f s)
  | await r resume, s => (s, await r resume)

/-- A turn of a task that does not wait and has not ended. -/
def resumed : Coroutine σ Req Ans ε α → σ → Option (σ × Coroutine σ Req Ans ε α)
  | read next, s => some ((next s).settle s)
  | write f next, s => some (next.settle (f s))
  | _, _ => none

/-- A turn of a task that waits. -/
def served (serve : σ → (r : Req) → Option (Ans r × σ)) :
    Coroutine σ Req Ans ε α → σ → Option (σ × Coroutine σ Req Ans ε α)
  | await r resume, s => (serve s r).map fun answered => (answered.2, resume answered.1)
  | _, _ => none

section Equations

variable (a : α) (e : ε) (next : σ → Coroutine σ Req Ans ε α) (g : σ → σ)
  (p : Coroutine σ Req Ans ε α) (r : Req) (resume : Ans r → Coroutine σ Req Ans ε α)
  (f : α → Coroutine σ Req Ans ε β) (handler : ε → Coroutine σ Req Ans ε α) (h : σ → σ)

theorem pure_eq : (pure a : Coroutine σ Req Ans ε α) = returned a := rfl

theorem throw_eq : (throw e : Coroutine σ Req Ans ε α) = raised e := rfl

theorem bind_eq : p >>= f = p.bind f := rfl

theorem tryCatch_eq : MonadExcept.tryCatch p handler = p.tryCatch handler := rfl

theorem map_eq (k : α → β) : k <$> p = p.bind fun a => returned (k a) := rfl

@[simp] theorem bind_returned : (returned a : Coroutine σ Req Ans ε α).bind f = f a := rfl

@[simp] theorem bind_raised : (raised e : Coroutine σ Req Ans ε α).bind f = raised e := rfl

@[simp] theorem bind_read : (read next).bind f = read fun s => (next s).bind f := rfl

@[simp] theorem bind_write : (write g p).bind f = write g (p.bind f) := rfl

@[simp] theorem bind_await :
    (await r resume).bind f = await r fun answer => (resume answer).bind f := rfl

@[simp] theorem tryCatch_returned :
    (returned a : Coroutine σ Req Ans ε α).tryCatch handler = returned a := rfl

@[simp] theorem tryCatch_raised : (raised e).tryCatch handler = handler e := rfl

@[simp] theorem tryCatch_read :
    (read next).tryCatch handler = read fun s => (next s).tryCatch handler := rfl

@[simp] theorem tryCatch_write :
    (write g p).tryCatch handler = write g (p.tryCatch handler) := rfl

@[simp] theorem tryCatch_await :
    (await r resume).tryCatch handler =
      await r fun answer => (resume answer).tryCatch handler := rfl

@[simp] theorem andFinally_returned :
    (returned a : Coroutine σ Req Ans ε α).andFinally h = write h (returned a) := rfl

@[simp] theorem andFinally_raised :
    (raised e : Coroutine σ Req Ans ε α).andFinally h = write h (raised e) := rfl

@[simp] theorem andFinally_read :
    (read next).andFinally h = read fun s => (next s).andFinally h := rfl

@[simp] theorem andFinally_write : (write g p).andFinally h = write g (p.andFinally h) := rfl

@[simp] theorem andFinally_await :
    (await r resume).andFinally h = await r fun answer => (resume answer).andFinally h := rfl

end Equations

end Coroutine

/-! ## The event loop -/

/-- A turn of the event loop.  `choice` is what the environment decides of the
answer to a request. -/
inductive Turn (Call Choice : Type)
  | call (c : Call)
  | resume (task : ℕ)
  | serve (task : ℕ) (choice : Choice)
  | crash

/-- The state of the program and the calls made so far, each with what is left of
it, in the order in which they were made. -/
structure Pool (σ Req : Type) (Ans : Req → Type) (ε α Call : Type) where
  state : σ
  tasks : List (Call × Coroutine σ Req Ans ε α)

/-- The calls that can be made, the answers to the requests, and what a crash
leaves (`none` where crashes are not considered).  A call knows its number. -/
structure Program (σ Req : Type) (Ans : Req → Type) (ε α Call Choice : Type) where
  body : ℕ → Call → Coroutine σ Req Ans ε α
  serve : ℕ → Choice → σ → (r : Req) → Option (Ans r × σ)
  restart : σ → Option σ

namespace Program

variable {σ Req : Type} {Ans : Req → Type} {ε α Call Choice : Type}
  (P : Program σ Req Ans ε α Call Choice)

/-- Let one task make a turn. -/
def turnOf (pool : Pool σ Req Ans ε α Call) (task : ℕ)
    (turn : Coroutine σ Req Ans ε α → σ → Option (σ × Coroutine σ Req Ans ε α)) :
    Option (Pool σ Req Ans ε α Call) :=
  pool.tasks[task]?.bind fun t =>
    (turn t.2 pool.state).map fun moved => ⟨moved.1, pool.tasks.set task (t.1, moved.2)⟩

def advance (pool : Pool σ Req Ans ε α Call) :
    Turn Call Choice → Option (Pool σ Req Ans ε α Call)
  | .call c => some ⟨pool.state, pool.tasks ++ [(c, P.body pool.tasks.length c)]⟩
  | .resume task => turnOf pool task Coroutine.resumed
  | .serve task choice => turnOf pool task (Coroutine.served (P.serve task choice))
  | .crash => (P.restart pool.state).map fun s => ⟨s, []⟩

/-- The event loop. -/
def machine : Machine (Pool σ Req Ans ε α Call) (Turn Call Choice) :=
  ⟨P.advance⟩

/-- The request that a turn answers. -/
def answered (pool : Pool σ Req Ans ε α Call) : Turn Call Choice → Option Req
  | .serve task _ => pool.tasks[task]?.bind fun t => t.2.pending
  | _ => none

theorem of_turnOf {pool pool' : Pool σ Req Ans ε α Call} {task : ℕ}
    {turn : Coroutine σ Req Ans ε α → σ → Option (σ × Coroutine σ Req Ans ε α)}
    (h : turnOf pool task turn = some pool') :
    ∃ c p p', pool.tasks[task]? = some (c, p) ∧ turn p pool.state = some (pool'.state, p') ∧
      pool'.tasks = pool.tasks.set task (c, p') := by
  obtain ⟨⟨c, p⟩, hTask, hTurn⟩ := Option.bind_eq_some_iff.mp h
  obtain ⟨⟨s', p'⟩, hMoved, rfl⟩ := Option.map_eq_some_iff.mp hTurn
  exact ⟨c, p, p', hTask, hMoved, rfl⟩

end Program

theorem Coroutine.settle_awaits {σ Req : Type} {Ans : Req → Type} {ε α : Type}
    (p : Coroutine σ Req Ans ε α) (s : σ) (h : (p.settle s).2.outcome = none) :
    (p.settle s).2.pending.isSome := by
  induction p generalizing s with
  | returned a => cases h
  | raised e => cases h
  | read next ih => exact ih s s h
  | write f next ih => exact ih (f s) h
  | await r resume => rfl

theorem Coroutine.of_resumed {σ Req : Type} {Ans : Req → Type} {ε α : Type}
    {p p' : Coroutine σ Req Ans ε α} {s s' : σ} (h : p.resumed s = some (s', p')) :
    s' = (p.settle s).1 ∧ p' = (p.settle s).2 ∧ (p'.outcome = none → p'.pending.isSome) := by
  have hSettle : p.settle s = (s', p') := by
    cases p with
    | read next => exact Option.some.inj h
    | write f next => exact Option.some.inj h
    | _ => cases h
  have hAwaits := p.settle_awaits s
  rw [hSettle] at hAwaits ⊢
  exact ⟨rfl, rfl, hAwaits⟩

theorem Coroutine.of_served {σ Req : Type} {Ans : Req → Type} {ε α : Type}
    {serve : σ → (r : Req) → Option (Ans r × σ)} {p p' : Coroutine σ Req Ans ε α} {s s' : σ}
    (h : p.served serve s = some (s', p')) :
    ∃ r resume answer, p = .await r resume ∧ serve s r = some (answer, s') ∧
      p' = resume answer := by
  cases p with
  | await r resume =>
      obtain ⟨⟨answer, s''⟩, hServe, hMoved⟩ := Option.map_eq_some_iff.mp h
      cases hMoved
      exact ⟨r, resume, answer, rfl, hServe, rfl⟩
  | _ => cases h

/-! ## Rely and guarantee -/

/-- What holds of the state at all times, and before a task starts, what a task
relies on while it does not run, what the tasks write between their awaits, which
answers the environment gives to a request, and what a task that waits for a
request says of the state. -/
structure Discipline (σ Req Choice : Type) where
  Inv : σ → Prop
  Fresh : ℕ → σ → Prop
  Rely : ℕ → σ → σ → Prop
  Writes : σ → σ → Prop
  Allowed : ℕ → Choice → σ → Req → Prop
  Before : ℕ → σ → Req → Prop
  rely_refl : ∀ task s, Rely task s s
  rely_trans : ∀ task s s' s'', Rely task s s' → Rely task s' s'' → Rely task s s''
  writes_refl : ∀ s, Writes s s
  writes_trans : ∀ s s' s'', Writes s s' → Writes s' s'' → Writes s s''
  fresh_stable : ∀ task s s', Inv s → Rely task s s' → Inv s' → Fresh task s → Fresh task s'

/-- A postcondition from one for the value returned and one for the error raised. -/
def Ends {σ ε α : Type} (Returned : α → σ → Prop) (Raised : ε → σ → Prop) :
    Except ε α → σ → Prop
  | .ok a, s => Returned a s
  | .error e, s => Raised e s

namespace Discipline

variable {σ Req : Type} {Ans : Req → Type} {ε α β Choice : Type} (D : Discipline σ Req Choice)

/-- A step of one task that keeps the invariant and what the others rely on. -/
def Guarantee (me : ℕ) (s s' : σ) : Prop :=
  D.Inv s' ∧ ∀ other, other ≠ me → D.Rely other s s'

/-- What holds now and survives the steps of the other tasks. -/
def Stable (me : ℕ) (H : σ → Prop) : Prop :=
  ∀ s s', D.Inv s → D.Rely me s s' → D.Inv s' → H s → H s'

/-- The call ends in `Post`, whatever the other tasks do at its awaits, and each
of its steps is one the other tasks are prepared for. -/
def Safe (serve : ℕ → Choice → σ → (r : Req) → Option (Ans r × σ)) (me : ℕ)
    (Post : Except ε α → σ → Prop) : Coroutine σ Req Ans ε α → σ → Prop
  | .returned a, s => Post (.ok a) s
  | .raised e, s => Post (.error e) s
  | .read next, s => Safe serve me Post (next s) s
  | .write f next, s =>
      D.Guarantee me s (f s) ∧ D.Writes s (f s) ∧ Safe serve me Post next (f s)
  | .await r resume, s => ∀ s', D.Rely me s s' → D.Inv s' →
      D.Before me s' r ∧ ∀ choice answer s'', D.Allowed me choice s' r →
        serve me choice s' r = some (answer, s'') →
          D.Guarantee me s' s'' ∧ ∀ s₃, D.Rely me s'' s₃ → D.Inv s₃ →
            Safe serve me Post (resume answer) s₃

variable {D} {serve : ℕ → Choice → σ → (r : Req) → Option (Ans r × σ)} {me : ℕ}
  {Q Q' : Except ε α → σ → Prop} {p : Coroutine σ Req Ans ε α} {s s' : σ}

theorem Guarantee.refl (h : D.Inv s) : D.Guarantee me s s :=
  ⟨h, fun other _ => D.rely_refl other s⟩

/-- The same request is served to both, and what follows is safe where it was. -/
theorem safe_await {ε' : Type} {R : Except ε' β → σ → Prop} {r : Req}
    {resume : Ans r → Coroutine σ Req Ans ε α} {resume' : Ans r → Coroutine σ Req Ans ε' β}
    (h : D.Safe serve me Q (.await r resume) s)
    (hNext : ∀ answer s, D.Inv s → D.Safe serve me Q (resume answer) s →
      D.Safe serve me R (resume' answer) s) : D.Safe serve me R (.await r resume') s := by
  intro s' hRely hInv
  obtain ⟨hBefore, hAfter⟩ := h s' hRely hInv
  refine ⟨hBefore, fun choice answer s'' hAllowed hServe => ?_⟩
  obtain ⟨hGuarantee, hResume⟩ := hAfter choice answer s'' hAllowed hServe
  exact ⟨hGuarantee, fun s₃ hRely₃ hInv₃ => hNext answer s₃ hInv₃ (hResume s₃ hRely₃ hInv₃)⟩

theorem Safe.imp (h : D.Safe serve me Q p s) (hInv : D.Inv s)
    (hPost : ∀ r s, D.Inv s → Q r s → Q' r s) : D.Safe serve me Q' p s := by
  induction p generalizing s with
  | returned a => exact hPost _ _ hInv h
  | raised e => exact hPost _ _ hInv h
  | read next ih => exact ih s h hInv
  | write f next ih => exact ⟨h.1, h.2.1, ih h.2.2 h.1.1⟩
  | await r resume ih => exact safe_await h fun answer s hInv hNext => ih answer hNext hInv

/-- The rule for one call after another, with the condition on the second inside
the postcondition of the first. -/
theorem safe_bind {R : Except ε β → σ → Prop} {f : α → Coroutine σ Req Ans ε β}
    (h : D.Safe serve me
      (Ends (fun a s => D.Safe serve me R (f a) s) fun e s => R (.error e) s) p s) :
    D.Safe serve me R (p.bind f) s := by
  induction p generalizing s with
  | returned a => exact h
  | raised e => exact h
  | read next ih => exact ih s h
  | write g next ih => exact ⟨h.1, h.2.1, ih h.2.2⟩
  | await r resume ih => exact safe_await h fun answer s _ hNext => ih answer hNext

theorem Safe.bind {R : Except ε β → σ → Prop} {f : α → Coroutine σ Req Ans ε β}
    (h : D.Safe serve me Q p s) (hInv : D.Inv s)
    (hNext : ∀ a s, D.Inv s → Q (.ok a) s → D.Safe serve me R (f a) s)
    (hRaised : ∀ e s, D.Inv s → Q (.error e) s → R (.error e) s) :
    D.Safe serve me R (p.bind f) s := by
  refine safe_bind (h.imp hInv fun r s hHere hPost => ?_)
  cases r with
  | ok a => exact hNext a s hHere hPost
  | error e => exact hRaised e s hHere hPost

theorem safe_tryCatch {handler : ε → Coroutine σ Req Ans ε α}
    (h : D.Safe serve me
      (Ends (fun a s => Q (.ok a) s) fun e s => D.Safe serve me Q (handler e) s) p s) :
    D.Safe serve me Q (p.tryCatch handler) s := by
  induction p generalizing s with
  | returned a => exact h
  | raised e => exact h
  | read next ih => exact ih s h
  | write g next ih => exact ⟨h.1, h.2.1, ih h.2.2⟩
  | await r resume ih => exact safe_await h fun answer s _ hNext => ih answer hNext

theorem Safe.tryCatch {handler : ε → Coroutine σ Req Ans ε α}
    (h : D.Safe serve me Q p s) (hInv : D.Inv s)
    (hReturned : ∀ a s, D.Inv s → Q (.ok a) s → Q' (.ok a) s)
    (hHandler : ∀ e s, D.Inv s → Q (.error e) s → D.Safe serve me Q' (handler e) s) :
    D.Safe serve me Q' (p.tryCatch handler) s := by
  refine safe_tryCatch (h.imp hInv fun r s hHere hPost => ?_)
  cases r with
  | ok a => exact hReturned a s hHere hPost
  | error e => exact hHandler e s hHere hPost

theorem Safe.attempt (h : D.Safe serve me Q p s) :
    D.Safe serve me (Ends Q fun _ _ => False) p.attempt s := by
  induction p generalizing s with
  | returned a => exact h
  | raised e => exact h
  | read next ih => exact ih s h
  | write g next ih => exact ⟨h.1, h.2.1, ih h.2.2⟩
  | await r resume ih => exact safe_await h fun answer s _ hNext => ih answer hNext

theorem safe_andFinally {f : σ → σ}
    (h : D.Safe serve me
      (fun r s => D.Guarantee me s (f s) ∧ D.Writes s (f s) ∧ Q r (f s)) p s) :
    D.Safe serve me Q (p.andFinally f) s := by
  induction p generalizing s with
  | returned a => exact h
  | raised e => exact h
  | read next ih => exact ih s h
  | write g next ih => exact ⟨h.1, h.2.1, ih h.2.2⟩
  | await r resume ih => exact safe_await h fun answer s _ hNext => ih answer hNext

/-- The rule for one request: `H` holds until it is served, and `K answer` from
then on. -/
theorem safe_ask {r : Req} {H : σ → Prop} {K : Ans r → σ → Prop}
    {resume : Ans r → Coroutine σ Req Ans ε α} (hInv : D.Inv s) (hHere : H s)
    (hStable : D.Stable me H) (hStable' : ∀ answer, D.Stable me (K answer))
    (hBefore : ∀ s, D.Inv s → H s → D.Before me s r)
    (hServe : ∀ choice answer s s', D.Inv s → H s → D.Allowed me choice s r →
      serve me choice s r = some (answer, s') → D.Guarantee me s s' ∧ K answer s')
    (hResume : ∀ answer s, D.Inv s → K answer s → D.Safe serve me Q (resume answer) s) :
    D.Safe serve me Q (.await r resume) s := by
  intro s' hRely hInv'
  have hHere' : H s' := hStable s s' hInv hRely hInv' hHere
  refine ⟨hBefore s' hInv' hHere', fun choice answer s'' hAllowed hServed => ?_⟩
  obtain ⟨hGuarantee, hAfter⟩ := hServe choice answer s' s'' hInv' hHere' hAllowed hServed
  refine ⟨hGuarantee, fun s₃ hRely₃ hInv₃ => ?_⟩
  exact hResume answer s₃ hInv₃ (hStable' answer s'' s₃ hGuarantee.1 hRely₃ hInv₃ hAfter)

theorem Safe.settle (h : D.Safe serve me Q p s) (hInv : D.Inv s) :
    D.Guarantee me s (p.settle s).1 ∧ D.Writes s (p.settle s).1 ∧
      D.Safe serve me Q (p.settle s).2 (p.settle s).1 := by
  induction p generalizing s with
  | returned a => exact ⟨.refl hInv, D.writes_refl s, h⟩
  | raised e => exact ⟨.refl hInv, D.writes_refl s, h⟩
  | read next ih => exact ih s h hInv
  | write f next ih =>
      obtain ⟨⟨hInvNext, hOthers⟩, hWrites, hNext⟩ := h
      obtain ⟨⟨hInvLast, hOthersLast⟩, hWritesLast, hRest⟩ := ih hNext hInvNext
      refine ⟨⟨hInvLast, fun other hOther => ?_⟩, D.writes_trans _ _ _ hWrites hWritesLast, hRest⟩
      exact D.rely_trans other _ _ _ (hOthers other hOther) (hOthersLast other hOther)
  | await r resume ih => exact ⟨.refl hInv, D.writes_refl s, h⟩

end Discipline

/-! ## Safe calls together -/

/-- A task is safe from whatever state the others leave. -/
def Discipline.Suspended {σ Req : Type} {Ans : Req → Type} {ε α Choice : Type}
    (D : Discipline σ Req Choice) (serve : ℕ → Choice → σ → (r : Req) → Option (Ans r × σ))
    (me : ℕ) (Post : Except ε α → σ → Prop) (p : Coroutine σ Req Ans ε α) (s : σ) : Prop :=
  ∀ s', D.Rely me s s' → D.Inv s' → D.Safe serve me Post p s'

namespace Program

variable {σ Req : Type} {Ans : Req → Type} {ε α Call Choice : Type}
  (P : Program σ Req Ans ε α Call Choice) (D : Discipline σ Req Choice)
  (Post : ℕ → Call → Except ε α → σ → Prop)

/-- The invariant holds, every task is safe, and those to come find what they
start from. -/
structure Good (pool : Pool σ Req Ans ε α Call) : Prop where
  inv : D.Inv pool.state
  suspended : ∀ me c p, pool.tasks[me]? = some (c, p) →
    D.Suspended P.serve me (Post me c) p pool.state
  fresh : ∀ me, pool.tasks.length ≤ me → D.Fresh me pool.state

variable {P D Post} {pool pool' : Pool σ Req Ans ε α Call}

theorem Good.before (h : P.Good D Post pool) {me : ℕ} {c : Call} {p : Coroutine σ Req Ans ε α}
    {r : Req} (hTask : pool.tasks[me]? = some (c, p)) (hPending : p.pending = some r) :
    D.Before me pool.state r := by
  cases p with
  | await r' resume =>
      cases hPending
      have hSafe := h.suspended me c _ hTask pool.state (D.rely_refl me _) h.inv
      exact (hSafe pool.state (D.rely_refl me _) h.inv).1
  | _ => cases hPending

theorem Good.post (h : P.Good D Post pool) {me : ℕ} {c : Call} {p : Coroutine σ Req Ans ε α}
    {r : Except ε α} (hTask : pool.tasks[me]? = some (c, p)) (hOutcome : p.outcome = some r) :
    Post me c r pool.state := by
  have hSafe := h.suspended me c _ hTask pool.state (D.rely_refl me _) h.inv
  cases p with
  | returned a =>
      cases hOutcome
      exact hSafe
  | raised e =>
      cases hOutcome
      exact hSafe
  | _ => cases hOutcome

theorem Good.replace (h : P.Good D Post pool) {me : ℕ} {c : Call}
    {p p' : Coroutine σ Req Ans ε α} {s' : σ} (hTask : pool.tasks[me]? = some (c, p))
    (hGuarantee : D.Guarantee me pool.state s')
    (hMine : D.Suspended P.serve me (Post me c) p' s') :
    P.Good D Post ⟨s', pool.tasks.set me (c, p')⟩ := by
  have hLength : me < pool.tasks.length := (List.getElem?_eq_some_iff.mp hTask).1
  refine ⟨hGuarantee.1, fun other d q hOther => ?_, fun other hNew => ?_⟩
  · by_cases hMe : other = me
    · subst hMe
      rw [List.getElem?_set_self hLength] at hOther
      cases hOther
      exact hMine
    · rw [List.getElem?_set_ne (Ne.symm hMe)] at hOther
      intro s₃ hRely hInv
      exact h.suspended other d q hOther s₃
        (D.rely_trans other _ _ _ (hGuarantee.2 other hMe) hRely) hInv
  · rw [List.length_set] at hNew
    have hMe : other ≠ me := by omega
    exact D.fresh_stable other _ _ h.inv (hGuarantee.2 other hMe) hGuarantee.1 (h.fresh other hNew)

theorem Good.writes (h : P.Good D Post pool) {me : ℕ}
    (hTurn : P.machine.step pool (.resume me : Turn Call Choice) = some pool') :
    D.Writes pool.state pool'.state := by
  obtain ⟨c, p, p', hTask, hMoved, hTasks⟩ := Program.of_turnOf hTurn
  have hSafe := h.suspended me c p hTask pool.state (D.rely_refl me _) h.inv
  have hWrites := (hSafe.settle h.inv).2.1
  rwa [← (Coroutine.of_resumed hMoved).1] at hWrites

theorem Good.advance (h : P.Good D Post pool)
    (hStable : ∀ me c r, D.Stable me (Post me c r))
    {turn : Turn Call Choice} (hTurn : P.machine.step pool turn = some pool')
    (hCall : ∀ c me s, turn = .call c → D.Inv s → D.Fresh me s →
      D.Safe P.serve me (Post me c) (P.body me c) s)
    (hAllowed : ∀ me choice r, turn = .serve me choice →
      Program.answered pool turn = some r → D.Allowed me choice pool.state r)
    (hRestart : ∀ s, turn = .crash → P.restart pool.state = some s →
      D.Inv s ∧ ∀ me, D.Fresh me s) :
    P.Good D Post pool' := by
  cases turn with
  | call c =>
      cases hTurn
      refine ⟨h.inv, fun me d p hTask => ?_, fun me hNew => ?_⟩
      · rw [List.getElem?_append] at hTask
        split at hTask
        · exact h.suspended me d p hTask
        case isFalse hNew =>
            have hLength : me - pool.tasks.length < 1 := (List.getElem?_eq_some_iff.mp hTask).1
            obtain rfl : me = pool.tasks.length := by omega
            rw [Nat.sub_self] at hTask
            cases hTask
            have hFresh := h.fresh pool.tasks.length le_rfl
            intro s' hRely hInv
            exact hCall c _ s' rfl hInv (D.fresh_stable _ _ _ h.inv hRely hInv hFresh)
      · rw [List.length_append] at hNew
        exact h.fresh me ((Nat.le_add_right _ _).trans hNew)
  | resume me =>
      obtain ⟨c, p, p', hTask, hMoved, hTasks⟩ := Program.of_turnOf hTurn
      have hSafe := h.suspended me c p hTask pool.state (D.rely_refl me _) h.inv
      obtain ⟨hState, hSettled, hAwaits⟩ := Coroutine.of_resumed hMoved
      obtain ⟨hGuarantee, -, hNext⟩ := hSafe.settle h.inv
      rw [← hState] at hGuarantee hNext
      rw [← hSettled] at hNext
      have hSuspended : D.Suspended P.serve me (Post me c) p' pool'.state := by
        intro s' hRely hInv
        cases p' with
        | returned a => exact hStable me c _ _ s' hGuarantee.1 hRely hInv hNext
        | raised e => exact hStable me c _ _ s' hGuarantee.1 hRely hInv hNext
        | read next => cases hAwaits rfl
        | write f next => cases hAwaits rfl
        | await r resume =>
            exact fun s₃ hRely₃ => hNext s₃ (D.rely_trans me _ _ _ hRely hRely₃)
      have hGood := h.replace hTask hGuarantee hSuspended
      rwa [← hTasks] at hGood
  | serve me choice =>
      obtain ⟨c, p, p', hTask, hMoved, hTasks⟩ := Program.of_turnOf hTurn
      obtain ⟨r, resume, answer, rfl, hServe, rfl⟩ := Coroutine.of_served hMoved
      have hSafe := h.suspended me c _ hTask pool.state (D.rely_refl me _) h.inv
      have hAnswered :
          Program.answered pool (Turn.serve me choice : Turn Call Choice) = some r := by
        simp [Program.answered, hTask, Coroutine.pending]
      obtain ⟨hGuarantee, hResume⟩ := (hSafe pool.state (D.rely_refl me _) h.inv).2 choice answer
        pool'.state (hAllowed me choice r rfl hAnswered) hServe
      have hGood := h.replace hTask hGuarantee hResume
      rwa [← hTasks] at hGood
  | crash =>
      obtain ⟨s, hState, rfl⟩ := Option.map_eq_some_iff.mp hTurn
      obtain ⟨hInv, hFresh⟩ := hRestart s rfl hState
      exact ⟨hInv, fun me c p hTask => by simp at hTask, fun me _ => hFresh me⟩

end Program
/-! ## A call on its own -/

namespace Coroutine

variable {σ Req : Type} {Ans : Req → Type} {ε α β Choice : Type}
  (serve : Choice → σ → (r : Req) → Option (Ans r × σ))

/-- The call runs to its end while no other does.  The choices answer its requests in order. -/
def alone : Coroutine σ Req Ans ε α → List Choice → σ → Option (Except ε α × σ)
  | returned a, _, s => some (.ok a, s)
  | raised e, _, s => some (.error e, s)
  | read next, choices, s => (next s).alone choices s
  | write f next, choices, s => next.alone choices (f s)
  | await _ _, [], _ => none
  | await r resume, choice :: choices, s =>
      (serve choice s r).bind fun answered => (resume answered.1).alone choices answered.2

/-- If the call returns, then what it returns, and where, is as `Post` says. -/
def Ensures (Post : α → σ → Prop) : Coroutine σ Req Ans ε α → σ → Prop
  | returned a, s => Post a s
  | raised _, _ => True
  | read next, s => Ensures Post (next s) s
  | write f next, s => Ensures Post next (f s)
  | await r resume, s => ∀ choice answer s', serve choice s r = some (answer, s') →
      Ensures Post (resume answer) s'

variable {serve} {Post Post' : α → σ → Prop} {p : Coroutine σ Req Ans ε α} {s s' : σ}

theorem Ensures.alone {choices : List Choice} {a : α} (h : p.Ensures serve Post s)
    (hAlone : p.alone serve choices s = some (.ok a, s')) : Post a s' := by
  induction p generalizing choices s with
  | returned b =>
      cases hAlone
      exact h
  | raised e => cases hAlone
  | read next ih => exact ih s h hAlone
  | write f next ih => exact ih h hAlone
  | await r resume ih =>
      cases choices with
      | nil => cases hAlone
      | cons choice choices =>
          obtain ⟨⟨answer, s₁⟩, hServe, hRest⟩ := Option.bind_eq_some_iff.mp hAlone
          exact ih answer (h choice answer s₁ hServe) hRest

theorem Ensures.imp (h : p.Ensures serve Post s) (hImp : ∀ a s, Post a s → Post' a s) :
    p.Ensures serve Post' s := by
  induction p generalizing s with
  | returned a => exact hImp a s h
  | raised e => trivial
  | read next ih => exact ih s h
  | write f next ih => exact ih h
  | await r resume ih =>
      intro choice answer s₁ hServe
      exact ih answer (h choice answer s₁ hServe)

theorem ensures_bind {Post : β → σ → Prop} {f : α → Coroutine σ Req Ans ε β} :
    (p.bind f).Ensures serve Post s ↔
      p.Ensures serve (fun a s => (f a).Ensures serve Post s) s := by
  induction p generalizing s with
  | returned a => exact Iff.rfl
  | raised e => exact Iff.rfl
  | read next ih => exact ih s
  | write g next ih => exact ih
  | await r resume ih =>
      refine forall_congr' fun choice => forall_congr' fun answer => ?_
      exact forall_congr' fun s₁ => imp_congr_right fun _ => ih answer

theorem ensures_true : p.Ensures serve (fun _ _ => True) s := by
  induction p generalizing s with
  | returned a => trivial
  | raised e => trivial
  | read next ih => exact ih s
  | write g next ih => exact ih
  | await r resume ih => exact fun _ answer _ _ => ih answer

theorem ensures_bind_of_forall {Post : β → σ → Prop} {f : α → Coroutine σ Req Ans ε β}
    (h : ∀ a s, (f a).Ensures serve Post s) : (p.bind f).Ensures serve Post s :=
  ensures_bind.mpr (ensures_true.imp fun a s _ => h a s)

theorem Ensures.tryCatch {handler : ε → Coroutine σ Req Ans ε α} (h : p.Ensures serve Post s)
    (hHandler : ∀ e s, (handler e).Ensures serve Post s) :
    (p.tryCatch handler).Ensures serve Post s := by
  induction p generalizing s with
  | returned a => exact h
  | raised e => exact hHandler e s
  | read next ih => exact ih s h
  | write g next ih => exact ih h
  | await r resume ih =>
      intro choice answer s₁ hServe
      exact ih answer (h choice answer s₁ hServe)

theorem ensures_andFinally {f : σ → σ} (h : p.Ensures serve (fun a s => Post a (f s)) s) :
    (p.andFinally f).Ensures serve Post s := by
  induction p generalizing s with
  | returned a => exact h
  | raised e => trivial
  | read next ih => exact ih s h
  | write g next ih => exact ih h
  | await r resume ih =>
      intro choice answer s₁ hServe
      exact ih answer (h choice answer s₁ hServe)

end Coroutine
end Prsm.Foundations
