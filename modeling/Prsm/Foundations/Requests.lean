import Prsm.Foundations.Coroutine

/-!
# Which requests a call can make

`Requests r p` says that some answers and some states lead the coroutine `p` to the
request `r`.  `Only P` says that all requests which it can make meet `P`; it comes with
the rules for programs that are put together from others.
-/

namespace Prsm.Foundations.Coroutine

variable {σ Req : Type} {Ans : Req → Type} {ε α β : Type}

/-- The call can come to wait for the request. -/
def Requests (r : Req) : Coroutine σ Req Ans ε α → Prop
  | returned _ => False
  | raised _ => False
  | read next => ∃ s, Requests r (next s)
  | write _ next => Requests r next
  | await r' resume => r' = r ∨ ∃ a, Requests r (resume a)

/-- The call makes no request without `P`, and what it returns meets `Q`. -/
def Only (P : Req → Prop) (Q : Except ε α → Prop) : Coroutine σ Req Ans ε α → Prop
  | returned a => Q (.ok a)
  | raised e => Q (.error e)
  | read next => ∀ s, Only P Q (next s)
  | write _ next => Only P Q next
  | await r resume => P r ∧ ∀ a, Only P Q (resume a)

variable {P : Req → Prop} {Q Q' : Except ε α → Prop} {p : Coroutine σ Req Ans ε α}

theorem Only.of_requests (h : p.Only P Q) {r : Req} (hRequests : p.Requests r) : P r := by
  induction p with
  | returned a => exact hRequests.elim
  | raised e => exact hRequests.elim
  | read next ih =>
      obtain ⟨s, hNext⟩ := hRequests
      exact ih s (h s) hNext
  | write f next ih => exact ih h hRequests
  | await r' resume ih =>
      rcases hRequests with rfl | ⟨a, hNext⟩
      · exact h.1
      · exact ih a (h.2 a) hNext

theorem Only.imp (h : p.Only P Q) (hImp : ∀ r, Q r → Q' r) : p.Only P Q' := by
  induction p with
  | returned a => exact hImp _ h
  | raised e => exact hImp _ h
  | read next ih => exact fun s => ih s (h s)
  | write f next ih => exact ih h
  | await r resume ih => exact ⟨h.1, fun a => ih a (h.2 a)⟩
variable {f : α → Coroutine σ Req Ans ε β}

theorem only_bind {R : Except ε β → Prop}
    (h : p.Only P fun
      | .ok a => (f a).Only P R
      | .error e => R (.error e)) : (p.bind f).Only P R := by
  induction p with
  | returned a => exact h
  | raised e => exact h
  | read next ih => exact fun s => ih s (h s)
  | write g next ih => exact ih h
  | await r resume ih => exact ⟨h.1, fun a => ih a (h.2 a)⟩

/-- Some answers and some states lead the call to this end. -/
def CanEnd (x : Except ε α) : Coroutine σ Req Ans ε α → Prop
  | returned a => .ok a = x
  | raised e => .error e = x
  | read next => ∃ s, CanEnd x (next s)
  | write _ next => CanEnd x next
  | await _ resume => ∃ a, CanEnd x (resume a)

theorem requests_bind {r : Req} :
    (p.bind f).Requests r ↔ p.Requests r ∨ ∃ a, p.CanEnd (.ok a) ∧ (f a).Requests r := by
  induction p with
  | returned a => simp [Requests, CanEnd]
  | raised e => simp [Requests, CanEnd]
  | read next ih =>
      simp only [bind_read, Requests, CanEnd, ih]
      constructor
      · rintro ⟨s, h | ⟨a, hEnd, h⟩⟩
        · exact Or.inl ⟨s, h⟩
        · exact Or.inr ⟨a, ⟨s, hEnd⟩, h⟩
      · rintro (⟨s, h⟩ | ⟨a, ⟨s, hEnd⟩, h⟩)
        · exact ⟨s, Or.inl h⟩
        · exact ⟨s, Or.inr ⟨a, hEnd, h⟩⟩
  | write g next ih => exact ih
  | await r' resume ih =>
      simp only [bind_await, Requests, CanEnd, ih]
      constructor
      · rintro (h | ⟨answer, h | ⟨a, hEnd, h⟩⟩)
        · exact Or.inl (Or.inl h)
        · exact Or.inl (Or.inr ⟨answer, h⟩)
        · exact Or.inr ⟨a, ⟨answer, hEnd⟩, h⟩
      · rintro ((h | ⟨answer, h⟩) | ⟨a, ⟨answer, hEnd⟩, h⟩)
        · exact Or.inl h
        · exact Or.inr ⟨answer, Or.inl h⟩
        · exact Or.inr ⟨answer, Or.inr ⟨a, hEnd, h⟩⟩

theorem canEnd_bind {x : Except ε β} :
    (p.bind f).CanEnd x ↔
      (∃ a, p.CanEnd (.ok a) ∧ (f a).CanEnd x) ∨ ∃ e, p.CanEnd (.error e) ∧ .error e = x := by
  induction p with
  | returned a => simp [CanEnd]
  | raised e => simp [CanEnd]
  | read next ih =>
      simp only [bind_read, CanEnd, ih]
      constructor
      · rintro ⟨s, ⟨a, hEnd, h⟩ | ⟨e, hEnd, h⟩⟩
        · exact Or.inl ⟨a, ⟨s, hEnd⟩, h⟩
        · exact Or.inr ⟨e, ⟨s, hEnd⟩, h⟩
      · rintro (⟨a, ⟨s, hEnd⟩, h⟩ | ⟨e, ⟨s, hEnd⟩, h⟩)
        · exact ⟨s, Or.inl ⟨a, hEnd, h⟩⟩
        · exact ⟨s, Or.inr ⟨e, hEnd, h⟩⟩
  | write g next ih => exact ih
  | await r' resume ih =>
      simp only [bind_await, CanEnd, ih]
      constructor
      · rintro ⟨answer, ⟨a, hEnd, h⟩ | ⟨e, hEnd, h⟩⟩
        · exact Or.inl ⟨a, ⟨answer, hEnd⟩, h⟩
        · exact Or.inr ⟨e, ⟨answer, hEnd⟩, h⟩
      · rintro (⟨a, ⟨answer, hEnd⟩, h⟩ | ⟨e, ⟨answer, hEnd⟩, h⟩)
        · exact ⟨answer, Or.inl ⟨a, hEnd, h⟩⟩
        · exact ⟨answer, Or.inr ⟨e, hEnd, h⟩⟩

/-- The call does not read the state. -/
def Stateless : Coroutine σ Req Ans ε α → Prop
  | returned _ => True
  | raised _ => True
  | read _ => False
  | write _ next => Stateless next
  | await _ resume => ∀ a, Stateless (resume a)

theorem stateless_bind (h : p.Stateless)
    (hNext : ∀ a, (f a).Stateless) : (p.bind f).Stateless := by
  induction p with
  | returned a => exact hNext a
  | raised e => trivial
  | read next ih => exact h.elim
  | write g next ih => exact ih h
  | await r resume ih => exact fun a => ih a (h a)

theorem Requests.of_settle {r : Req} {s : σ} (h : (p.settle s).2.Requests r) : p.Requests r := by
  induction p generalizing s with
  | returned a => exact h
  | raised e => exact h
  | read next ih => exact ⟨s, ih s h⟩
  | write g next ih => exact ih h
  | await r' resume ih => exact h

theorem Stateless.requests_settle (h : p.Stateless) {r : Req} (s : σ) :
    (p.settle s).2.Requests r ↔ p.Requests r := by
  induction p generalizing s with
  | returned a => rfl
  | raised e => rfl
  | read next ih => exact h.elim
  | write g next ih => exact ih h (g s)
  | await r' resume ih => rfl

end Prsm.Foundations.Coroutine
