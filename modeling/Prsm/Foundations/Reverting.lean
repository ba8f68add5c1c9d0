import Mathlib.Tactic

/-!
# Computations that revert

A transaction either runs to its end or reverts and leaves no trace.  Such
computations are values of `Except ε α`.  This module has the two guards every
contract function is built from, `require` and checked arithmetic, together with
the inversion rules that read the guards back off a successful run.  No proof
above this module unfolds the monad: a successful call is taken apart with
`bind_eq_ok_iff` and the `_eq_ok_iff` rules.
-/

namespace Prsm.Foundations

universe u v

variable {ε : Type u} {α β : Type v}

/-- Revert with `e` unless `p` holds. -/
def require (p : Prop) [Decidable p] (e : ε) : Except ε Unit :=
  if p then .ok () else .error e

/-- Addition in an unsigned type of width `bits`, which reverts with `e` when
the sum does not fit. -/
def checkedAdd (bits : Nat) (e : ε) (a b : Nat) : Except ε Nat :=
  if a + b < 2 ^ bits then .ok (a + b) else .error e

/-- Multiplication in an unsigned type of width `bits`, which reverts with `e` when
the product does not fit. -/
def checkedMul (bits : Nat) (e : ε) (a b : Nat) : Except ε Nat :=
  if a * b < 2 ^ bits then .ok (a * b) else .error e

/-- Unsigned subtraction, which reverts with `e` instead of going below zero. -/
def checkedSub (e : ε) (a b : Nat) : Except ε Nat :=
  if b ≤ a then .ok (a - b) else .error e

/-- Run a callee inside a computation whose own errors include the callee's. -/
def raise {ε' : Type u} (lift : ε' → ε) (x : Except ε' α) : Except ε α :=
  x.mapError lift

@[simp] theorem raise_eq_ok_iff {ε' : Type u} {lift : ε' → ε} {x : Except ε' α} {a : α} :
    raise lift x = .ok a ↔ x = .ok a := by
  cases x <;> simp [raise, Except.mapError]

theorem raise_ok {ε' : Type u} (lift : ε' → ε) (a : α) :
    raise lift (.ok a : Except ε' α) = .ok a := rfl

variable {p : Prop} {bits a b c : Nat}
variable {e : ε}

@[simp] theorem require_eq_ok_iff [Decidable p] {u : Unit} :
    require p e = .ok u ↔ p := by
  unfold require
  split <;> simp_all

@[simp] theorem require_eq_error_iff [Decidable p] {e e' : ε} :
    require p e = .error e' ↔ ¬ p ∧ e = e' := by
  unfold require
  split <;> simp_all

theorem require_of_pos [Decidable p] (e : ε) (hp : p) :
    require p e = .ok () :=
  require_eq_ok_iff.mpr hp

theorem require_of_neg [Decidable p] (e : ε) (hp : ¬ p) :
    require p e = .error e :=
  if_neg hp

@[simp] theorem checkedAdd_eq_ok_iff :
    checkedAdd bits e a b = .ok c ↔ a + b < 2 ^ bits ∧ c = a + b := by
  unfold checkedAdd
  split <;> simp_all [eq_comm]

@[simp] theorem checkedMul_eq_ok_iff :
    checkedMul bits e a b = .ok c ↔ a * b < 2 ^ bits ∧ c = a * b := by
  unfold checkedMul
  split <;> simp_all [eq_comm]

@[simp] theorem checkedSub_eq_ok_iff :
    checkedSub e a b = .ok c ↔ b ≤ a ∧ c = a - b := by
  unfold checkedSub
  split <;> simp_all [eq_comm]

@[simp] theorem checkedAdd_eq_error_iff {e e' : ε} :
    checkedAdd bits e a b = .error e' ↔ ¬ a + b < 2 ^ bits ∧ e = e' := by
  unfold checkedAdd
  split <;> simp_all

@[simp] theorem checkedMul_eq_error_iff {e e' : ε} :
    checkedMul bits e a b = .error e' ↔ ¬ a * b < 2 ^ bits ∧ e = e' := by
  unfold checkedMul
  split <;> simp_all

@[simp] theorem checkedSub_eq_error_iff {e e' : ε} :
    checkedSub e a b = .error e' ↔ ¬ b ≤ a ∧ e = e' := by
  unfold checkedSub
  split <;> simp_all

@[simp] theorem raise_eq_error_iff {ε' : Type u} {lift : ε' → ε} {x : Except ε' α} :
    raise lift x = .error e ↔ ∃ e', x = .error e' ∧ lift e' = e := by
  cases x <;> simp [raise, Except.mapError]

@[simp] theorem pure_ne_error {a : α} : (pure a : Except ε α) ≠ .error e := by
  simp [pure, Except.pure]

theorem checkedSub_of_le (e : ε) (h : b ≤ a) :
    checkedSub e a b = .ok (a - b) :=
  checkedSub_eq_ok_iff.mpr ⟨h, rfl⟩

theorem checkedMul_of_lt (e : ε) (h : a * b < 2 ^ bits) :
    checkedMul bits e a b = .ok (a * b) :=
  checkedMul_eq_ok_iff.mpr ⟨h, rfl⟩

theorem checkedAdd_of_lt (e : ε) (h : a + b < 2 ^ bits) :
    checkedAdd bits e a b = .ok (a + b) :=
  checkedAdd_eq_ok_iff.mpr ⟨h, rfl⟩

/-- A sequence succeeds exactly when its first part does and the rest does
from the value it returned. -/
@[simp] theorem bind_eq_ok_iff {x : Except ε α} {f : α → Except ε β} {b : β} :
    (x >>= f) = .ok b ↔ ∃ a, x = .ok a ∧ f a = .ok b := by
  cases x with
  | error e => simp [bind, Except.bind]
  | ok a => simp [bind, Except.bind]

/-- A sequence fails in its first part, or in the rest after the first part
has returned. -/
theorem bind_eq_error_iff {x : Except ε α} {f : α → Except ε β} :
    (x >>= f) = .error e ↔ x = .error e ∨ ∃ a, x = .ok a ∧ f a = .error e := by
  cases x with
  | error e' => simp [bind, Except.bind]
  | ok a => simp [bind, Except.bind]

@[simp] theorem pure_eq_ok_iff {a b : α} :
    (pure a : Except ε α) = .ok b ↔ a = b := by
  simp [pure, Except.pure]

@[simp] theorem ok_bind (a : α) (f : α → Except ε β) :
    ((.ok a : Except ε α) >>= f) = f a :=
  rfl

@[simp] theorem error_bind (e : ε) (f : α → Except ε β) :
    ((.error e : Except ε α) >>= f) = .error e :=
  rfl

theorem flagged_eq_ok_iff {α : Type} {x : Except ε (Bool × α)} {a : α} :
    (x >>= fun (ok, a') => require (ok = true) e >>= fun _ => pure a') = .ok a ↔
      x = .ok (true, a) := by
  simp only [bind_eq_ok_iff, require_eq_ok_iff, pure_eq_ok_iff]
  constructor
  · rintro ⟨⟨ok, a'⟩, hCall, -, rfl, rfl⟩
    exact hCall
  · intro hCall
    exact ⟨(true, a), hCall, (), rfl, rfl⟩

end Prsm.Foundations
