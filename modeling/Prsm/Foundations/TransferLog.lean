import Mathlib.Tactic

/-!
# Logs of transfers

A log of transfers between accounts determines every balance: what an account
has received less what it has sent.  A transfer without a source is minted.
Each transfer adds to one balance what it takes from another, so
`sum_balance` says that the balances of all accounts add up to what was minted.
-/

namespace Prsm.Foundations

universe u v

/-- An amount moved from one account to another, or minted for it. -/
structure Transfer (κ : Type u) (M : Type v) where
  source : Option κ
  target : κ
  amount : M

namespace Transfer

variable {κ : Type u} {M : Type v} [DecidableEq κ]

section Sums

variable [AddCommMonoid M]

/-- What an account has received. -/
def received (account : κ) (log : List (Transfer κ M)) : M :=
  ((log.filter fun t => t.target = account).map (·.amount)).sum

/-- What an account has sent. -/
def sent (account : κ) (log : List (Transfer κ M)) : M :=
  ((log.filter fun t => t.source = some account).map (·.amount)).sum

/-- What came from nowhere. -/
def minted (log : List (Transfer κ M)) : M :=
  ((log.filter fun t => t.source = none).map (·.amount)).sum

variable (account : κ) (t : Transfer κ M) (log more : List (Transfer κ M))

@[simp] theorem received_nil : received account ([] : List (Transfer κ M)) = 0 := rfl

@[simp] theorem sent_nil : sent account ([] : List (Transfer κ M)) = 0 := rfl

omit [DecidableEq κ] in
@[simp] theorem minted_nil : minted ([] : List (Transfer κ M)) = 0 := rfl

@[simp] theorem received_cons :
    received account (t :: log) =
      (if t.target = account then t.amount else 0) + received account log := by
  by_cases h : t.target = account <;> simp [received, h]

@[simp] theorem sent_cons :
    sent account (t :: log) =
      (if t.source = some account then t.amount else 0) + sent account log := by
  by_cases h : t.source = some account <;> simp [sent, h]

omit [DecidableEq κ] in
@[simp] theorem minted_cons :
    minted (t :: log) = (if t.source = none then t.amount else 0) + minted log := by
  by_cases h : t.source = none <;> simp [minted, h]

@[simp] theorem received_append :
    received account (log ++ more) = received account log + received account more := by
  simp [received]

@[simp] theorem sent_append :
    sent account (log ++ more) = sent account log + sent account more := by
  simp [sent]

end Sums

section Balances

variable [AddCommGroup M]

/-- What an account has received less what it has sent. -/
def balance (account : κ) (log : List (Transfer κ M)) : M :=
  received account log - sent account log

@[simp] theorem balance_nil (account : κ) : balance account ([] : List (Transfer κ M)) = 0 := by
  simp [balance]

theorem balance_append (account : κ) (log more : List (Transfer κ M)) :
    balance account (log ++ more) = balance account log + balance account more := by
  simp only [balance, received_append, sent_append]
  abel

theorem balance_singleton (account : κ) (t : Transfer κ M) :
    balance account [t] =
      (if t.target = account then t.amount else 0) -
        if t.source = some account then t.amount else 0 := by
  simp [balance]

/-- All transfers are between accounts of the set. -/
def Within (accounts : Finset κ) (log : List (Transfer κ M)) : Prop :=
  ∀ t ∈ log, t.target ∈ accounts ∧ ∀ account, t.source = some account → account ∈ accounts

/-- The accounts that a log names. -/
def accounts (log : List (Transfer κ M)) : Finset κ :=
  (log.flatMap fun t => t.target :: t.source.toList).toFinset

omit [AddCommGroup M] in
theorem within_accounts (log : List (Transfer κ M)) : Within (accounts log) log := by
  intro t ht
  have hMem : ∀ account, account ∈ t.target :: t.source.toList → account ∈ accounts log := by
    intro account hAccount
    exact List.mem_toFinset.mpr (List.mem_flatMap.mpr ⟨t, ht, hAccount⟩)
  exact ⟨hMem _ (by simp), fun account hSource => hMem account (by simp [hSource])⟩

theorem sum_balance {accounts : Finset κ} {log : List (Transfer κ M)}
    (h : Within accounts log) : ∑ account ∈ accounts, balance account log = minted log := by
  induction log with
  | nil => simp
  | cons t log ih =>
      have hRest : Within accounts log := fun t' ht' => h t' (List.mem_cons_of_mem _ ht')
      obtain ⟨hTarget, hSource⟩ := h t List.mem_cons_self
      have hIn : ∑ account ∈ accounts, (if t.target = account then t.amount else 0) = t.amount := by
        rw [Finset.sum_ite_eq, if_pos hTarget]
      have hOut : ∑ account ∈ accounts, (if t.source = some account then t.amount else 0) =
          t.amount - if t.source = none then t.amount else 0 := by
        cases hFrom : t.source with
        | none => simp
        | some source =>
            simp only [Option.some.injEq, reduceCtorEq, if_false, sub_zero]
            rw [Finset.sum_ite_eq, if_pos (hSource source hFrom)]
      have hEach : ∀ account, balance account (t :: log) =
          (if t.target = account then t.amount else 0) -
            (if t.source = some account then t.amount else 0) + balance account log := by
        intro account
        rw [← List.singleton_append, balance_append, balance_singleton]
      simp only [hEach, Finset.sum_add_distrib, Finset.sum_sub_distrib, hIn, hOut, ih hRest,
        minted_cons]
      abel

end Balances

end Transfer
end Prsm.Foundations
