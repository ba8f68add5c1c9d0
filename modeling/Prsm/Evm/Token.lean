import Prsm.Evm.Platform
import Prsm.Foundations.Sums

/-!
# A conforming ERC-20 token

The contracts hold and pay one token.  It conforms to the standard and moves
exactly what it is asked to move: a transfer either takes the whole amount from
one account to the other, or reverts, or declines by returning `false` and
changes nothing.  Whether it declines is for the environment to say.
-/

namespace Prsm.Evm

open Foundations

structure Token where
  balanceOf : Address → Nat
  allowance : Address → Address → Nat

inductive TokenError
  | insufficientBalance
  | insufficientAllowance
  deriving DecidableEq

namespace Token

/-- Balances after `amount` has moved. -/
def move (t : Token) (sender recipient : Address) (amount : Nat) : Token :=
  let debited := Function.update t.balanceOf sender (t.balanceOf sender - amount)
  { t with balanceOf := Function.update debited recipient (debited recipient + amount) }

/-- `transfer`, called by `sender`.  The flag is the return value. -/
def transfer (t : Token) (declines : Bool) (sender recipient : Address) (amount : Nat) :
    Except TokenError (Bool × Token) := do
  if declines then
    pure (false, t)
  else
    require (amount ≤ t.balanceOf sender) .insufficientBalance
    pure (true, t.move sender recipient amount)

/-- `transferFrom`, called by `spender`. -/
def transferFrom (t : Token) (declines : Bool) (spender owner recipient : Address)
    (amount : Nat) : Except TokenError (Bool × Token) := do
  if declines then
    pure (false, t)
  else
    require (amount ≤ t.allowance owner spender) .insufficientAllowance
    require (amount ≤ t.balanceOf owner) .insufficientBalance
    let spent : Token :=
      { t with
        allowance := Function.update t.allowance owner
          (Function.update (t.allowance owner) spender (t.allowance owner spender - amount)) }
    pure (true, spent.move owner recipient amount)

/-- What an account can do with the token by itself. -/
inductive Call
  | transfer (recipient : Address) (amount : Nat)
  | transferFrom (owner recipient : Address) (amount : Nat)
  | approve (spender : Address) (amount : Nat)

def call (t : Token) (sender : Address) : Call → Except TokenError Token
  | .transfer recipient amount => do
      let (_, t') ← t.transfer false sender recipient amount
      pure t'
  | .transferFrom owner recipient amount => do
      let (_, t') ← t.transferFrom false sender owner recipient amount
      pure t'
  | .approve spender amount =>
      pure { t with
        allowance := Function.update t.allowance sender
          (Function.update (t.allowance sender) spender amount) }

/-! ## What a successful call has done -/

variable {t t' : Token} {declines : Bool} {sender recipient owner account : Address} {amount : Nat}

theorem transfer_eq_true (h : t.transfer declines sender recipient amount = .ok (true, t')) :
    amount ≤ t.balanceOf sender ∧ t' = t.move sender recipient amount := by
  unfold transfer at h
  split at h
  · simp only [pure_eq_ok_iff, Prod.mk.injEq] at h
    cases h.1
  · simp only [bind_eq_ok_iff, require_eq_ok_iff, pure_eq_ok_iff, Prod.mk.injEq] at h
    obtain ⟨-, hBalance, -, rfl⟩ := h
    exact ⟨hBalance, rfl⟩

theorem transfer_of_le {t : Token} {sender recipient : Address} {amount : Nat}
    (h : amount ≤ t.balanceOf sender) :
    t.transfer false sender recipient amount = .ok (true, t.move sender recipient amount) := by
  simp only [transfer, Bool.false_eq_true, if_false, require_of_pos _ h, ok_bind]
  rfl

theorem transferFrom_eq_true
    {spender : Address}
    (h : t.transferFrom declines spender owner recipient amount = .ok (true, t')) :
    amount ≤ t.allowance owner spender ∧ amount ≤ t.balanceOf owner ∧
      t'.balanceOf = (t.move owner recipient amount).balanceOf ∧
      ∀ a b, t'.allowance a b ≤ t.allowance a b := by
  unfold transferFrom at h
  split at h
  · simp only [pure_eq_ok_iff, Prod.mk.injEq] at h
    cases h.1
  · simp only [bind_eq_ok_iff, require_eq_ok_iff, pure_eq_ok_iff, Prod.mk.injEq] at h
    obtain ⟨-, hAllowance, -, hBalance, -, rfl⟩ := h
    refine ⟨hAllowance, hBalance, rfl, fun a b => ?_⟩
    simp only [move]
    by_cases hOwner : a = owner
    · subst hOwner
      by_cases hSpender : b = spender
      · subst hSpender
        simp
      · simp [hSpender]
    · simp [hOwner]

theorem move_balanceOf_of_ne
    (hSender : account ≠ sender) (hRecipient : account ≠ recipient) :
    (t.move sender recipient amount).balanceOf account = t.balanceOf account := by
  simp [move, hSender, hRecipient]

theorem move_balanceOf_sender
    (hNe : sender ≠ recipient) :
    (t.move sender recipient amount).balanceOf sender = t.balanceOf sender - amount := by
  simp [move, hNe]

theorem move_balanceOf_self
    (h : amount ≤ t.balanceOf account) :
    (t.move account account amount).balanceOf account = t.balanceOf account := by
  simp only [move, Function.update_self]
  omega

theorem move_balanceOf_recipient
    (hNe : sender ≠ recipient) :
    (t.move sender recipient amount).balanceOf recipient = t.balanceOf recipient + amount := by
  simp [move, hNe.symm]

theorem le_move_balanceOf_sender {t : Token} {sender recipient : Address} {amount : Nat}
    (h : amount ≤ t.balanceOf sender) :
    t.balanceOf sender ≤ (t.move sender recipient amount).balanceOf sender + amount := by
  by_cases hSelf : sender = recipient
  · subst hSelf
    rw [move_balanceOf_self h]
    omega
  · rw [move_balanceOf_sender hSelf]
    omega

/-- An account that has approved nobody. -/
def Unspendable (t : Token) (account : Address) : Prop :=
  ∀ spender, t.allowance account spender = 0

theorem le_move_balanceOf_of_other
    (h : owner ≠ account ∨ amount = 0) :
    t.balanceOf account ≤ (t.move owner recipient amount).balanceOf account := by
  by_cases hOwner : owner = account
  · subst hOwner
    have hZero : amount = 0 := h.resolve_left fun hNe => hNe rfl
    subst hZero
    exact le_move_balanceOf_sender (Nat.zero_le _)
  · by_cases hRecipient : account = recipient
    · subst hRecipient
      rw [move_balanceOf_recipient hOwner]
      exact Nat.le_add_right _ _
    · rw [move_balanceOf_of_ne (fun hSame => hOwner hSame.symm) hRecipient]

theorem call_of_other {c : Call}
    (hOther : sender ≠ account) (hUnspendable : t.Unspendable account)
    (h : t.call sender c = .ok t') :
    t.balanceOf account ≤ t'.balanceOf account ∧ t'.Unspendable account := by
  cases c with
  | transfer recipient amount =>
      simp only [call, bind_eq_ok_iff, pure_eq_ok_iff] at h
      obtain ⟨⟨ok, moved⟩, hTransfer, rfl⟩ := h
      simp only [transfer, Bool.false_eq_true, if_false, bind_eq_ok_iff, require_eq_ok_iff,
        pure_eq_ok_iff, Prod.mk.injEq] at hTransfer
      obtain ⟨-, -, -, rfl⟩ := hTransfer
      exact ⟨le_move_balanceOf_of_other (.inl hOther), hUnspendable⟩
  | transferFrom owner recipient amount =>
      simp only [call, bind_eq_ok_iff, pure_eq_ok_iff] at h
      obtain ⟨⟨ok, moved⟩, hTransfer, rfl⟩ := h
      have hOk : ok = true := by
        simp only [transferFrom, Bool.false_eq_true, if_false, bind_eq_ok_iff, require_eq_ok_iff,
          pure_eq_ok_iff, Prod.mk.injEq] at hTransfer
        obtain ⟨-, -, -, -, hTrue, -⟩ := hTransfer
        exact hTrue.symm
      subst hOk
      obtain ⟨hAllowance, -, hBalance, hAllowances⟩ := transferFrom_eq_true hTransfer
      constructor
      · rw [hBalance]
        apply le_move_balanceOf_of_other
        by_cases hOwner : owner = account
        · -- The account has approved nobody, so nothing can be moved from it.
          subst hOwner
          rw [hUnspendable sender] at hAllowance
          exact .inr (by omega)
        · exact .inl hOwner
      · intro spender
        have hLe := hAllowances account spender
        rw [hUnspendable spender] at hLe
        exact Nat.le_zero.mp hLe
  | approve spender amount =>
      simp only [call, pure_eq_ok_iff] at h
      subst h
      refine ⟨le_refl _, fun other => ?_⟩
      simp only [Function.update_of_ne hOther.symm]
      exact hUnspendable other

/-! ## The supply

No call makes or destroys tokens, so what all accounts hold together stays what it
was. -/

/-- What all accounts hold together. -/
def supply (t : Token) : Nat :=
  ∑ account, t.balanceOf account

theorem balanceOf_le_supply (t : Token) (account : Address) : t.balanceOf account ≤ t.supply :=
  le_sum_mapping t.balanceOf account

theorem move_supply
    (h : amount ≤ t.balanceOf sender) : (t.move sender recipient amount).supply = t.supply := by
  have hDebit := sum_update_entry (fun _ (balance : Nat) => balance) t.balanceOf sender
    (t.balanceOf sender - amount)
  have hCredit := sum_update_entry (fun _ (balance : Nat) => balance)
    (Function.update t.balanceOf sender (t.balanceOf sender - amount)) recipient
    (Function.update t.balanceOf sender (t.balanceOf sender - amount) recipient + amount)
  simp only [supply, move]
  omega

theorem transfer_supply {ok : Bool}
    (h : t.transfer declines sender recipient amount = .ok (ok, t')) :
    t'.supply = t.supply := by
  unfold transfer at h
  split at h
  · simp only [pure_eq_ok_iff, Prod.mk.injEq] at h
    rw [← h.2]
  · simp only [bind_eq_ok_iff, require_eq_ok_iff, pure_eq_ok_iff, Prod.mk.injEq] at h
    obtain ⟨-, hBalance, -, rfl⟩ := h
    exact move_supply hBalance

theorem transferFrom_supply {ok : Bool}
    {spender : Address}
    (h : t.transferFrom declines spender owner recipient amount = .ok (ok, t')) :
    t'.supply = t.supply := by
  unfold transferFrom at h
  split at h
  · simp only [pure_eq_ok_iff, Prod.mk.injEq] at h
    rw [← h.2]
  · simp only [bind_eq_ok_iff, require_eq_ok_iff, pure_eq_ok_iff, Prod.mk.injEq] at h
    obtain ⟨-, -, -, hBalance, -, rfl⟩ := h
    -- Spending an allowance leaves the balances alone.
    exact move_supply (t := { t with allowance := _ }) hBalance

theorem call_supply {c : Call} (h : t.call sender c = .ok t') :
    t'.supply = t.supply := by
  cases c with
  | transfer recipient amount =>
      simp only [call, bind_eq_ok_iff, pure_eq_ok_iff] at h
      obtain ⟨⟨ok, moved⟩, hTransfer, rfl⟩ := h
      exact transfer_supply hTransfer
  | transferFrom owner recipient amount =>
      simp only [call, bind_eq_ok_iff, pure_eq_ok_iff] at h
      obtain ⟨⟨ok, moved⟩, hTransfer, rfl⟩ := h
      exact transferFrom_supply hTransfer
  | approve spender amount =>
      simp only [call, pure_eq_ok_iff] at h
      rw [← h]
      rfl

end Token
end Prsm.Evm
