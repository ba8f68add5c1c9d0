import Prsm.AtomicFtns.Service

/-!
# Accounting

The balances of the accounts and the sums of the log, and what the writes of one
operation do to both.
-/

namespace Prsm.AtomicFtns

open Foundations

/-- What a row of the log adds to the balance of an account. -/
def TransactionRow.effect (row : TransactionRow) (userId : String) : ℚ :=
  if row.status = .completed then
    (if row.transactionType ≠ .deduction ∧ row.toUser = userId then row.amount else 0) -
      if row.transactionType ≠ .mint ∧ row.fromUser = some userId then row.amount else 0
  else 0

namespace Tables

/-- The balance of an account, with none for one that does not exist. -/
def balance (t : Tables) (userId : String) : ℚ :=
  (t.ftnsBalances.get? userId).elim 0 (·.balance)

/-- What the completed transactions of the log add up to. -/
def logged (t : Tables) (userId : String) : ℚ :=
  (t.ftnsTransactions.map fun row => row.effect userId).sum

/-- Each balance is the opening one and what the log adds to it. -/
def Agrees (opening : String → ℚ) (t : Tables) : Prop :=
  ∀ userId, t.balance userId = opening userId + t.logged userId

/-- Each balance covers what is locked of it. -/
def Covered (t : Tables) : Prop :=
  t.ftnsBalances.All fun _ a => a.lockedBalance ≤ a.balance

instance (t : Tables) : Decidable t.Covered :=
  inferInstanceAs (Decidable (Dict.All _ _))

/-- Two applications of one key by one account and operation are as far apart as the
key is valid. -/
def Apart (t : Tables) : Prop :=
  t.ftnsTransactions.Pairwise fun earlier later =>
    earlier.idempotencyKey.isSome → earlier.idempotencyKey = later.idempotencyKey →
      earlier.fromUser = later.fromUser → earlier.transactionType = later.transactionType →
        earlier.createdAt + idempotencyTtl ≤ later.createdAt

/-- The column `idempotency_key` is unique. -/
def UniqueKeys (t : Tables) : Prop :=
  t.ftnsTransactions.Pairwise fun earlier later =>
    earlier.idempotencyKey.isSome → earlier.idempotencyKey ≠ later.idempotencyKey

instance (t : Tables) : Decidable t.UniqueKeys :=
  inferInstanceAs (Decidable (List.Pairwise _ _))

/-- What the balances were before the transactions of the log. -/
def opening (t : Tables) (userId : String) : ℚ :=
  t.balance userId - t.logged userId

end Tables

/-! ## Tables after a write -/

namespace Tables

variable {c t t' t'' : Tables} {userId : String} {a a' : Account}

/-- An account that was read is there, and with the same version it is the same. -/
def Seen (userId : String) (a : Account) (t : Tables) : Prop :=
  ∃ a', t.ftnsBalances.get? userId = some a' ∧ a.version ≤ a'.version ∧
    (a'.version = a.version → a' = a)

/-- Accounts stay, and one with the same version is the same. -/
def Grown (t t' : Tables) : Prop :=
  ∀ userId a, t.ftnsBalances.get? userId = some a → Seen userId a t'

theorem Grown.refl (t : Tables) : t.Grown t :=
  fun _ a h => ⟨a, h, le_rfl, fun _ => rfl⟩

theorem Seen.grown (hSeen : Seen userId a t) (h : t.Grown t') : Seen userId a t' := by
  obtain ⟨b, hHere, hLe, hSame⟩ := hSeen
  obtain ⟨b', hNext, hLe', hSame'⟩ := h userId b hHere
  refine ⟨b', hNext, hLe.trans hLe', fun hVersion => ?_⟩
  have hFirst : b.version = a.version := by omega
  have hSecond : b'.version = b.version := by omega
  rw [hSame' hSecond, hSame hFirst]

theorem Grown.trans (h : t.Grown t') (h' : t'.Grown t'') : t.Grown t'' := by
  intro userId a hHere
  exact (h userId a hHere).grown h'

/-- The write of one operation: accounts move by given amounts, and the log is as before. -/
structure Moves (moves : String → ℚ) (t t' : Tables) : Prop where
  grown : t.Grown t'
  balance : ∀ userId, t'.balance userId = t.balance userId + moves userId
  covered : t.Covered → t'.Covered
  log : t'.ftnsTransactions = t.ftnsTransactions

/-- What a session may commit: the balances and the log change by the same. -/
structure Accounted (t t' : Tables) : Prop where
  grown : t.Grown t'
  balance : ∀ userId, t'.balance userId - t.balance userId = t'.logged userId - t.logged userId
  covered : t.Covered → t'.Covered
  unique : t.UniqueKeys → t'.UniqueKeys

theorem UniqueKeys.apart (h : t.UniqueKeys) : t.Apart :=
  h.imp fun hNe hSome hEq => absurd hEq (hNe hSome)

theorem agrees_opening (t : Tables) : t.Agrees t.opening := by
  intro userId
  simp [opening]

theorem moves_set (hHere : t.ftnsBalances.get? userId = some a) (hVersion : a.version < a'.version)
    (hCovered : a.lockedBalance ≤ a.balance → a'.lockedBalance ≤ a'.balance) :
    Moves (fun u => if u = userId then a'.balance - a.balance else 0) t
      { t with ftnsBalances := t.ftnsBalances.set userId a' } where
  grown := by
    intro u b hb
    by_cases hu : u = userId
    · subst hu
      cases hHere.symm.trans hb
      exact ⟨a', by simp, hVersion.le, fun hEq => absurd hEq hVersion.ne'⟩
    · exact ⟨b, by simp [Dict.get?_set, hu, hb], le_rfl, fun _ => rfl⟩
  balance := by
    intro u
    by_cases hu : u = userId
    · subst hu
      simp [balance, hHere]
    · simp [balance, Dict.get?_set, hu]
  covered := fun h => h.set (hCovered (h userId a hHere))
  log := rfl

theorem Moves.trans {moves moves' : String → ℚ} (h : Moves moves t t') (h' : Moves moves' t' t'') :
    Moves (fun u => moves u + moves' u) t t'' where
  grown := h.grown.trans h'.grown
  balance := fun u => by rw [h'.balance, h.balance, add_assoc]
  covered := fun hCovered => h'.covered (h.covered hCovered)
  log := h'.log.trans h.log

theorem Moves.congr {moves moves' : String → ℚ} (h : Moves moves t t')
    (hEq : ∀ u, moves u = moves' u) : Moves moves' t t' := by
  obtain rfl : moves = moves' := funext hEq
  exact h

theorem accounted_insertAccount (t : Tables) (userId : String) :
    Accounted t (t.insertAccount userId 0) := by
  unfold insertAccount
  split
  · exact ⟨.refl t, fun u => by simp, id, id⟩
  next hNew =>
    have hNone : t.ftnsBalances.get? userId = none := by simpa using hNew
    refine ⟨fun u a h => ?_, fun u => ?_, fun h => h.set le_rfl, id⟩
    · have hu : u ≠ userId := by
        rintro rfl
        simp [hNone] at h
      exact ⟨a, by simp [Dict.get?_set, hu, h], le_rfl, fun _ => rfl⟩
    · by_cases hu : u = userId
      · subst hu
        simp [balance, logged, hNone]
      · simp [balance, logged, Dict.get?_set, hu]

theorem Moves.accounted {moves : String → ℚ} {row : Transaction} {createdAt : ℕ}
    (h : Moves moves t t') (hAccepts : t'.accepts row = true)
    (hEffect : ∀ userId, TransactionRow.effect ⟨row, createdAt⟩ userId = moves userId) :
    Accounted t { t' with ftnsTransactions := t'.ftnsTransactions ++ [⟨row, createdAt⟩] } where
  grown := h.grown
  balance := by
    intro userId
    have hBalance := h.balance userId
    have hLogged : logged { t' with
        ftnsTransactions := t'.ftnsTransactions ++ [⟨row, createdAt⟩] } userId =
          t.logged userId + moves userId := by
      simp [logged, h.log, hEffect]
    rw [hLogged]
    change t'.balance userId - _ = _
    linarith
  covered := h.covered
  unique := by
    intro hUnique
    have hRows : t'.UniqueKeys := by
      rw [UniqueKeys, h.log]
      exact hUnique
    refine List.pairwise_append.mpr ⟨hRows, List.pairwise_singleton _ _, ?_⟩
    intro old hOld new hNew hSome
    obtain rfl := List.mem_singleton.mp hNew
    have hOne := List.all_eq_true.mp hAccepts old hOld
    simp only [ne_eq, Bool.and_eq_true, Bool.or_eq_true, decide_eq_true_eq] at hOne
    rintro hEq
    rcases hOne.2 with hNone | hNe
    · rw [hEq] at hSome
      simp [hNone] at hSome
    · exact hNe hEq

theorem accounted_insertKey (h : Accounted t t') (key : String) (row : KeyRow) :
    Accounted t (t'.insertKey key row) := by
  unfold insertKey
  split
  · exact h
  · exact ⟨h.grown, h.balance, h.covered, h.unique⟩

@[simp] theorem insertKey_balance (t : Tables) (key : String) (row : KeyRow) (userId : String) :
    (t.insertKey key row).balance userId = t.balance userId := by
  unfold insertKey
  split <;> rfl

theorem of_update {version n : ℕ} {f : Account → Account}
    (h : t.update userId version f = (n, t')) :
    n = 0 ∨ ∃ a, t.ftnsBalances.get? userId = some a ∧ a.version = version ∧
      t' = { t with ftnsBalances := t.ftnsBalances.set userId (f a) } := by
  unfold update at h
  split at h
  · cases h
    exact .inl rfl
  next a hHere =>
    split at h
    next hVersion =>
      cases h
      exact .inr ⟨a, hHere, hVersion, rfl⟩
    · cases h
      exact .inl rfl

end Tables

end Prsm.AtomicFtns
