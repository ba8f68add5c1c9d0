import Prsm.Foundations.TransferLog
import Prsm.LocalLedger.Operations

/-!
# Overdrafts

The balance a call checks is rounded to six decimals, the amounts it books are not.  While a call
holds the write lock its wallet can only gain, so what was covered at the check is still covered
by the rounded balance at the insert.  What is missing from it is the rounding error: an amount
above the exact balance can still be covered by the rounded one.

The balances add up to what was minted in any case.
-/

namespace Prsm.LocalLedger

open Foundations
open Foundations.Discipline (Safe)

/-! ## The log of transfers -/

/-- What a row moves. -/
def Transaction.entry (tx : Transaction) : Transfer String ℚ :=
  ⟨tx.fromWallet, tx.toWallet, tx.amount⟩

namespace Ledger

variable (l : Ledger)

def log : List (Transfer String ℚ) :=
  l.transactions.map Transaction.entry

/-- The exact balance. -/
def balance (walletId : String) : ℚ :=
  Transfer.balance walletId l.log

theorem balance_eq (walletId : String) :
    l.balance walletId = l.sumTo walletId - l.sumFrom walletId := by
  simp only [balance, Transfer.balance, Transfer.received, Transfer.sent, log, sumTo, sumFrom,
    sumAmounts, List.filter_map, List.map_map]
  rfl

/-- No wallet but the system's is overdrawn, and all balances add up to what was
minted. -/
def Sound : Prop :=
  (∀ walletId, walletId ≠ "system" → 0 ≤ l.balance walletId) ∧
    ∑ walletId ∈ Transfer.accounts l.log, l.balance walletId = Transfer.minted l.log

/-- The check of the `amount` column. -/
def Checked : Prop :=
  ∀ tx ∈ l.transactions, 0 < tx.amount

/-- The row is accepted, and its amount is above the exact balance of the wallet
it debits but not above that balance rounded to six decimals. -/
def RoundsUp (tx : Transaction) : Prop :=
  l.accepts tx ∧ ∃ walletId, tx.fromWallet = some walletId ∧ walletId ≠ "system" ∧
    tx.toWallet ≠ walletId ∧ l.balance walletId < tx.amount ∧
    tx.amount ≤ roundTo 6 (l.balance walletId)

variable {l} {l' : Ledger}

theorem sum_balance : ∑ walletId ∈ Transfer.accounts l.log, l.balance walletId =
    Transfer.minted l.log :=
  Transfer.sum_balance (Transfer.within_accounts l.log)

theorem balance_of_transactions (h : l'.transactions = l.transactions) (walletId : String) :
    l'.balance walletId = l.balance walletId := by
  simp only [balance, log, h]

theorem sound_iff : l.Sound ↔ ∀ walletId, walletId ≠ "system" → 0 ≤ l.balance walletId :=
  and_iff_left sum_balance

theorem sound_congr (h : l'.transactions = l.transactions) : l'.Sound ↔ l.Sound := by
  simp only [sound_iff, balance_of_transactions h]

theorem balance_insert (tx : Transaction) (walletId : String)
    (h : l'.transactions = l.transactions ++ [tx]) :
    l'.balance walletId = l.balance walletId +
      ((if tx.toWallet = walletId then tx.amount else 0) -
        if tx.fromWallet = some walletId then tx.amount else 0) := by
  rw [balance, log, h, List.map_append, Transfer.balance_append]
  exact congrArg _ (Transfer.balance_singleton walletId tx.entry)

theorem sound_insert_iff {tx : Transaction} (hSound : l.Sound) (hPos : 0 < tx.amount)
    (h : l'.transactions = l.transactions ++ [tx]) :
    l'.Sound ↔ ∀ walletId, tx.fromWallet = some walletId → walletId ≠ "system" →
      tx.toWallet ≠ walletId → tx.amount ≤ l.balance walletId := by
  rw [sound_iff] at hSound ⊢
  constructor
  · intro hAfter walletId hFrom hNotSystem hTo
    have hBalance := hAfter walletId hNotSystem
    rw [balance_insert tx walletId h, if_neg hTo, if_pos hFrom] at hBalance
    linarith
  · intro hCovered walletId hNotSystem
    have hBefore := hSound walletId hNotSystem
    rw [balance_insert tx walletId h]
    by_cases hTo : tx.toWallet = walletId
    · rw [if_pos hTo]
      split <;> linarith
    · rw [if_neg hTo]
      split
      case isTrue hFrom =>
          have := hCovered walletId hFrom hNotSystem hTo
          linarith
      case isFalse => linarith

theorem sumTo_le (h : l'.Checked) (hPrefix : l.transactions <+: l'.transactions)
    (walletId : String) : l.sumTo walletId ≤ l'.sumTo walletId := by
  obtain ⟨rows, hRows⟩ := hPrefix
  rw [sumTo, sumTo, ← hRows, sumAmounts, sumAmounts, List.filter_append, List.map_append,
    List.sum_append, le_add_iff_nonneg_right]
  apply List.sum_nonneg
  intro amount hAmount
  obtain ⟨tx, hTx, rfl⟩ := List.mem_map.mp hAmount
  refine (h tx ?_).le
  rw [← hRows]
  exact List.mem_append_right _ (List.mem_filter.mp hTx).1

end Ledger

/-! ## What the calls rely on -/

/-- While a task holds the lock no other task debits a wallet. -/
def relies (me : ℕ) (l l' : Ledger) : Prop :=
  (∀ walletId, l.sumTo walletId ≤ l'.sumTo walletId) ∧
    (l.writeLock = some me → l'.writeLock = some me ∧
      ∀ walletId, l'.sumFrom walletId = l.sumFrom walletId)

/-- A row that debits a wallet is covered by its rounded balance, and is written
under the lock. -/
def before (me : ℕ) (l : Ledger) : Request → Prop
  | .insertTransaction tx => ∀ walletId, tx.fromWallet = some walletId →
      l.writeLock = some me ∧ tx.amount ≤ roundTo 6 (l.balance walletId)
  | _ => True

def discipline : Discipline Ledger Request ℚ where
  Inv := Ledger.Checked
  Fresh := fun _ _ => True
  Rely := relies
  Writes := fun l l' => l'.transactions = l.transactions
  Allowed := fun _ _ _ _ => True
  Before := before
  rely_refl := fun _ _ => ⟨fun _ => le_rfl, fun h => ⟨h, fun _ => rfl⟩⟩
  rely_trans := fun _ _ _ _ h h' =>
    ⟨fun walletId => (h.1 walletId).trans (h'.1 walletId), fun hLock =>
      ⟨(h'.2 (h.2 hLock).1).1, fun walletId =>
        ((h'.2 (h.2 hLock).1).2 walletId).trans ((h.2 hLock).2 walletId)⟩⟩
  writes_refl := fun _ => rfl
  writes_trans := fun _ _ _ h h' => h'.trans h
  fresh_stable := fun _ _ _ _ _ _ h => h

section Statements

variable {me : ℕ} {now : ℚ} {l l' : Ledger}

/-- The requests that neither add a row nor take the lock. -/
def Request.isQuiet : Request → Bool
  | .insertTransaction _ => false
  | .acquireWriteLock => false
  | _ => true

theorem serveAt_quiet {r : Request} {answer : Answer r} (hQuiet : r.isQuiet)
    (h : serveAt me now l r = some (answer, l')) :
    l'.transactions = l.transactions ∧ l'.writeLock = l.writeLock := by
  unfold serveAt Ledger.serve at h
  cases r with
  | insertTransaction tx => cases hQuiet
  | acquireWriteLock => cases hQuiet
  | insertWallet walletId displayName createdAt =>
      dsimp only at h
      split at h <;> (cases h; exact ⟨rfl, rfl⟩)
  | upsertAllowance agentId row =>
      dsimp only at h
      split at h
      · cases h
        exact ⟨rfl, rfl⟩
      · split at h <;> (cases h; exact ⟨rfl, rfl⟩)
  | resetSpent agentId epochStart =>
      dsimp only at h
      split at h <;> (cases h; exact ⟨rfl, rfl⟩)
  | addSpent agentId amount =>
      dsimp only at h
      split at h <;> (cases h; exact ⟨rfl, rfl⟩)
  | revokeAllowance agentId principalId =>
      dsimp only at h
      split at h
      · cases h
        exact ⟨rfl, rfl⟩
      · split at h <;> (cases h; exact ⟨rfl, rfl⟩)
  | _ =>
      cases h
      exact ⟨rfl, rfl⟩

theorem serveAt_acquireWriteLock {answer : Unit}
    (h : serveAt me now l .acquireWriteLock = some (answer, l')) :
    l.writeLock = none ∧ l'.writeLock = some me ∧ l'.transactions = l.transactions := by
  unfold serveAt Ledger.serve at h
  dsimp only at h
  split at h
  · cases h
    exact ⟨by assumption, rfl, rfl⟩
  · cases h

theorem serveAt_insertTransaction {tx : Transaction} {accepted : Bool}
    (h : serveAt me now l (.insertTransaction tx) = some (accepted, l')) :
    accepted = l.accepts tx ∧ l'.writeLock = l.writeLock ∧
      l'.transactions = l.transactions ++ if l.accepts tx then [tx] else [] := by
  unfold serveAt Ledger.serve at h
  have hAccepts : { l with now := now }.accepts tx = l.accepts tx := rfl
  dsimp only at h
  rw [hAccepts] at h
  split at h
  case isTrue hHere =>
      cases h
      exact ⟨hHere.symm, rfl, by rw [if_pos hHere]⟩
  case isFalse hNot =>
      cases h
      exact ⟨(Bool.not_eq_true _ ▸ hNot).symm, rfl, by rw [if_neg hNot, List.append_nil]⟩

theorem relies_of_transactions {other : ℕ} (h : l'.transactions = l.transactions)
    (hLock : l.writeLock = some other → l'.writeLock = some other) : relies other l l' := by
  have hTo : ∀ walletId, l'.sumTo walletId = l.sumTo walletId := by
    intro walletId
    rw [Ledger.sumTo, Ledger.sumTo, h]
  have hFrom : ∀ walletId, l'.sumFrom walletId = l.sumFrom walletId := by
    intro walletId
    rw [Ledger.sumFrom, Ledger.sumFrom, h]
  exact ⟨fun walletId => (hTo walletId).ge, fun hHeld => ⟨hLock hHeld, hFrom⟩⟩

theorem checked_of_transactions (hChecked : l.Checked) (h : l'.transactions = l.transactions) :
    l'.Checked := by
  unfold Ledger.Checked
  rwa [h]

theorem guarantee_of_transactions (hChecked : l.Checked) (h : l'.transactions = l.transactions)
    (hLock : l'.writeLock = l.writeLock ∨ l.writeLock = none ∨ l.writeLock = some me) :
    discipline.Guarantee me l l' := by
  refine ⟨checked_of_transactions hChecked h, fun other hOther => ?_⟩
  refine relies_of_transactions h fun hHeld => ?_
  rcases hLock with hSame | hFree | hMine
  · rw [hSame, hHeld]
  · rw [hFree] at hHeld
    cases hHeld
  · rw [hMine] at hHeld
    cases hHeld
    exact absurd rfl hOther

theorem guarantee_insert {tx : Transaction} (hChecked : l.Checked) (hPos : 0 < tx.amount)
    (hBefore : before me l (.insertTransaction tx)) (hLock : l'.writeLock = l.writeLock)
    (h : l'.transactions = l.transactions ++ [tx]) : discipline.Guarantee me l l' := by
  have hChecked' : l'.Checked := by
    intro row hRow
    rw [h, List.mem_append, List.mem_singleton] at hRow
    rcases hRow with hOld | rfl
    · exact hChecked row hOld
    · exact hPos
  refine ⟨hChecked', fun other hOther => ?_⟩
  refine ⟨Ledger.sumTo_le hChecked' ⟨[tx], h.symm⟩, fun hHeld => ⟨hLock.trans hHeld, ?_⟩⟩
  intro walletId
  have hNotFrom : ¬ tx.fromWallet = some walletId := by
    intro hFrom
    rw [(hBefore walletId hFrom).1] at hHeld
    cases hHeld
    exact absurd rfl hOther
  simp [Ledger.sumFrom, sumAmounts, h, hNotFrom]

end Statements

section Methods

variable {me : ℕ} {α : Type}

/-- A fact about the rows and the lock that the other tasks keep. -/
structure Steady (me : ℕ) (H : Ledger → Prop) : Prop where
  stable : discipline.Stable me H
  congr : ∀ l l', l'.transactions = l.transactions → l'.writeLock = l.writeLock → H l → H l'

/-- The task holds the lock. -/
def Holds (me : ℕ) (l : Ledger) : Prop :=
  l.writeLock = some me

/-- The task holds the lock, and the rounded balance of the wallet is not below an
amount. -/
def Covers (me : ℕ) (walletId : String) (amount : ℚ) (l : Ledger) : Prop :=
  Holds me l ∧ amount ≤ roundTo 6 (l.balance walletId)

theorem steady_true : Steady me fun _ => True :=
  ⟨fun _ _ _ _ _ _ => trivial, fun _ _ _ _ _ => trivial⟩

theorem steady_holds : Steady me (Holds me) :=
  ⟨fun _ _ _ hRely _ hHolds => (hRely.2 hHolds).1, fun _ _ _ hLock hHolds => hLock.trans hHolds⟩

theorem steady_covers {walletId : String} {amount : ℚ} :
    Steady me (Covers me walletId amount) := by
  constructor
  · rintro l l' - ⟨hGain, hHeld⟩ - ⟨hHolds, hCovers⟩
    obtain ⟨hHolds', hFrom⟩ := hHeld hHolds
    refine ⟨hHolds', hCovers.trans (roundTo_mono ?_)⟩
    rw [Ledger.balance_eq, Ledger.balance_eq, hFrom]
    exact sub_le_sub_right (hGain walletId) _
  · rintro l l' hRows hLock ⟨hHolds, hCovers⟩
    refine ⟨hLock.trans hHolds, ?_⟩
    rwa [Ledger.balance_of_transactions hRows]

variable {Post : Except Error α → Ledger → Prop} {H : Ledger → Prop} {l : Ledger}

theorem safe_quiet {r : Request} {resume : Answer r → Method α} (hQuiet : r.isQuiet)
    (hSteady : Steady me H) (hChecked : l.Checked) (hHere : H l)
    (hResume : ∀ answer l, l.Checked → H l →
      discipline.Safe serveAt me Post (resume answer) l) :
    discipline.Safe serveAt me Post (.await r resume) l := by
  have hBefore : ∀ l, before me l r := by
    intro l
    cases r with
    | insertTransaction tx => cases hQuiet
    | _ => trivial
  refine Discipline.safe_ask (K := fun _ => H) hChecked hHere hSteady.stable
    (fun _ => hSteady.stable) (fun l _ _ => hBefore l) ?_ hResume
  intro now answer l l' hChecked hHere _ hServe
  obtain ⟨hRows, hLock⟩ := serveAt_quiet hQuiet hServe
  exact ⟨guarantee_of_transactions hChecked hRows (.inl hLock),
    hSteady.congr l l' hRows hLock hHere⟩

theorem safe_ensureWallet (walletId : String) (hSteady : Steady me H) (hChecked : l.Checked)
    (hHere : H l) : discipline.Safe serveAt me (fun _ => H) (ensureWallet walletId) l := by
  refine safe_quiet rfl hSteady hChecked hHere fun known l hChecked hHere => ?_
  cases known with
  | true => exact hHere
  | false =>
      refine safe_quiet rfl hSteady hChecked hHere fun _ l hChecked hHere => ?_
      exact safe_quiet rfl hSteady hChecked hHere fun _ l _ hHere => hHere

theorem safe_getBalance (walletId : String) (hChecked : l.Checked) (hHolds : Holds me l) :
    discipline.Safe serveAt me
      (Ends (fun balance l => Covers me walletId balance l) fun _ _ => False)
      (getBalance walletId) l := by
  have hRead : ∀ credits, Steady me fun l => Holds me l ∧ credits ≤ l.sumTo walletId := by
    intro credits
    constructor
    · rintro l l' - hRely - ⟨hHolds, hCredits⟩
      exact ⟨(hRely.2 hHolds).1, hCredits.trans (hRely.1 walletId)⟩
    · rintro l l' hRows hLock ⟨hHolds, hCredits⟩
      refine ⟨hLock.trans hHolds, ?_⟩
      rwa [Ledger.sumTo, hRows]
  refine Discipline.safe_ask hChecked hHolds steady_holds.stable
    (fun credits => (hRead credits).stable) (fun _ _ _ => trivial) ?_ ?_
  · intro now credits l l' hChecked hHolds _ hServe
    cases hServe
    exact ⟨guarantee_of_transactions hChecked rfl (.inl rfl), hHolds, le_rfl⟩
  · intro credits l hChecked hHere
    refine @Discipline.safe_ask _ _ _ _ _ _ _ _ _ _ _ _ _
      (fun debits => Covers me walletId (roundTo 6 (credits - debits))) _ hChecked hHere
      (hRead credits).stable (fun _ => steady_covers.stable) (fun _ _ _ => trivial) ?_ ?_
    · rintro now debits l l' hChecked ⟨hHolds, hCredits⟩ _ hServe
      cases hServe
      refine ⟨guarantee_of_transactions hChecked rfl (.inl rfl), hHolds, roundTo_mono ?_⟩
      rw [Ledger.balance_eq]
      exact sub_le_sub_right hCredits _
    · intro debits l _ hCovers
      exact hCovers

/-- What is known of the state before a row is inserted. -/
def Ready (me : ℕ) (tx : Transaction) (l : Ledger) : Prop :=
  ∀ walletId, tx.fromWallet = some walletId → Covers me walletId tx.amount l

theorem steady_ready {tx : Transaction} : Steady me (Ready me tx) :=
  ⟨fun l l' hChecked hRely hChecked' hReady walletId hFrom =>
      steady_covers.stable l l' hChecked hRely hChecked' (hReady walletId hFrom),
    fun l l' hRows hLock hReady walletId hFrom =>
      steady_covers.congr l l' hRows hLock (hReady walletId hFrom)⟩

theorem safe_insertTx {tx : Transaction} {K : Prop} (hChecked : l.Checked)
    (hReady : Ready me tx l) (hHeld : K → Holds me l) :
    discipline.Safe serveAt me (fun _ l => K → Holds me l) (insertTx tx) l := by
  have hSteady : Steady me fun l => K → Holds me l :=
    ⟨fun l l' hChecked hRely hChecked' h hHere =>
        steady_holds.stable l l' hChecked hRely hChecked' (h hHere),
      fun l l' hRows hLock h hHere => steady_holds.congr l l' hRows hLock (h hHere)⟩
  unfold insertTx
  by_cases hAmount : tx.amount ≤ 0
  · rw [if_pos hAmount]
    exact hHeld
  · rw [if_neg hAmount]
    refine Discipline.safe_ask (H := fun l => Ready me tx l ∧ (K → Holds me l))
      (K := fun _ l => K → Holds me l) hChecked ⟨hReady, hHeld⟩ ?_
      (fun _ => hSteady.stable) (fun _ _ h walletId hFrom => h.1 walletId hFrom) ?_ ?_
    · intro l l' hChecked hRely hChecked' h
      exact ⟨steady_ready.stable l l' hChecked hRely hChecked' h.1,
        hSteady.stable l l' hChecked hRely hChecked' h.2⟩
    · rintro now accepted l l' hChecked ⟨hReady, hHeld⟩ _ hServe
      obtain ⟨-, hLock, hRows⟩ := serveAt_insertTransaction hServe
      refine ⟨?_, fun hHere => hLock.trans (hHeld hHere)⟩
      split at hRows
      · exact guarantee_insert hChecked (not_le.mp hAmount)
          (fun walletId hFrom => hReady walletId hFrom) hLock hRows
      · rw [List.append_nil] at hRows
        exact guarantee_of_transactions hChecked hRows (.inl hLock)
    · intro accepted l hChecked hHeld
      cases accepted with
      | true => exact safe_quiet rfl hSteady hChecked hHeld fun _ _ _ h => h
      | false => exact hHeld

theorem safe_withWriteLock {body : Method α} (hChecked : l.Checked)
    (hBody : ∀ l, l.Checked → Holds me l →
      discipline.Safe serveAt me (fun _ l => Holds me l) body l) :
    discipline.Safe serveAt me (fun _ _ => True) (withWriteLock body) l := by
  refine Discipline.safe_ask (K := fun _ => Holds me) hChecked trivial steady_true.stable
    (fun _ => steady_holds.stable) (fun _ _ _ => trivial) ?_ ?_
  · intro now answer l l' hChecked _ _ hServe
    obtain ⟨hFree, hHolds, hRows⟩ := serveAt_acquireWriteLock hServe
    exact ⟨guarantee_of_transactions hChecked hRows (.inr (.inl hFree)), hHolds⟩
  · intro _ l hChecked hHolds
    refine Discipline.safe_andFinally ((hBody l hChecked hHolds).imp hChecked ?_)
    intro r l hChecked hHolds
    exact ⟨guarantee_of_transactions hChecked rfl (.inr (.inr hHolds)), rfl, trivial⟩

theorem safe_insertTx_of_minted {tx : Transaction} (hChecked : l.Checked)
    (hMinted : tx.fromWallet = none) :
    discipline.Safe serveAt me (fun _ _ => True) (insertTx tx) l := by
  have hReady : Ready me tx l := by
    intro walletId hFrom
    rw [hMinted] at hFrom
    cases hFrom
  exact (safe_insertTx hChecked hReady False.elim).imp hChecked fun _ _ _ _ => trivial

theorem safe_credit (sha256Hex : String → String) (walletId : String) (amount : ℚ)
    (txType : TransactionType) (description : String) (signature : Option String)
    (idempotencyKey txId : String) (hChecked : l.Checked) :
    discipline.Safe serveAt me (fun _ _ => True)
      (credit sha256Hex walletId amount txType description signature idempotencyKey txId) l := by
  unfold credit
  by_cases hWallet : walletId = ""
  · rw [if_pos hWallet]
    trivial
  rw [if_neg hWallet]
  refine (safe_ensureWallet walletId steady_true hChecked trivial).bind hChecked ?_
    fun _ _ _ _ => trivial
  intro _ l hChecked _
  by_cases hKey : idempotencyKey ≠ ""
  · rw [if_pos hKey]
    refine safe_quiet rfl steady_true hChecked trivial fun known l hChecked _ => ?_
    cases known with
    | true => trivial
    | false =>
        show discipline.Safe serveAt me _ (Coroutine.bind (Coroutine.tryCatch _ _) _) l
        refine Safe.bind (Q := fun _ _ => True) ?_ hChecked (fun _ _ _ _ => trivial)
          fun _ _ _ _ => trivial
        refine (safe_insertTx_of_minted hChecked rfl).tryCatch hChecked
          (fun _ _ _ _ => trivial) fun e l hChecked _ => ?_
        by_cases hValue : e.isValueError = true
        · rw [if_pos hValue]
          trivial
        · rw [if_neg hValue]
          refine safe_quiet rfl steady_true hChecked trivial fun known l hChecked _ => ?_
          cases known <;> trivial
  · rw [if_neg hKey]
    exact (safe_insertTx_of_minted hChecked rfl).bind hChecked (fun _ _ _ _ => trivial)
      fun _ _ _ _ => trivial

theorem safe_debitLocked (walletId : String) (amount : ℚ) (txType : TransactionType)
    (description txId : String) (hChecked : l.Checked) (hHolds : Holds me l) :
    discipline.Safe serveAt me (fun _ l => Holds me l)
      (debitLocked walletId amount txType description txId) l := by
  refine (safe_getBalance walletId hChecked hHolds).bind hChecked ?_ fun _ _ _ h => h.elim
  intro balance l hChecked hCovers
  by_cases hShort : balance < amount
  · rw [if_pos hShort]
    exact hCovers.1
  rw [if_neg hShort]
  have hAmount : Covers me walletId amount l :=
    ⟨hCovers.1, (not_lt.mp hShort).trans hCovers.2⟩
  refine (safe_ensureWallet "system" steady_covers hChecked hAmount).bind hChecked ?_
    fun _ _ _ h => h.1
  intro _ l hChecked hAmount
  refine (safe_insertTx (K := True) hChecked ?_ fun _ => hAmount.1).bind hChecked
    (fun _ _ _ h => h trivial) fun _ _ _ h => h trivial
  intro payer hPayer
  cases hPayer
  exact hAmount

theorem safe_transfer (fromWallet toWallet : String) (amount : ℚ) (txType : TransactionType)
    (description : String) (signature : Option String) (txId : String) (hChecked : l.Checked) :
    discipline.Safe serveAt me (fun _ _ => True)
      (transfer fromWallet toWallet amount txType description signature txId) l := by
  refine (safe_ensureWallet toWallet steady_true hChecked trivial).bind hChecked ?_
    fun _ _ _ _ => trivial
  intro _ l hChecked _
  refine safe_withWriteLock hChecked fun l hChecked hHolds => ?_
  refine (safe_getBalance fromWallet hChecked hHolds).bind hChecked ?_ fun _ _ _ h => h.elim
  intro balance l hChecked hCovers
  by_cases hShort : balance < amount
  · rw [if_pos hShort]
    exact hCovers.1
  rw [if_neg hShort]
  refine (safe_insertTx (K := True) hChecked ?_ fun _ => hCovers.1).bind hChecked
    (fun _ _ _ h => h trivial) fun _ _ _ h => h trivial
  intro payer hPayer
  cases hPayer
  exact ⟨hCovers.1, (not_lt.mp hShort).trans hCovers.2⟩

theorem safe_issueWelcomeGrant (sha256Hex : String → String) (walletId : String) (amount : ℚ)
    (description txId : String) (hChecked : l.Checked) :
    discipline.Safe serveAt me (fun _ _ => True)
      (issueWelcomeGrant sha256Hex walletId amount description txId) l := by
  refine safe_quiet rfl steady_true hChecked trivial fun granted l hChecked _ => ?_
  cases granted with
  | true => trivial
  | false => exact safe_credit _ _ _ _ _ _ _ _ hChecked

theorem safe_getAgentAllowance (agentId : String) (hSteady : Steady me H) (hChecked : l.Checked)
    (hHere : H l) :
    discipline.Safe serveAt me (fun _ => H) (getAgentAllowance agentId) l := by
  refine safe_quiet rfl hSteady hChecked hHere fun row l hChecked hHere => ?_
  cases row with
  | none => exact hHere
  | some row =>
      show discipline.Safe serveAt me _
        (if row.epochHours * 3600 ≤ l.now - row.epochStart then _ else _) l
      by_cases hEpoch : row.epochHours * 3600 ≤ l.now - row.epochStart
      · rw [if_pos hEpoch]
        refine safe_quiet rfl hSteady hChecked hHere fun _ l hChecked hHere => ?_
        exact safe_quiet rfl hSteady hChecked hHere fun _ l _ hHere => hHere
      · rw [if_neg hEpoch]
        exact hHere

theorem safe_agentDebit (agentId : String) (amount : ℚ) (txType : TransactionType)
    (description txId : String) (hChecked : l.Checked) :
    discipline.Safe serveAt me (fun _ _ => True)
      (agentDebit agentId amount txType description txId) l := by
  refine safe_withWriteLock hChecked fun l hChecked hHolds => ?_
  refine (safe_getAgentAllowance agentId steady_holds hChecked hHolds).bind hChecked ?_
    fun _ _ _ h => h
  intro allowance l hChecked hHolds
  cases allowance with
  | none => exact hHolds
  | some allowance =>
      dsimp only
      by_cases hRevoked : allowance.revoked = true
      · rw [if_pos hRevoked]
        exact hHolds
      rw [if_neg hRevoked]
      by_cases hExceeds : allowance.remaining < amount
      · rw [if_pos hExceeds]
        exact hHolds
      rw [if_neg hExceeds]
      refine Safe.bind (Q := fun _ l => Holds me l) ?_ hChecked ?_ fun _ _ _ h => h
      · refine Safe.tryCatch (Q := fun _ l => Holds me l) ?_ hChecked (fun _ _ _ h => h) ?_
        · exact (safe_debitLocked _ _ _ _ _ hChecked hHolds).bind hChecked (fun _ _ _ h => h)
            fun _ _ _ h => h
        · intro e l _ hHolds
          by_cases hValue : e.isValueError = true
          · rw [if_pos hValue]
            exact hHolds
          · rw [if_neg hValue]
            exact hHolds
      · intro paid l hChecked hHolds
        cases paid with
        | none => exact hHolds
        | some tx =>
            refine safe_quiet rfl steady_holds hChecked hHolds fun _ l hChecked hHolds => ?_
            exact safe_quiet rfl steady_holds hChecked hHolds fun _ l _ hHolds => hHolds

theorem safe_discard {body : Method α}
    (h : discipline.Safe serveAt me (fun _ _ => True) body l) (hChecked : l.Checked) :
    discipline.Safe serveAt me (fun _ _ => True) (discard body) l :=
  h.bind hChecked (fun _ _ _ _ => trivial) fun _ _ _ _ => trivial

theorem safe_body (sha256Hex : String → String) (call : Call) (hChecked : l.Checked) :
    discipline.Safe serveAt me (fun _ _ => True) (body sha256Hex call) l := by
  cases call with
  | createWallet walletId displayName =>
      refine safe_quiet rfl steady_true hChecked trivial fun _ l hChecked _ => ?_
      exact safe_quiet rfl steady_true hChecked trivial fun _ _ _ _ => trivial
  | getBalance walletId =>
      refine safe_quiet rfl steady_true hChecked trivial fun _ l hChecked _ => ?_
      exact safe_quiet rfl steady_true hChecked trivial fun _ _ _ _ => trivial
  | credit walletId amount txType description signature idempotencyKey txId =>
      exact safe_discard (safe_credit _ _ _ _ _ _ _ _ hChecked) hChecked
  | debit walletId amount txType description txId =>
      refine safe_discard (safe_withWriteLock hChecked fun l hChecked hHolds => ?_) hChecked
      exact safe_debitLocked _ _ _ _ _ hChecked hHolds
  | transfer fromWallet toWallet amount txType description signature txId =>
      exact safe_discard (safe_transfer _ _ _ _ _ _ _ hChecked) hChecked
  | issueWelcomeGrant walletId amount description txId =>
      exact safe_discard (safe_issueWelcomeGrant _ _ _ _ _ hChecked) hChecked
  | grantAgentAllowance principalId agentId amount epochHours =>
      refine safe_quiet rfl steady_true hChecked trivial fun accepted l hChecked _ => ?_
      cases accepted with
      | true => exact safe_quiet rfl steady_true hChecked trivial fun _ _ _ _ => trivial
      | false => trivial
  | getAgentAllowance agentId =>
      exact safe_discard ((safe_getAgentAllowance agentId steady_true hChecked trivial).imp hChecked
        fun _ _ _ _ => trivial) hChecked
  | revokeAgentAllowance principalId agentId =>
      refine safe_quiet rfl steady_true hChecked trivial fun _ l hChecked _ => ?_
      exact safe_quiet rfl steady_true hChecked trivial fun _ _ _ _ => trivial
  | agentDebit agentId amount txType description txId =>
      exact safe_discard (safe_agentDebit _ _ _ _ _ hChecked) hChecked

end Methods

section Runs

variable {sha256Hex : String → String} {s s' : State}

/-- All calls so far are safe. -/
abbrev Disciplined (sha256Hex : String → String) (s : State) : Prop :=
  (node sha256Hex).Good discipline (fun _ _ _ _ => True) s

theorem disciplined_step {turn : Turn Call ℚ} (h : Disciplined sha256Hex s)
    (hTurn : (node sha256Hex).machine.step s turn = some s') : Disciplined sha256Hex s' :=
  h.advance (fun _ _ _ _ _ _ _ _ _ => trivial) hTurn
    (fun call _ _ _ hChecked _ => safe_body sha256Hex call hChecked) (fun _ _ _ _ _ => trivial)
    fun _ _ hRestart => by cases hRestart

theorem disciplined_opened {l : Ledger} (hChecked : l.Checked) :
    Disciplined sha256Hex (opened l) :=
  ⟨hChecked, fun _ _ _ hTask => by simp [opened] at hTask, fun _ _ => trivial⟩

theorem debit_covered (h : Disciplined sha256Hex s) {task : ℕ} {call : Call}
    {p : Coroutine Ledger Request Answer Error Unit} {tx : Transaction}
    (hTask : s.tasks[task]? = some (call, p)) (hPending : p.pending = some (.insertTransaction tx))
    {walletId : String} (hFrom : tx.fromWallet = some walletId) :
    tx.amount ≤ roundTo 6 (s.state.balance walletId) :=
  (h.before hTask hPending walletId hFrom).2

/-- The turn books a row that only the rounding covers. -/
def BooksRounding (s : State) (turn : Turn Call ℚ) : Prop :=
  ∃ tx, Program.answered s turn = some (.insertTransaction tx) ∧ s.state.RoundsUp tx

theorem sound_step_iff {turn : Turn Call ℚ} (h : Disciplined sha256Hex s) (hSound : s.state.Sound)
    (hTurn : (node sha256Hex).machine.step s turn = some s') :
    s'.state.Sound ↔ ¬ BooksRounding s turn := by
  cases turn with
  | call c =>
      cases hTurn
      refine iff_of_true hSound ?_
      rintro ⟨tx, hAnswered, -⟩
      cases hAnswered
  | resume task =>
      rw [Ledger.sound_congr (h.writes hTurn)]
      refine iff_of_true hSound ?_
      rintro ⟨tx, hAnswered, -⟩
      cases hAnswered
  | crash => cases hTurn
  | serve task now =>
      obtain ⟨c, p, p', hTask, hMoved, -⟩ := Program.of_turnOf hTurn
      obtain ⟨r, resume, answer, rfl, hServed, -⟩ := Coroutine.of_served hMoved
      have hServe : serveAt task now s.state r = some (answer, s'.state) := hServed
      have hAnswered : Program.answered s (.serve task now : Turn Call ℚ) = some r := by
        simp [Program.answered, hTask, Coroutine.pending]
      have hUnchanged : s'.state.transactions = s.state.transactions →
          (∀ tx, r = .insertTransaction tx → ¬ s.state.accepts tx) →
          (s'.state.Sound ↔ ¬ BooksRounding s (.serve task now)) := by
        intro hRows hNot
        rw [Ledger.sound_congr hRows]
        refine iff_of_true hSound ?_
        rintro ⟨tx, hBooked, hAccepts, -⟩
        exact hNot tx (Option.some.inj (hAnswered.symm.trans hBooked)) hAccepts
      by_cases hQuiet : r.isQuiet = true
      · refine hUnchanged (serveAt_quiet hQuiet hServe).1 ?_
        rintro tx rfl
        cases hQuiet
      cases r with
      | acquireWriteLock =>
          refine hUnchanged (serveAt_acquireWriteLock hServe).2.2 ?_
          intro tx hEq
          cases hEq
      | insertTransaction tx =>
          obtain ⟨-, -, hRows⟩ := serveAt_insertTransaction hServe
          by_cases hAccepts : s.state.accepts tx = true
          · rw [if_pos hAccepts] at hRows
            have hPos : 0 < tx.amount := by
              simp only [Ledger.accepts, Bool.and_eq_true, decide_eq_true_eq] at hAccepts
              exact hAccepts.2
            rw [Ledger.sound_insert_iff hSound hPos hRows]
            constructor
            · rintro hCovered ⟨row, hBooked, -, walletId, hFrom, hNotSystem, hTo, hShort, -⟩
              cases hAnswered.symm.trans hBooked
              exact not_le.mpr hShort (hCovered walletId hFrom hNotSystem hTo)
            · intro hNot walletId hFrom hNotSystem hTo
              by_contra hShort
              exact hNot ⟨tx, hAnswered, hAccepts, walletId, hFrom, hNotSystem, hTo,
                not_le.mp hShort, debit_covered h hTask rfl hFrom⟩
          · rw [if_neg hAccepts, List.append_nil] at hRows
            refine hUnchanged hRows ?_
            rintro row hEq
            cases hEq
            exact hAccepts
      | _ => exact absurd rfl hQuiet

/-- **No overdraft.**  In every interleaving, no wallet but the system's is ever
overdrawn and the balances always add up to what was minted, exactly when no row
is booked that only the rounding to six decimals covers. -/
theorem no_overdraft_iff (sha256Hex : String → String) {l : Ledger} (hChecked : l.Checked)
    (hSound : l.Sound) (turns : List (Turn Call ℚ)) :
    (node sha256Hex).machine.EveryState (fun s => s.state.Sound) (opened l) turns ↔
      (node sha256Hex).machine.EveryStep (fun s turn => ¬ BooksRounding s turn) (opened l) turns :=
  (node sha256Hex).machine.everyState_iff_everyStep (Disciplined sha256Hex)
    (fun s => s.state.Sound) (fun s turn => ¬ BooksRounding s turn)
    (fun _ _ _ h hTurn => disciplined_step h hTurn)
    (fun _ _ _ h hSound hTurn => sound_step_iff h hSound hTurn)
    (disciplined_opened hChecked) hSound turns

/-- An empty database. -/
def fresh : Ledger := ⟨∅, [], ∅, none, 0⟩

/-- A task on its own, for a number of turns. -/
def alone (task turns : ℕ) : List (Turn Call ℚ) :=
  (List.replicate turns [.resume task, .serve task 0]).flatten

def roundedSpend : List (Turn Call ℚ) :=
  .call (.credit "alice" (7 / 10 ^ 7) .reward "" none "" "tx-1") :: alone 0 8 ++
    .call (.debit "alice" (1 / 10 ^ 6) .computePayment "" "tx-2") :: alone 1 9

theorem no_overdraft_iff_fresh :
    (node id).machine.EveryState (fun s => s.state.Sound) (opened fresh) roundedSpend ↔
      (node id).machine.EveryStep (fun s turn => ¬ BooksRounding s turn) (opened fresh)
        roundedSpend :=
  no_overdraft_iff id (fun _ hMem => by simp [fresh] at hMem)
    ⟨fun _ _ => by simp [Ledger.balance, Ledger.log, fresh], Ledger.sum_balance⟩ roundedSpend

/-- The debit is accepted and overdraws the wallet. -/
theorem roundedSpend_overdraws :
    ¬ (node id).machine.EveryState (fun s => s.state.Sound) (opened fresh) roundedSpend := by
  intro h
  have hBalance := h.last.1 "alice" (by decide)
  exact absurd hBalance (by decide +kernel)

end Runs

end Prsm.LocalLedger
