import Prsm.Foundations.Coroutine
import Prsm.Foundations.Dict
import Prsm.Foundations.Doubles

/-!
# `LocalLedger`

The SQLite ledger of a single node.  Every method awaits one SQL statement at a
time, so other calls run between any two of them; `Request` lists the statements
and `serve` is the database's answer to each.  The write lock is taken by the
calls that decrease a balance, and by no other.

Amounts and balances are exact rationals.
-/

namespace Prsm.LocalLedger

open Foundations

inductive TransactionType
  | welcomeGrant
  | computePayment
  | computeEarning
  | storageReward
  | contentRoyalty
  | transfer
  | bridgeDeposit
  | bridgeWithdraw
  | reward
  deriving DecidableEq

structure Transaction where
  txId : String
  txType : TransactionType
  fromWallet : Option String
  toWallet : String
  amount : ℚ
  description : String
  timestamp : ℚ
  signature : Option String

/-- A row of `wallets`. -/
structure Wallet where
  displayName : String
  createdAt : ℚ

/-- A row of `agent_allowances`. -/
structure Allowance where
  principalId : String
  allowance : ℚ
  spent : ℚ
  epochHours : ℚ
  epochStart : ℚ
  createdAt : ℚ
  revoked : Bool

/-- The connection, the lock of `self._write_lock` with the task that holds it,
and the clock. -/
structure Ledger where
  wallets : Dict String Wallet
  transactions : List Transaction
  agentAllowances : Dict String Allowance
  writeLock : Option ℕ
  now : ℚ

inductive Error
  | emptyWalletId (txType : TransactionType) (amount : ℚ) (description : String)
  | insufficientBalance (balance amount : ℚ)
  | amountNotPositive (amount : ℚ)
  | alreadyGranted (walletId : String)
  | integrity

/-- The errors that are `ValueError`s. -/
def Error.isValueError : Error → Bool
  | .integrity => false
  | _ => true

/-! ## The database -/

/-- The SQL statements of the ledger, and the wait for its lock. -/
inductive Request
  | selectWallet (walletId : String)
  | insertWallet (walletId displayName : String) (createdAt : ℚ)
  | sumTo (walletId : String)
  | sumFrom (walletId : String)
  | selectTransaction (txId : String)
  | selectGrant (walletId : String) (txType : TransactionType)
  | insertTransaction (tx : Transaction)
  | selectAllowance (agentId : String)
  | upsertAllowance (agentId : String) (row : Allowance)
  | resetSpent (agentId : String) (epochStart : ℚ)
  | addSpent (agentId : String) (amount : ℚ)
  | revokeAllowance (agentId principalId : String)
  | commit
  | acquireWriteLock

@[reducible] def Answer : Request → Type
  | .selectWallet _ => Bool
  | .sumTo _ => ℚ
  | .sumFrom _ => ℚ
  | .selectTransaction _ => Bool
  | .selectGrant _ _ => Bool
  | .insertTransaction _ => Bool
  | .selectAllowance _ => Option Allowance
  | .upsertAllowance _ _ => Bool
  | .revokeAllowance _ _ => Bool
  | _ => Unit

/-- `SUM(amount)` over the rows that pass a test. -/
def sumAmounts (p : Transaction → Bool) (transactions : List Transaction) : ℚ :=
  ((transactions.filter p).map (·.amount)).sum

namespace Ledger

def sumTo (l : Ledger) (walletId : String) : ℚ :=
  sumAmounts (fun tx => tx.toWallet = walletId) l.transactions

def sumFrom (l : Ledger) (walletId : String) : ℚ :=
  sumAmounts (fun tx => tx.fromWallet = some walletId) l.transactions

/-- The constraints of the `transactions` table: the primary key, the foreign key
and the check of the amount. -/
def accepts (l : Ledger) (tx : Transaction) : Bool :=
  (l.transactions.all fun row => row.txId ≠ tx.txId) && (l.wallets.get? tx.toWallet).isSome &&
    decide (0 < tx.amount)

/-- The answer to a statement.  The last component of an `INSERT`'s answer is
false where a constraint of the table fails.  A lock that is held has to be
waited for. -/
def serve (me : ℕ) (l : Ledger) : (r : Request) → Option (Answer r × Ledger)
  | .selectWallet walletId => some ((l.wallets.get? walletId).isSome, l)
  | .insertWallet walletId displayName createdAt =>
      if (l.wallets.get? walletId).isSome then some ((), l)
      else some ((), { l with wallets := l.wallets.set walletId ⟨displayName, createdAt⟩ })
  | .sumTo walletId => some (l.sumTo walletId, l)
  | .sumFrom walletId => some (l.sumFrom walletId, l)
  | .selectTransaction txId => some (l.transactions.any fun row => row.txId = txId, l)
  | .selectGrant walletId txType =>
      some (l.transactions.any fun row => row.toWallet = walletId && row.txType = txType, l)
  | .insertTransaction tx =>
      if l.accepts tx then some (true, { l with transactions := l.transactions ++ [tx] })
      else some (false, l)
  | .selectAllowance agentId => some (l.agentAllowances.get? agentId, l)
  | .upsertAllowance agentId row =>
      if row.allowance < 0 then some (false, l)
      else
        match l.agentAllowances.get? agentId with
        | none => some (true, { l with agentAllowances := l.agentAllowances.set agentId row })
        | some old =>
            some (true, { l with
              agentAllowances := l.agentAllowances.set agentId
                { row with principalId := old.principalId, createdAt := old.createdAt } })
  | .resetSpent agentId epochStart =>
      match l.agentAllowances.get? agentId with
      | none => some ((), l)
      | some row =>
          some ((), { l with
            agentAllowances := l.agentAllowances.set agentId
              { row with spent := 0, epochStart := epochStart } })
  | .addSpent agentId amount =>
      match l.agentAllowances.get? agentId with
      | none => some ((), l)
      | some row =>
          some ((), { l with
            agentAllowances := l.agentAllowances.set agentId
              { row with spent := row.spent + amount } })
  | .revokeAllowance agentId principalId =>
      match l.agentAllowances.get? agentId with
      | none => some (false, l)
      | some row =>
          if row.principalId = principalId then
            some (true, { l with
              agentAllowances := l.agentAllowances.set agentId { row with revoked := true } })
          else some (false, l)
  | .commit => some ((), l)
  | .acquireWriteLock =>
      match l.writeLock with
      | none => some ((), { l with writeLock := some me })
      | some _ => none

end Ledger

/-- The answer to a request that is served at a time of the clock. -/
def serveAt (me : ℕ) (now : ℚ) (l : Ledger) (r : Request) : Option (Answer r × Ledger) :=
  { l with now := now }.serve me r

/-- A call of a method of the ledger. -/
abbrev Method := Coroutine Ledger Request Answer Error

/-- `await` one statement, or the lock. -/
abbrev perform (r : Request) : Method (Answer r) :=
  Coroutine.ask r

def time : Method ℚ :=
  Coroutine.gets (·.now)

/-- `async with self._write_lock`. -/
def withWriteLock {α : Type} (body : Method α) : Method α := do
  perform .acquireWriteLock
  body.andFinally fun l => { l with writeLock := none }

def walletExists (walletId : String) : Method Bool :=
  perform (.selectWallet walletId)

def createWallet (walletId : String) (displayName : String) : Method Unit := do
  perform (.insertWallet walletId displayName (← time))
  perform .commit

def ensureWallet (walletId : String) : Method Unit := do
  if !(← walletExists walletId) then
    createWallet walletId ("remote-" ++ (walletId.take 8).toString)

def hasTransaction (txId : String) : Method Bool :=
  perform (.selectTransaction txId)

def getBalance (walletId : String) : Method ℚ := do
  let credits ← perform (.sumTo walletId)
  let debits ← perform (.sumFrom walletId)
  return roundTo 6 (credits - debits)

def insertTx (tx : Transaction) : Method Unit := do
  if tx.amount ≤ 0 then
    throw (.amountNotPositive tx.amount)
  if !(← perform (.insertTransaction tx)) then
    throw .integrity
  perform .commit

/-- `"idem-" + sha256(key).hexdigest()[:48]`. -/
def idempotentTxId (sha256Hex : String → String) (idempotencyKey : String) : String :=
  "idem-" ++ ((sha256Hex idempotencyKey).take 48).toString

/-- `txId` is what `uuid.uuid4()` returns in this call. -/
def credit (sha256Hex : String → String) (walletId : String) (amount : ℚ)
    (txType : TransactionType) (description : String) (signature : Option String)
    (idempotencyKey : String) (txId : String) : Method Transaction := do
  if walletId = "" then
    throw (.emptyWalletId txType amount description)
  ensureWallet walletId
  if idempotencyKey ≠ "" then
    let tx : Transaction := ⟨idempotentTxId sha256Hex idempotencyKey, txType, none, walletId,
      amount, description, ← time, signature⟩
    if ← hasTransaction tx.txId then
      return tx
    try
      insertTx tx
    catch e =>
      if e.isValueError then
        throw e
      if !(← hasTransaction tx.txId) then
        throw e
    return tx
  let tx : Transaction :=
    ⟨txId, txType, none, walletId, amount, description, ← time, signature⟩
  insertTx tx
  return tx

/-- The caller holds the write lock. -/
def debitLocked (walletId : String) (amount : ℚ) (txType : TransactionType)
    (description : String) (txId : String) : Method Transaction := do
  let balance ← getBalance walletId
  if balance < amount then
    throw (.insufficientBalance balance amount)
  ensureWallet "system"
  let tx : Transaction :=
    ⟨txId, txType, some walletId, "system", amount, description, ← time, none⟩
  insertTx tx
  return tx

def debit (walletId : String) (amount : ℚ) (txType : TransactionType) (description : String)
    (txId : String) : Method Transaction :=
  withWriteLock (debitLocked walletId amount txType description txId)

def transfer (fromWallet toWallet : String) (amount : ℚ) (txType : TransactionType)
    (description : String) (signature : Option String) (txId : String) :
    Method Transaction := do
  ensureWallet toWallet
  withWriteLock do
    let balance ← getBalance fromWallet
    if balance < amount then
      throw (.insufficientBalance balance amount)
    let tx : Transaction :=
      ⟨txId, txType, some fromWallet, toWallet, amount, description, ← time, signature⟩
    insertTx tx
    return tx

def issueWelcomeGrant (sha256Hex : String → String) (walletId : String) (amount : ℚ)
    (description : String) (txId : String) : Method Transaction := do
  if ← perform (.selectGrant walletId .welcomeGrant) then
    throw (.alreadyGranted walletId)
  credit sha256Hex walletId amount .welcomeGrant description none
    ("welcome-grant:" ++ walletId) txId

/-! ### Agent allowances -/

/-- What `get_agent_allowance` returns. -/
structure AllowanceState where
  agentId : String
  principalId : String
  allowance : ℚ
  spent : ℚ
  remaining : ℚ
  epochHours : ℚ
  epochStart : ℚ
  revoked : Bool

def grantAgentAllowance (principalId agentId : String) (amount epochHours : ℚ) :
    Method Unit := do
  let now ← time
  if !(← perform (.upsertAllowance agentId
      ⟨principalId, amount, 0, epochHours, now, now, false⟩)) then
    throw .integrity
  perform .commit

def allowanceState (agentId : String) (row : Allowance) (spent epochStart : ℚ) :
    AllowanceState :=
  ⟨agentId, row.principalId, row.allowance, spent, max 0 (row.allowance - spent),
    row.epochHours, epochStart, row.revoked⟩

def getAgentAllowance (agentId : String) : Method (Option AllowanceState) := do
  match ← perform (.selectAllowance agentId) with
  | none => return none
  | some row =>
      let now ← time
      if row.epochHours * 3600 ≤ now - row.epochStart then
        perform (.resetSpent agentId now)
        perform .commit
        return some (allowanceState agentId row 0 now)
      return some (allowanceState agentId row row.spent row.epochStart)

def revokeAgentAllowance (principalId agentId : String) : Method Bool := do
  let found ← perform (.revokeAllowance agentId principalId)
  perform .commit
  return found

def agentDebit (agentId : String) (amount : ℚ) (txType : TransactionType)
    (description : String) (txId : String) : Method (Option Transaction) :=
  withWriteLock do
    match ← getAgentAllowance agentId with
    | none => return none
    | some allowance =>
        if allowance.revoked then
          return none
        if allowance.remaining < amount then
          return none
        let paid : Option Transaction ←
          try
            some <$> debitLocked allowance.principalId amount txType
              ("[agent:" ++ (agentId.take 12).toString ++ "] " ++ description) txId
          catch e =>
            if e.isValueError then pure none else throw e
        match paid with
        | none => return none
        | some tx =>
            perform (.addSpent agentId amount)
            perform .commit
            return some tx

/-- The calls of the ledger's methods, each with what it draws. -/
inductive Call
  | createWallet (walletId displayName : String)
  | getBalance (walletId : String)
  | credit (walletId : String) (amount : ℚ) (txType : TransactionType) (description : String)
      (signature : Option String) (idempotencyKey txId : String)
  | debit (walletId : String) (amount : ℚ) (txType : TransactionType) (description txId : String)
  | transfer (fromWallet toWallet : String) (amount : ℚ) (txType : TransactionType)
      (description : String) (signature : Option String) (txId : String)
  | issueWelcomeGrant (walletId : String) (amount : ℚ) (description txId : String)
  | grantAgentAllowance (principalId agentId : String) (amount epochHours : ℚ)
  | getAgentAllowance (agentId : String)
  | revokeAgentAllowance (principalId agentId : String)
  | agentDebit (agentId : String) (amount : ℚ) (txType : TransactionType)
      (description txId : String)

def body (sha256Hex : String → String) : Call → Method Unit
  | .createWallet walletId displayName => createWallet walletId displayName
  | .getBalance walletId => discard (getBalance walletId)
  | .credit walletId amount txType description signature idempotencyKey txId =>
      discard (credit sha256Hex walletId amount txType description signature idempotencyKey txId)
  | .debit walletId amount txType description txId =>
      discard (debit walletId amount txType description txId)
  | .transfer fromWallet toWallet amount txType description signature txId =>
      discard (transfer fromWallet toWallet amount txType description signature txId)
  | .issueWelcomeGrant walletId amount description txId =>
      discard (issueWelcomeGrant sha256Hex walletId amount description txId)
  | .grantAgentAllowance principalId agentId amount epochHours =>
      grantAgentAllowance principalId agentId amount epochHours
  | .getAgentAllowance agentId => discard (getAgentAllowance agentId)
  | .revokeAgentAllowance principalId agentId =>
      discard (revokeAgentAllowance principalId agentId)
  | .agentDebit agentId amount txType description txId =>
      discard (agentDebit agentId amount txType description txId)

/-- The node: any calls, interleaved at their awaits. -/
def node (sha256Hex : String → String) : Program Ledger Request Answer Error Unit Call ℚ where
  body := fun _ => body sha256Hex
  serve := serveAt
  restart := fun _ => none

abbrev State := Pool Ledger Request Answer Error Unit Call

/-- A ledger that has been opened and on which nothing has been called yet. -/
def opened (l : Ledger) : State := ⟨l, []⟩

end Prsm.LocalLedger
