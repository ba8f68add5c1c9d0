import Prsm.Foundations.Coroutine
import Prsm.Foundations.Dict

/-!
# `AtomicFTNSService`

Token operations over a database that has no row locks: a `SELECT` reads what is
committed, and the first write of a session takes the write lock, which it holds
until it commits or rolls back.  Each statement is awaited, so other calls run
between any two of them.  An operation reads a row, and its `UPDATE` names the
version it has read.

Amounts and balances are exact rationals; the clock of the database counts seconds.
-/

namespace Prsm.AtomicFtns

open Foundations
open Coroutine (ask)

/-! ## The tables -/

/-- A row of `ftns_balances`. -/
structure Account where
  balance : ℚ
  lockedBalance : ℚ
  totalEarned : ℚ
  totalSpent : ℚ
  version : ℕ

inductive TransactionType
  | deduction
  | transfer
  | mint
  deriving DecidableEq

inductive Status
  | pending
  | completed
  | failed
  deriving DecidableEq

/-- What an operation records of itself. -/
structure Transaction where
  transactionId : String
  fromUser : Option String
  toUser : String
  amount : ℚ
  transactionType : TransactionType
  description : String
  status : Status
  idempotencyKey : Option String
  balanceBeforeSender : Option ℚ
  balanceAfterSender : Option ℚ
  balanceBeforeReceiver : Option ℚ
  balanceAfterReceiver : Option ℚ
  deriving DecidableEq

/-- A row of `ftns_transactions`. -/
structure TransactionRow extends Transaction where
  createdAt : ℕ

/-- A row of `ftns_idempotency_keys`. -/
structure KeyRow where
  transactionId : String
  userId : String
  operationType : TransactionType
  amount : ℚ
  createdAt : ℕ
  expiresAt : ℕ

structure Tables where
  ftnsBalances : Dict String Account
  ftnsTransactions : List TransactionRow
  ftnsIdempotencyKeys : Dict String KeyRow

/-- A commit: the session, and the tables before and after it. -/
structure Commit where
  session : ℕ
  before : Tables
  after : Tables

/-- What is committed, the session that holds the write lock with the tables as it
sees them, the clock, and the commits so far. -/
structure Database where
  committed : Tables
  writer : Option (ℕ × Tables)
  now : ℕ
  commits : List Commit

inductive DatabaseError
  | operational
  | integrity

/-- The SQL statements of the service. -/
inductive Statement
  | insertAccount (userId : String) (initialBalance : ℚ)
  | selectKey (key : String)
  | selectBalance (userId : String)
  | selectBalances (user1 user2 : String)
  | updateDeducted (userId : String) (newBalance amount : ℚ) (newVersion currentVersion : ℕ)
  | updateSender (userId : String) (amount : ℚ) (version : ℕ)
  | updateReceiver (userId : String) (amount : ℚ) (version : ℕ)
  | updateMinted (userId : String) (amount : ℚ) (version : ℕ)
  | insertTransaction (row : Transaction)
  | insertKey (key transactionId userId : String) (operationType : TransactionType) (amount : ℚ)
  | commit
  | rollback
  deriving DecidableEq

/-- What a statement yields: the rows of a `SELECT`, the `rowcount` of an `UPDATE`. -/
@[reducible] def Rows : Statement → Type
  | .selectKey _ => Option String
  | .selectBalance _ => Option Account
  | .selectBalances _ _ => Dict String Account
  | .updateDeducted _ _ _ _ _ => ℕ
  | .updateSender _ _ _ => ℕ
  | .updateReceiver _ _ _ => ℕ
  | .updateMinted _ _ _ => ℕ
  | _ => Unit

@[reducible] def Answer (r : Statement) : Type := Except DatabaseError (Rows r)

namespace Account

/-- `SET balance = balance + :amount, total_earned = total_earned + :amount`. -/
def credited (a : Account) (amount : ℚ) : Account :=
  { a with
    balance := a.balance + amount
    totalEarned := a.totalEarned + amount
    version := a.version + 1 }

/-- `SET balance = balance - :amount, total_spent = total_spent + :amount`. -/
def debited (a : Account) (amount : ℚ) : Account :=
  { a with
    balance := a.balance - amount
    totalSpent := a.totalSpent + amount
    version := a.version + 1 }

/-- `SET balance = :new_balance, total_spent = total_spent + :amount`. -/
def deducted (a : Account) (newBalance amount : ℚ) (newVersion : ℕ) : Account :=
  { a with
    balance := newBalance
    totalSpent := a.totalSpent + amount
    version := newVersion }

end Account

namespace Tables

/-- `UPDATE ftns_balances … WHERE user_id = :user_id AND version = :version`. -/
def update (t : Tables) (userId : String) (version : ℕ) (f : Account → Account) : ℕ × Tables :=
  match t.ftnsBalances.get? userId with
  | none => (0, t)
  | some a =>
      if a.version = version then
        (1, { t with ftnsBalances := t.ftnsBalances.set userId (f a) })
      else (0, t)

/-- The primary key and the unique column of `ftns_transactions`. -/
def accepts (t : Tables) (row : Transaction) : Bool :=
  t.ftnsTransactions.all fun old =>
    old.transactionId ≠ row.transactionId &&
      (row.idempotencyKey = none || old.idempotencyKey ≠ row.idempotencyKey)

/-- `INSERT … ON CONFLICT (user_id) DO NOTHING`. -/
def insertAccount (t : Tables) (userId : String) (initialBalance : ℚ) : Tables :=
  if (t.ftnsBalances.get? userId).isSome then t
  else
    { t with
      ftnsBalances :=
        t.ftnsBalances.set userId ⟨initialBalance, 0, initialBalance, 0, 1⟩ }

/-- `INSERT … ON CONFLICT (idempotency_key) DO NOTHING`. -/
def insertKey (t : Tables) (key : String) (row : KeyRow) : Tables :=
  if (t.ftnsIdempotencyKeys.get? key).isSome then t
  else { t with ftnsIdempotencyKeys := t.ftnsIdempotencyKeys.set key row }

/-- `SELECT transaction_id … WHERE idempotency_key = :key AND expires_at > CURRENT_TIMESTAMP`. -/
def selectKey (t : Tables) (now : ℕ) (key : String) : Option String :=
  match t.ftnsIdempotencyKeys.get? key with
  | none => none
  | some row => if now < row.expiresAt then some row.transactionId else none

end Tables

/-- `'+24 hours'`. -/
def idempotencyTtl : ℕ := 24 * 3600

namespace Database

/-- The tables as a session sees them. -/
def visible (db : Database) (me : ℕ) : Tables :=
  match db.writer with
  | some (session, t) => if session = me then t else db.committed
  | none => db.committed

/-- The session can write: no other session holds the write lock. -/
def CanWrite (db : Database) (me : ℕ) : Prop :=
  ∀ held ∈ db.writer, held.1 = me

instance (db : Database) (me : ℕ) : Decidable (db.CanWrite me) :=
  inferInstanceAs (Decidable (∀ held ∈ db.writer, held.1 = me))

/-- A write statement, which waits for the write lock. -/
def write {α : Type} (db : Database) (me : ℕ) (f : Tables → Except DatabaseError (α × Tables)) :
    Option (Except DatabaseError α × Database) :=
  if db.CanWrite me then
    match f (db.visible me) with
    | .error e => some (.error e, db)
    | .ok (a, t) => some (.ok a, { db with writer := some (me, t) })
  else none

def commit (db : Database) (me : ℕ) : Database :=
  match db.writer with
  | none => db
  | some (session, t) =>
      if session = me then
        { db with
          committed := t
          writer := none
          commits := db.commits ++ [⟨me, db.committed, t⟩] }
      else db

def rollback (db : Database) (me : ℕ) : Database :=
  match db.writer with
  | none => db
  | some (session, _) => if session = me then { db with writer := none } else db

/-- The database executes a statement. -/
def execute (db : Database) (me : ℕ) : (r : Statement) → Option (Answer r × Database)
  | .insertAccount userId initialBalance =>
      db.write me fun t => .ok ((), t.insertAccount userId initialBalance)
  | .selectKey key => some (.ok ((db.visible me).selectKey db.now key), db)
  | .selectBalance userId => some (.ok ((db.visible me).ftnsBalances.get? userId), db)
  | .selectBalances user1 user2 =>
      some (.ok ((db.visible me).ftnsBalances.filterKeys fun u => u = user1 || u = user2), db)
  | .updateDeducted userId newBalance amount newVersion currentVersion =>
      db.write me fun t =>
        .ok (t.update userId currentVersion fun a => a.deducted newBalance amount newVersion)
  | .updateSender userId amount version =>
      db.write me fun t => .ok (t.update userId version fun a => a.debited amount)
  | .updateReceiver userId amount version =>
      db.write me fun t => .ok (t.update userId version fun a => a.credited amount)
  | .updateMinted userId amount version =>
      db.write me fun t => .ok (t.update userId version fun a => a.credited amount)
  | .insertTransaction row =>
      db.write me fun t =>
        if t.accepts row then
          .ok ((), { t with ftnsTransactions := t.ftnsTransactions ++ [⟨row, db.now⟩] })
        else .error .integrity
  | .insertKey key transactionId userId operationType amount =>
      db.write me fun t =>
        .ok ((), t.insertKey key
          ⟨transactionId, userId, operationType, amount, db.now, db.now + idempotencyTtl⟩)
  | .commit => some (.ok (), db.commit me)
  | .rollback => some (.ok (), db.rollback me)

end Database

/-- What happens when a statement is executed: the time that has passed, and whether
the driver reports an error instead. -/
structure Choice where
  elapsed : ℕ
  fails : Bool

/-- A `ROLLBACK` does not fail. -/
def Choice.Fails (choice : Choice) (r : Statement) : Prop :=
  choice.fails = true ∧ r ≠ .rollback

instance (choice : Choice) (r : Statement) : Decidable (choice.Fails r) :=
  inferInstanceAs (Decidable (_ ∧ _))

def serve (me : ℕ) (choice : Choice) (db : Database) (r : Statement) :
    Option (Answer r × Database) :=
  let db := { db with now := db.now + choice.elapsed }
  if choice.Fails r then some (.error .operational, db) else db.execute me r

/-! ## The service -/

inductive Error
  | database (e : DatabaseError)
  | balanceModified
  | senderModified
  | receiverModified

/-- The errors that are `ConcurrentModificationError`s. -/
def Error.isConcurrentModification : Error → Bool
  | .database _ => false
  | _ => true

/-- The texts of `error_message`. -/
inductive Message
  | amountNotPositive
  | sameAccount
  | accountLocked
  | accountNotFound (userId : String)
  | senderNotFound (userId : String)
  | recipientNotFound (userId : String)
  | insufficientBalance (available amount : ℚ)
  | error (e : Error)

structure TransactionResult where
  success : Bool
  transactionId : Option String
  newBalance : Option ℚ
  errorMessage : Option Message
  idempotentReplay : Bool

namespace TransactionResult

def failure (message : Message) : TransactionResult :=
  ⟨false, none, none, some message, false⟩

def replay (transactionId : String) : TransactionResult :=
  ⟨true, some transactionId, none, none, true⟩

def completed (transactionId : String) (newBalance : ℚ) : TransactionResult :=
  ⟨true, some transactionId, some newBalance, none, false⟩

end TransactionResult

/-- A call of a method of the service. -/
abbrev Method := Coroutine Database Statement Answer Error

/-- `await session.execute(…)`. -/
def execute (r : Statement) : Method (Rows r) :=
  (ask r).bind fun
    | .ok rows => .returned rows
    | .error e => .raised (.database e)

/-- `async with await self._get_session() as session`: what the body leaves is
committed, and an error rolls back. -/
def withSession {α : Type} (body : Method α) : Method α :=
  (body.bind fun a => (execute .commit).bind fun _ => .returned a).tryCatch fun e =>
    (execute .rollback).bind fun _ => .raised e

def systemMint : String := "system_mint"

def systemFees : String := "system_fees"

def ensureAccountExists (userId : String) (initialBalance : ℚ) : Method Bool :=
  withSession do
    try
      execute (.insertAccount userId initialBalance)
      execute .commit
      pure true
    catch _ =>
      execute .rollback
      pure false

def checkIdempotency (idempotencyKey : String) : Method (Option String) :=
  execute (.selectKey idempotencyKey)

def recordIdempotency (idempotencyKey transactionId userId : String)
    (operationType : TransactionType) (amount : ℚ) : Method Unit :=
  execute (.insertKey idempotencyKey transactionId userId operationType amount)

/-! ### Deductions -/

/-- From the `UPDATE` to the commit. -/
def applyDeduction (userId : String) (amount : ℚ) (idempotencyKey description : String)
    (transactionId : String) (row : Account) : Method TransactionResult := do
  let newBalance := row.balance - amount
  let rowcount ← execute
    (.updateDeducted userId newBalance amount (row.version + 1) row.version)
  if rowcount = 0 then
    execute .rollback
    throw .balanceModified
  execute (.insertTransaction
    { transactionId, fromUser := some userId, toUser := systemFees, amount
      transactionType := .deduction, description, status := .completed
      idempotencyKey := some idempotencyKey, balanceBeforeSender := some row.balance
      balanceAfterSender := some newBalance, balanceBeforeReceiver := none
      balanceAfterReceiver := none })
  recordIdempotency idempotencyKey transactionId userId .deduction amount
  execute .commit
  return .completed transactionId newBalance

/-- The `try` of `deduct_tokens_atomic`. -/
def deduct (userId : String) (amount : ℚ) (idempotencyKey description : String)
    (transactionId : String) : Method TransactionResult := do
  match ← checkIdempotency idempotencyKey with
  | some existing => return .replay existing
  | none =>
      match ← (execute (.selectBalance userId)).attempt with
      | .error _ => return .failure .accountLocked
      | .ok none => return .failure (.accountNotFound userId)
      | .ok (some row) =>
          let available := row.balance - row.lockedBalance
          if available < amount then
            return .failure (.insufficientBalance available amount)
          applyDeduction userId amount idempotencyKey description transactionId row

/-- `transactionId` is the one drawn in this call. -/
def deductTokensAtomic (userId : String) (amount : ℚ) (idempotencyKey description : String)
    (transactionId : String) : Method TransactionResult := do
  if amount ≤ 0 then
    return .failure .amountNotPositive
  withSession do
    try
      deduct userId amount idempotencyKey description transactionId
    catch e =>
      execute .rollback
      if e.isConcurrentModification then throw e else pure (.failure (.error e))

/-! ### Transfers -/

/-- `if existing_tx:` -/
def truthy (existing : Option String) : Option String :=
  existing.filter fun transactionId => transactionId ≠ ""

/-- From the first `UPDATE` to the commit. -/
def applyTransfer (fromUserId toUserId : String) (amount : ℚ)
    (idempotencyKey description transactionId : String) (sender receiver : Account) :
    Method TransactionResult := do
  let debited ← execute (.updateSender fromUserId amount sender.version)
  if debited = 0 then
    execute .rollback
    throw .senderModified
  let credited ← execute (.updateReceiver toUserId amount receiver.version)
  if credited = 0 then
    execute .rollback
    throw .receiverModified
  execute (.insertTransaction
    { transactionId, fromUser := some fromUserId, toUser := toUserId, amount
      transactionType := .transfer, description, status := .completed
      idempotencyKey := some idempotencyKey, balanceBeforeSender := some sender.balance
      balanceAfterSender := some (sender.balance - amount)
      balanceBeforeReceiver := some receiver.balance
      balanceAfterReceiver := some (receiver.balance + amount) })
  recordIdempotency idempotencyKey transactionId fromUserId .transfer amount
  execute .commit
  return .completed transactionId (sender.balance - amount)

/-- The `try` of `transfer_tokens_atomic`. -/
def transfer (fromUserId toUserId : String) (amount : ℚ)
    (idempotencyKey description transactionId : String) : Method TransactionResult := do
  match truthy (← checkIdempotency idempotencyKey) with
  | some existing => return .replay existing
  | none =>
      let users := if toUserId < fromUserId then (toUserId, fromUserId) else (fromUserId, toUserId)
      let rows ← execute (.selectBalances users.1 users.2)
      match rows.get? fromUserId, rows.get? toUserId with
      | none, _ => return .failure (.senderNotFound fromUserId)
      | some _, none => return .failure (.recipientNotFound toUserId)
      | some sender, some receiver =>
          let available := sender.balance - sender.lockedBalance
          if available < amount then
            return .failure (.insufficientBalance available amount)
          applyTransfer fromUserId toUserId amount idempotencyKey description transactionId
            sender receiver

def transferTokensAtomic (fromUserId toUserId : String) (amount : ℚ)
    (idempotencyKey description transactionId : String) : Method TransactionResult := do
  if amount ≤ 0 then
    return .failure .amountNotPositive
  if fromUserId = toUserId then
    return .failure .sameAccount
  let _ ← ensureAccountExists fromUserId 0
  let _ ← ensureAccountExists toUserId 0
  withSession do
    try
      transfer fromUserId toUserId amount idempotencyKey description transactionId
    catch e =>
      execute .rollback
      pure (.failure (.error e))

/-! ### Mints -/

/-- From the `UPDATE` to the commit.  The `rowcount` is not looked at. -/
def applyMint (toUserId : String) (amount : ℚ) (idempotencyKey description transactionId : String)
    (row : Account) : Method TransactionResult := do
  let newBalance := row.balance + amount
  let _ ← execute (.updateMinted toUserId amount row.version)
  execute (.insertTransaction
    { transactionId, fromUser := some systemMint, toUser := toUserId, amount
      transactionType := .mint, description, status := .completed
      idempotencyKey := some idempotencyKey, balanceBeforeSender := none
      balanceAfterSender := none, balanceBeforeReceiver := some row.balance
      balanceAfterReceiver := some newBalance })
  recordIdempotency idempotencyKey transactionId systemMint .mint amount
  execute .commit
  return .completed transactionId newBalance

/-- The `try` of `mint_tokens_atomic`. -/
def mint (toUserId : String) (amount : ℚ) (idempotencyKey description transactionId : String) :
    Method TransactionResult := do
  match truthy (← checkIdempotency idempotencyKey) with
  | some existing => return .replay existing
  | none =>
      match ← execute (.selectBalance toUserId) with
      | none => return .failure (.accountNotFound toUserId)
      | some row => applyMint toUserId amount idempotencyKey description transactionId row

def mintTokensAtomic (toUserId : String) (amount : ℚ)
    (idempotencyKey description transactionId : String) : Method TransactionResult := do
  let _ ← ensureAccountExists toUserId 0
  withSession do
    try
      mint toUserId amount idempotencyKey description transactionId
    catch e =>
      execute .rollback
      pure (.failure (.error e))

/-! ## The event loop -/

/-- The calls, each with the hex digits that its `uuid4` draws. -/
inductive Call
  | deduct (userId : String) (amount : ℚ) (idempotencyKey description uuidHex : String)
  | transfer (fromUserId toUserId : String) (amount : ℚ)
      (idempotencyKey description uuidHex : String)
  | mint (toUserId : String) (amount : ℚ) (idempotencyKey description uuidHex : String)

/-- `f"ftns_{uuid4().hex[:12]}"`. -/
def drawnId (uuidHex : String) : String :=
  "ftns_" ++ (uuidHex.take 12).toString

def body : Call → Method TransactionResult
  | .deduct userId amount idempotencyKey description uuidHex =>
      deductTokensAtomic userId amount idempotencyKey description (drawnId uuidHex)
  | .transfer fromUserId toUserId amount idempotencyKey description uuidHex =>
      transferTokensAtomic fromUserId toUserId amount idempotencyKey description
        (drawnId uuidHex)
  | .mint toUserId amount idempotencyKey description uuidHex =>
      mintTokensAtomic toUserId amount idempotencyKey description (drawnId uuidHex)

/-- Any calls, interleaved at their awaits. -/
def program : Program Database Statement Answer Error TransactionResult Call Choice where
  body := fun _ => body
  serve := serve
  restart := fun _ => none

abbrev ServicePool := Pool Database Statement Answer Error TransactionResult Call

/-- A database on which nothing has been called yet. -/
def opened (t : Tables) (now : ℕ) : ServicePool :=
  ⟨⟨t, none, now, []⟩, []⟩

end Prsm.AtomicFtns
