import Prsm.Foundations.Dict
import Prsm.Foundations.Sqlite

/-!
# The database of `DAGLedger`

Money is held twice: as the rows of `dag_transactions`, and as the running balances of
`wallet_balances`, which carry a version that the process mirrors in
`_balance_version_cache`.  `Statement` lists the SQL statements of the ledger's methods,
`Statement.execute` says what each does to the one connection that all methods share,
and `Ledger.serve` is the answer to a task that awaits a statement or the write lock.

Amounts, balances and times are exact rationals.
-/

namespace Prsm.DagLedger

open Foundations

inductive TransactionType
  | genesis
  | welcomeGrant
  | computePayment
  | computeEarning
  | storageReward
  | contentRoyalty
  | transfer
  | approval
  | system
  | bridgeDeposit
  | bridgeWithdraw
  | reward
  deriving DecidableEq

structure DAGTransaction where
  txId : String
  txType : TransactionType
  amount : ℚ
  fromWallet : Option String
  toWallet : String
  timestamp : ℚ
  signature : Option String
  publicKey : Option String
  description : String
  parentIds : List String
  cumulativeWeight : ℕ
  confirmationLevel : ℚ

/-- What `hash` covers. -/
structure SigningData where
  txId : String
  txType : TransactionType
  amount : ℚ
  fromWallet : Option String
  toWallet : String
  timestamp : ℚ
  parentIds : List String

def DAGTransaction.getSigningData (tx : DAGTransaction) : SigningData :=
  ⟨tx.txId, tx.txType, tx.amount, tx.fromWallet, tx.toWallet, tx.timestamp, tx.parentIds⟩

/-- What comes from outside the ledger: the digest of the signing data, the check of
an Ed25519 signature over a digest under a hex key (false where it raises), SHA-256 in
hex, `str.lower`, the weight of a tip of some cumulative weight, and the order in which
a set is iterated. -/
structure Library where
  digest : SigningData → String
  verifySignature : String → String → String → Bool
  sha256Hex : String → String
  lower : String → String
  tipWeight : ℕ → ℚ
  setOrder : List String → List String

def Library.hash (lib : Library) (tx : DAGTransaction) : String :=
  lib.digest tx.getSigningData

/-- The arguments of `submit_transaction`.  `txId` is what `uuid.uuid4()` returns in this
call. -/
structure Submission where
  txType : TransactionType
  amount : ℚ
  fromWallet : Option String
  toWallet : String
  description : String
  signature : Option String
  publicKey : Option String
  idempotentTxId : Option String
  txId : String

/-! ## The tables -/

/-- A row of `wallets`. -/
structure Wallet where
  displayName : String
  publicKey : Option String
  ethAddress : Option String
  requiresUserSignature : Bool
  nextWithdrawNonce : ℕ

/-- A row of `wallet_balances`. -/
structure BalanceRow where
  balance : ℚ
  version : ℕ

/-- A row of `agent_allowances`. -/
structure Allowance where
  principalId : String
  allowance : ℚ
  spent : ℚ
  epochHours : ℚ
  epochStart : ℚ
  createdAt : ℚ
  revoked : Bool

/-- A row of `gossip_log`. -/
structure GossipEntry where
  subtype : String
  origin : String
  payload : String
  ttl : ℤ
  receivedAt : ℚ
  attestation : Option String

/-- The values of the other columns of a row, as they are bound. -/
abbrev Columns := List (String × String)

inductive CollabTable
  | collabTasks
  | collabReviews
  | collabQueries
  deriving DecidableEq

/-- The tables of the node services. -/
structure Services where
  provenanceChains : Dict String Columns
  gossipLog : Dict String GossipEntry
  agentAllowances : Dict String Allowance
  collab : Dict (CollabTable × String) Columns

structure Tables where
  wallets : Dict String Wallet
  dagTransactions : Dict String DAGTransaction
  tips : List String
  walletBalances : Dict String BalanceRow
  seenNonces : Dict String String
  services : Services

/-- What the process keeps in memory. -/
structure Memory where
  tips : List String
  transactions : Dict String DAGTransaction
  balanceVersionCache : Dict String ℕ
  walletPublicKeys : Dict String String

/-- The connection, the memory, the task that holds `_write_lock`, the clock and what
`random.random()` returns next. -/
structure Ledger where
  db : Connection Tables
  memory : Memory
  writeLock : Option ℕ
  now : ℚ
  draws : List ℚ

/-- What a statement raises: a savepoint or a constraint that is missing, or a fault of
the database, which may be that it is locked. -/
inductive DbError
  | noSuchSavepoint
  | integrity
  | fault (locked : Bool)
  deriving DecidableEq

inductive Error
  | invalidAmount (amount : ℚ)
  | insufficientBalance (walletId : String) (balance amount : ℚ)
  | concurrentModification (walletId : String)
  | balanceLock (walletId : String)
  | missingSignature (walletId : String)
  | missingPublicKey (walletId : String)
  | invalidSignature (walletId : String)
  | insufficientFunds (balance amount : ℚ)
  | alreadyGranted (walletId : String)
  | unknownWallet (walletId : String)
  | invalidArgument (text : String)
  | database (e : DbError)
  deriving DecidableEq

/-- The `AtomicOperationError`s. -/
def Error.isAtomic : Error → Bool
  | .insufficientBalance _ _ _ => true
  | .concurrentModification _ => true
  | .balanceLock _ => true
  | _ => false

/-- The statements that change a table of the node services. -/
inductive ServiceStatement
  | upsertProvenance (cid : String) (columns : Columns)
  | insertGossip (nonce : String) (entry : GossipEntry)
  | deleteGossipBefore (cutoff : ℚ)
  | upsertAllowance (agentId : String) (row : Allowance)
  | resetSpent (agentId : String) (epochStart : ℚ)
  | revokeAllowance (agentId principalId : String)
  | saveCollab (table : CollabTable) (recordId : String) (columns : Columns)
  | deleteCollab (table : CollabTable) (recordId : String)

/-- What an `UPDATE wallets … WHERE wallet_id = ?` sets. -/
inductive WalletColumn
  | publicKey (key : String)
  | ethAddress (address : String)
  | requiresUserSignature (enabled : Bool)
  | nextWithdrawNonce (nonce : ℕ)

/-- The commits of the source: of a wallet operation, of a nonce, of the row of a credit,
of a whole submission of some amount, and of a node service. -/
inductive Barrier
  | wallet
  | nonce
  | row
  | submission (amount : ℚ)
  | service

/-- The releases of the savepoint in the source: after a check that fails, after a
rollback, and after a deduction. -/
inductive Release
  | denied
  | undone
  | deducted

inductive Statement
  | selectWallet (walletId : String)
  | selectBalance (walletId : String)
  | selectTransaction (txId : String)
  | selectGrant (walletId : String)
  | sumTo (walletId : String)
  | sumFrom (walletId : String)
  | selectNonce (nonce : String)
  | selectAllowance (agentId : String)
  | insertWallet (walletId : String) (row : Wallet)
  | updateWallet (walletId : String) (column : WalletColumn)
  | clearEthAddress (address : String)
  | storeTransaction (tx : DAGTransaction)
  | deleteTip (txId : String)
  | insertTip (txId : String)
  | updateWeight (txId : String) (weight : ℕ) (level : ℚ)
  | insertBalance (walletId : String)
  | deductBalance (walletId : String) (amount : ℚ) (expectedVersion : ℕ)
  | creditBalance (walletId : String) (amount : ℚ)
  | insertNonce (nonce origin : String)
  | deleteNonce (nonce : String)
  | service (statement : ServiceStatement)
  | savepoint
  | release (after : Release)
  | rollbackTo
  | commit (barrier : Barrier)

/-- What a statement returns. -/
@[reducible] def Value : Statement → Type
  | .selectWallet _ => Option Wallet
  | .selectBalance _ => Option BalanceRow
  | .selectTransaction _ => Option DAGTransaction
  | .selectGrant _ => Bool
  | .sumTo _ => ℚ
  | .sumFrom _ => ℚ
  | .selectNonce _ => Bool
  | .selectAllowance _ => Option Allowance
  | .deductBalance _ _ _ => Bool
  | .insertNonce _ _ => Bool
  | .deleteNonce _ => Bool
  | .service _ => ℕ
  | _ => Unit

namespace Services

/-- Each statement with the number of rows it changes. -/
def execute (s : Services) : ServiceStatement → ℕ × Services
  | .upsertProvenance cid columns =>
      (1, { s with provenanceChains := s.provenanceChains.set cid columns })
  | .insertGossip nonce entry =>
      match s.gossipLog.get? nonce with
      | none => (1, { s with gossipLog := s.gossipLog.set nonce entry })
      | some _ => (0, s)
  | .deleteGossipBefore cutoff =>
      let old := s.gossipLog.entries.filter fun row => row.2.receivedAt < cutoff
      (old.length, { s with
        gossipLog := s.gossipLog.filterKeys fun nonce => old.all fun row => row.1 ≠ nonce })
  | .upsertAllowance agentId row =>
      match s.agentAllowances.get? agentId with
      | none => (1, { s with agentAllowances := s.agentAllowances.set agentId row })
      | some old =>
          (1, { s with
            agentAllowances := s.agentAllowances.set agentId
              { row with principalId := old.principalId, createdAt := old.createdAt } })
  | .resetSpent agentId epochStart =>
      match s.agentAllowances.get? agentId with
      | none => (0, s)
      | some row =>
          (1, { s with
            agentAllowances := s.agentAllowances.set agentId
              { row with spent := 0, epochStart := epochStart } })
  | .revokeAllowance agentId principalId =>
      match s.agentAllowances.get? agentId with
      | none => (0, s)
      | some row =>
          if row.principalId = principalId then
            (1, { s with
              agentAllowances := s.agentAllowances.set agentId { row with revoked := true } })
          else (0, s)
  | .saveCollab table recordId columns =>
      (1, { s with collab := (s.collab.erase (table, recordId)).set (table, recordId) columns })
  | .deleteCollab table recordId =>
      ((s.collab.get? (table, recordId)).elim 0 fun _ => 1,
        { s with collab := s.collab.erase (table, recordId) })

end Services

def Wallet.update (row : Wallet) : WalletColumn → Wallet
  | .publicKey key => { row with publicKey := some key }
  | .ethAddress address => { row with ethAddress := some address }
  | .requiresUserSignature enabled => { row with requiresUserSignature := enabled }
  | .nextWithdrawNonce nonce => { row with nextWithdrawNonce := nonce }

/-- `set.add`, and `INSERT OR IGNORE`. -/
def addTip (txId : String) (tips : List String) : List String :=
  if txId ∈ tips then tips else tips ++ [txId]

/-- `set.discard`, and `DELETE`. -/
def removeTip (txId : String) (tips : List String) : List String :=
  tips.filter fun tip => tip ≠ txId

/-- `SUM(amount)` over the rows that pass a test and are no approvals. -/
def sumAmounts (p : DAGTransaction → Bool) (rows : List DAGTransaction) : ℚ :=
  ((rows.filter fun tx => p tx && tx.txType ≠ .approval).map (·.amount)).sum

namespace Tables

variable (t : Tables)

def rows : List DAGTransaction := t.dagTransactions.entries.map Prod.snd

def sumTo (walletId : String) : ℚ := sumAmounts (fun tx => tx.toWallet = walletId) t.rows

def sumFrom (walletId : String) : ℚ := sumAmounts (fun tx => tx.fromWallet = some walletId) t.rows

/-- `INSERT OR REPLACE`: the row that is replaced is deleted first. -/
def store (tx : DAGTransaction) : Tables :=
  { t with dagTransactions := (t.dagTransactions.erase tx.txId).set tx.txId tx }

def updateWallet (walletId : String) (column : WalletColumn) : Tables :=
  match t.wallets.get? walletId with
  | none => t
  | some row => { t with wallets := t.wallets.set walletId (row.update column) }

def updateWeight (txId : String) (weight : ℕ) (level : ℚ) : Tables :=
  match t.dagTransactions.get? txId with
  | none => t
  | some row =>
      { t with
        dagTransactions := t.dagTransactions.set txId
          { row with cumulativeWeight := weight, confirmationLevel := level } }

/-- `ON CONFLICT(wallet_id) DO UPDATE`. -/
def creditBalance (walletId : String) (amount : ℚ) : Tables :=
  match t.walletBalances.get? walletId with
  | none => { t with walletBalances := t.walletBalances.set walletId ⟨amount, 1⟩ }
  | some row =>
      { t with
        walletBalances := t.walletBalances.set walletId
          ⟨row.balance + amount, row.version + 1⟩ }

/-- The foreign key of `wallet_balances`. -/
def hasWallet (walletId : String) : Bool := (t.wallets.get? walletId).isSome

end Tables

namespace Statement

/-- The statements that only read. -/
def isSelect : Statement → Bool
  | selectWallet _ | selectBalance _ | selectTransaction _ | selectGrant _ | sumTo _ | sumFrom _
  | selectNonce _ | selectAllowance _ => true
  | _ => false

/-- The statements that change the tables, before which a transaction is begun. -/
def isChange : Statement → Bool
  | savepoint | release _ | rollbackTo | commit _ => false
  | statement => !statement.isSelect

/-- The answer to a statement on the tables, and what it leaves of them. -/
def onTables (t : Tables) :
    (statement : Statement) → Except DbError (Value statement) × Tables
  | selectWallet walletId => (.ok (t.wallets.get? walletId), t)
  | selectBalance walletId => (.ok (t.walletBalances.get? walletId), t)
  | selectTransaction txId => (.ok (t.dagTransactions.get? txId), t)
  | selectGrant walletId =>
      (.ok (t.rows.any fun tx => tx.toWallet = walletId && tx.txType = .welcomeGrant), t)
  | sumTo walletId => (.ok (t.sumTo walletId), t)
  | sumFrom walletId => (.ok (t.sumFrom walletId), t)
  | selectNonce nonce => (.ok (t.seenNonces.get? nonce).isSome, t)
  | selectAllowance agentId => (.ok (t.services.agentAllowances.get? agentId), t)
  | insertWallet walletId row =>
      if t.hasWallet walletId then (.ok (), t)
      else (.ok (), { t with wallets := t.wallets.set walletId row })
  | updateWallet walletId column => (.ok (), t.updateWallet walletId column)
  | clearEthAddress address =>
      let linked := t.wallets.entries.filter fun row => row.2.ethAddress = some address
      (.ok (), { t with
        wallets := linked.foldl (fun wallets row =>
          wallets.set row.1 { row.2 with ethAddress := none }) t.wallets })
  | storeTransaction tx => (.ok (), t.store tx)
  | deleteTip txId => (.ok (), { t with tips := removeTip txId t.tips })
  | insertTip txId => (.ok (), { t with tips := addTip txId t.tips })
  | updateWeight txId weight level => (.ok (), t.updateWeight txId weight level)
  | insertBalance walletId =>
      if t.hasWallet walletId && (t.walletBalances.get? walletId).isNone then
        (.ok (), { t with walletBalances := t.walletBalances.set walletId ⟨0, 1⟩ })
      else (.error .integrity, t)
  | deductBalance walletId amount expectedVersion =>
      match t.walletBalances.get? walletId with
      | none => (.ok false, t)
      | some row =>
          if row.version = expectedVersion then
            (.ok true, { t with
              walletBalances := t.walletBalances.set walletId
                ⟨row.balance - amount, row.version + 1⟩ })
          else (.ok false, t)
  | creditBalance walletId amount =>
      if t.hasWallet walletId then (.ok (), t.creditBalance walletId amount)
      else (.error .integrity, t)
  | insertNonce nonce origin =>
      match t.seenNonces.get? nonce with
      | none => (.ok true, { t with seenNonces := t.seenNonces.set nonce origin })
      | some _ => (.ok false, t)
  | deleteNonce nonce =>
      (.ok (t.seenNonces.get? nonce).isSome, { t with seenNonces := t.seenNonces.erase nonce })
  | service statement =>
      (.ok (t.services.execute statement).1,
        { t with services := (t.services.execute statement).2 })
  | savepoint => (.ok (), t)
  | release _ => (.ok (), t)
  | rollbackTo => (.ok (), t)
  | commit _ => (.ok (), t)

/-- What a statement does to the connection. -/
def execute (db : Connection Tables) :
    (statement : Statement) → Except DbError (Value statement) × Connection Tables
  | savepoint => (.ok (), db.savepoint)
  | release _ =>
      match db.release with
      | some db' => (.ok (), db')
      | none => (.error .noSuchSavepoint, db)
  | rollbackTo =>
      match db.rollbackTo with
      | some db' => (.ok (), db')
      | none => (.error .noSuchSavepoint, db)
  | commit _ => (.ok (), db.commit)
  | statement =>
      ((statement.onTables db.live).1,
        if statement.isChange then db.update fun t => (statement.onTables t).2 else db)

end Statement

/-! ## The event loop -/

/-- What a task waits for: a statement, or the write lock, for a submission or for
another write. -/
inductive Request
  | execute (statement : Statement)
  | acquireWriteLock (submission : Option Submission)

@[reducible] def Answer : Request → Type
  | .execute statement => Except DbError (Value statement)
  | .acquireWriteLock _ => Unit

/-- The time at which a request is answered, what `random.random()` returns then, and
whether the statement fails. -/
structure Moment where
  now : ℚ
  draws : List ℚ
  fault : Option Bool

namespace Ledger

/-- A statement that fails leaves the tables as they are. -/
def perform (l : Ledger) (fault : Option Bool) (statement : Statement) :
    Except DbError (Value statement) × Ledger :=
  match fault with
  | some locked =>
      (.error (.fault locked), { l with db := if statement.isChange then l.db.begin else l.db })
  | none => ((statement.execute l.db).1, { l with db := (statement.execute l.db).2 })

/-- The answer to a request.  A lock that is held has to be waited for. -/
def serve (me : ℕ) (moment : Moment) (l : Ledger) : (r : Request) → Option (Answer r × Ledger)
  | .execute statement =>
      some ({ l with now := moment.now, draws := moment.draws }.perform moment.fault statement)
  | .acquireWriteLock _ =>
      match l.writeLock with
      | none =>
          some ((), { l with now := moment.now, draws := moment.draws, writeLock := some me })
      | some _ => none

end Ledger

end Prsm.DagLedger
