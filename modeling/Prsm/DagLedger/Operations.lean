import Prsm.DagLedger.Database
import Prsm.Foundations.Coroutine
import Prsm.Foundations.Doubles

/-!
# `DAGLedger`

The default ledger of a node.  Its methods await one statement at a time on a
connection that they share, so a commit of one of them ends the transaction of all.
The methods that move money, and those that write to `wallets` and `seen_nonces`, hold
the write lock; the node services do not.
-/

namespace Prsm.DagLedger

open Foundations

/-- A call of a method of the ledger. -/
abbrev Method := Coroutine Ledger Request Answer Error

def orRaise {α : Type} : Except DbError α → Method α
  | .ok value => .returned value
  | .error e => .raised (.database e)

/-- `await` one statement. -/
def execute (statement : Statement) : Method (Value statement) :=
  .await (.execute statement) orRaise

def time : Method ℚ :=
  Coroutine.gets (·.now)

def modifyMemory (f : Memory → Memory) : Method Unit :=
  Coroutine.modify fun l => { l with memory := f l.memory }

def unlock (l : Ledger) : Ledger := { l with writeLock := none }

/-- `async with self._get_write_lock()`. -/
def withWriteLock {α : Type} (submission : Option Submission) (body : Method α) : Method α := do
  Coroutine.ask (Request.acquireWriteLock submission)
  body.andFinally unlock

/-- A text that counts as true. -/
def truthy (text : Option String) : Option String :=
  text.filter fun t => t ≠ ""

/-! ### Wallets and nonces -/

def createWalletImpl (walletId displayName : String) (publicKey : Option String) :
    Method Unit := do
  execute (.insertWallet walletId ⟨displayName, publicKey, none, false, 0⟩)
  execute (.commit .wallet)
  match truthy publicKey with
  | none => return ()
  | some key =>
      modifyMemory fun m => { m with walletPublicKeys := m.walletPublicKeys.set walletId key }

def createWallet (walletId displayName : String) (publicKey : Option String) : Method Unit :=
  withWriteLock none (createWalletImpl walletId displayName publicKey)

def registerWalletPublicKey (walletId publicKey : String) : Method Unit :=
  withWriteLock none do
    execute (.updateWallet walletId (.publicKey publicKey))
    execute (.commit .wallet)
    -- The source writes this after the release of the lock, with no await in between.
    modifyMemory fun m => { m with walletPublicKeys := m.walletPublicKeys.set walletId publicKey }

def walletExists (walletId : String) : Method Bool := do
  return (← execute (.selectWallet walletId)).isSome

def linkEthAddress (lib : Library) (walletId ethAddress : String) : Method Unit := do
  if walletId = "" then
    throw (.invalidArgument "wallet_id must be non-empty")
  if !ethAddress.startsWith "0x" then
    throw (.invalidArgument ("eth_address must be 0x-prefixed; got " ++ ethAddress))
  withWriteLock none do
    execute (.insertWallet walletId ⟨"", none, none, false, 0⟩)
    execute (.clearEthAddress (lib.lower ethAddress))
    execute (.updateWallet walletId (.ethAddress (lib.lower ethAddress)))
    execute (.commit .wallet)

def setRequiresUserSignature (walletId : String) (enabled : Bool) : Method Unit :=
  withWriteLock none do
    if (← execute (.selectWallet walletId)).isNone then
      throw (.unknownWallet walletId)
    execute (.updateWallet walletId (.requiresUserSignature enabled))
    execute (.commit .wallet)

def bumpWithdrawNonce (walletId : String) : Method ℕ :=
  withWriteLock none do
    match ← execute (.selectWallet walletId) with
    | none => throw (.unknownWallet walletId)
    | some row =>
        execute (.updateWallet walletId (.nextWithdrawNonce (row.nextWithdrawNonce + 1)))
        execute (.commit .wallet)
        return row.nextWithdrawNonce

def compareAndBumpWithdrawNonce (walletId : String) (expected : ℤ) : Method (Option ℕ) :=
  withWriteLock none do
    match ← execute (.selectWallet walletId) with
    | none => throw (.unknownWallet walletId)
    | some row =>
        if (row.nextWithdrawNonce : ℤ) ≠ expected then
          return none
        execute (.updateWallet walletId (.nextWithdrawNonce (row.nextWithdrawNonce + 1)))
        execute (.commit .wallet)
        return some row.nextWithdrawNonce

def hasSeenNonce (nonce : String) : Method Bool :=
  execute (.selectNonce nonce)

def recordNonce (nonce origin : String) : Method Bool :=
  withWriteLock none do
    let claimed ← execute (.insertNonce nonce origin)
    execute (.commit .nonce)
    return claimed

def releaseNonce (nonce : String) : Method Bool :=
  withWriteLock none do
    let removed ← execute (.deleteNonce nonce)
    execute (.commit .nonce)
    return removed

/-! ### Balances -/

def getBalance (walletId : String) : Method ℚ := do
  let credits ← execute (.sumTo walletId)
  let debits ← execute (.sumFrom walletId)
  return roundTo 6 (credits - debits)

def cacheVersion (walletId : String) (version : ℕ) : Method Unit :=
  modifyMemory fun m =>
    { m with balanceVersionCache := m.balanceVersionCache.set walletId version }

def getOrCreateBalanceCache (walletId : String) : Method (ℚ × ℕ) := do
  match ← execute (.selectBalance walletId) with
  | some row =>
      match ← Coroutine.gets fun l => l.memory.balanceVersionCache.get? walletId with
      | some version => return (row.balance, version)
      | none =>
          cacheVersion walletId row.version
          return (row.balance, row.version)
  | none =>
      execute (.insertBalance walletId)
      cacheVersion walletId 1
      return (0, 1)

/-- `_rollback_balance_check`, and the clean-up of `_check_balance_atomic`. -/
def rollbackBalanceCheck : Method Unit := do
  try
    execute .rollbackTo
    execute (.release .undone)
  catch _ =>
    pure ()

/-- Whether the balance covers the amount, the balance, and its version. -/
def checkBalanceAtomic (walletId : String) (amount : ℚ) : Method (Bool × ℚ × ℕ) := do
  try
    execute .savepoint
    let (balance, version) ← getOrCreateBalanceCache walletId
    if balance < amount then
      execute (.release .denied)
      pure (false, balance, version)
    else
      pure (true, balance, version)
  catch e =>
    rollbackBalanceCheck
    if e = .database (.fault true) then
      throw (.balanceLock walletId)
    throw e

def commitBalanceDeduction (walletId : String) (amount : ℚ) (expectedVersion : ℕ) :
    Method Unit := do
  if !(← execute (.deductBalance walletId amount expectedVersion)) then
    execute .rollbackTo
    execute (.release .undone)
    throw (.concurrentModification walletId)
  execute (.release .deducted)
  cacheVersion walletId (expectedVersion + 1)

def commitBalanceCredit (walletId : String) (amount : ℚ) : Method Unit := do
  execute (.creditBalance walletId amount)
  modifyMemory fun m =>
    { m with
      balanceVersionCache := m.balanceVersionCache.set walletId
        ((m.balanceVersionCache.get? walletId).elim 1 (· + 1)) }

/-! ### The graph -/

/-- The first tip at which the sum of the weights reaches `r`. -/
def pickTip (r : ℚ) (selected : List String) : ℚ → List (String × ℚ) → Option String
  | _, [] => none
  | cumulative, (tip, weight) :: rest =>
      if r ≤ cumulative + weight ∧ tip ∉ selected then some tip
      else pickTip r selected (cumulative + weight) rest

def drawTips : ℕ → List ℚ → List (String × ℚ) → List String → List String
  | 0, _, _, selected => selected
  | rounds + 1, draws, available, selected =>
      if available.isEmpty then selected
      else
        let r := draws.headD 0 * (available.map Prod.snd).sum
        let selected := selected ++ (pickTip r selected 0 available).toList
        drawTips rounds draws.tail (available.filter fun tip => tip.1 ∉ selected) selected

def Memory.weightOf (lib : Library) (m : Memory) (tip : String) : ℚ :=
  (m.transactions.get? tip).elim 1 fun tx => lib.tipWeight tx.cumulativeWeight

def selectTipsMcmc (lib : Library) (l : Ledger) (numTips : ℕ) : List String :=
  let tips := lib.setOrder l.memory.tips
  if tips.length ≤ numTips then tips
  else
    let weighted := tips.map fun tip => (tip, l.memory.weightOf lib tip)
    if (weighted.map Prod.snd).sum = 0 then tips.take numTips
    else drawTips numTips l.draws weighted []

def Memory.getChildren (m : Memory) (txId : String) : List String :=
  (m.transactions.entries.filter fun entry => txId ∈ entry.2.parentIds).map Prod.fst

def getTransaction (txId : String) : Method (Option DAGTransaction) := do
  match ← Coroutine.gets fun l => l.memory.transactions.get? txId with
  | some tx => return some tx
  | none =>
      match ← execute (.selectTransaction txId) with
      | none => return none
      | some tx =>
          modifyMemory fun m => { m with transactions := m.transactions.set txId tx }
          return some tx

def hasTransaction (txId : String) : Method Bool := do
  return (← execute (.selectTransaction txId)).isSome

/-- The loop over the queue.  Every round takes an identifier off it. -/
def updateQueue : ℕ → List String → List String → Method Unit
  | 0, _, _ => return ()
  | _ + 1, [], _ => return ()
  | rounds + 1, txId :: queue, updated => do
      if txId ∈ updated then
        updateQueue rounds queue updated
      else
        match ← Coroutine.gets fun l => l.memory.transactions.get? txId with
        | none => updateQueue rounds queue (txId :: updated)
        | some tx =>
            let weight := tx.cumulativeWeight + 1
            let level : ℚ := min 1 (weight / 100)
            modifyMemory fun m =>
              { m with
                transactions := m.transactions.set txId
                  { tx with cumulativeWeight := weight, confirmationLevel := level } }
            execute (.updateWeight txId weight level)
            let children ← Coroutine.gets fun l => l.memory.getChildren txId
            updateQueue rounds
              (queue ++ children.filter fun child => child ∉ txId :: updated) (txId :: updated)

/-- How often a transaction is put in the queue at most: once for each edge of the graph
that is in memory, or in the table that is read into it. -/
def Ledger.edges (l : Ledger) : ℕ :=
  ((l.memory.transactions.entries ++ l.db.live.dagTransactions.entries).map
    fun entry => entry.2.parentIds.length).sum

def updateWeights (tx : DAGTransaction) : Method Unit := do
  let edges ← Coroutine.gets Ledger.edges
  updateQueue (tx.parentIds.length + edges + 1) tx.parentIds []

/-! ### Submissions -/

def isSignatureRequired (txType : TransactionType) (fromWallet : Option String) : Bool :=
  fromWallet.isSome && txType ≠ .genesis && txType ≠ .system &&
    txType ≠ .bridgeDeposit && txType ≠ .bridgeWithdraw

/-- `self.get_wallet_public_key(wallet_id)`. -/
def Memory.registeredKey (m : Memory) (walletId : Option String) : Option String :=
  walletId.bind fun w => m.walletPublicKeys.get? w

/-- The key that the signature is checked with. -/
def Memory.verifyKey (m : Memory) (s : Submission) : Option String :=
  truthy ((truthy s.publicKey).or (m.registeredKey s.fromWallet))

/-- The transaction that a submission adds to the graph. -/
def buildTransaction (lib : Library) (s : Submission) (l : Ledger) : DAGTransaction where
  txId := (truthy s.idempotentTxId).getD s.txId
  txType := s.txType
  amount := s.amount
  fromWallet := s.fromWallet
  toWallet := s.toWallet
  timestamp := l.now
  signature := s.signature
  publicKey := (truthy s.publicKey).or (l.memory.registeredKey (truthy s.fromWallet))
  description := s.description
  parentIds := selectTipsMcmc lib l (min 4 l.memory.tips.length)
  cumulativeWeight := 1
  confirmationLevel := 0

/-- The part of `submit_transaction` between the balance check and the first write. -/
def prepare (lib : Library) (verifySignatures : Bool) (s : Submission) (l : Ledger) :
    Except Error DAGTransaction :=
  let tx := buildTransaction lib s l
  let walletId := s.fromWallet.getD ""
  if verifySignatures && isSignatureRequired s.txType s.fromWallet then
    match truthy s.signature, l.memory.verifyKey s with
    | none, _ => .error (.missingSignature walletId)
    | some _, none => .error (.missingPublicKey walletId)
    | some signature, some key =>
        if lib.verifySignature (lib.hash tx) signature key then .ok tx
        else .error (.invalidSignature walletId)
  else .ok tx

def shortName (walletId : String) : String := "wallet-" ++ (walletId.take 8).toString

def createParties (s : Submission) : Method Unit := do
  match truthy s.fromWallet with
  | none => pure ()
  | some fromWallet =>
      if !(← walletExists fromWallet) then
        createWalletImpl fromWallet (shortName fromWallet) s.publicKey
  if !(← walletExists s.toWallet) then
    createWalletImpl s.toWallet (shortName s.toWallet) none

def discardTips : List String → Method Unit
  | [] => return ()
  | parentId :: rest => do
      if ← Coroutine.gets fun l => decide (parentId ∈ l.memory.tips) then
        modifyMemory fun m => { m with tips := removeTip parentId m.tips }
        execute (.deleteTip parentId)
      discardTips rest

/-- The writes of `submit_transaction`.  `checked` is the wallet to debit and the version
of the balance that was checked. -/
def writeTransaction (s : Submission) (checked : Option (String × ℕ)) (tx : DAGTransaction) :
    Method DAGTransaction := do
  execute (.storeTransaction tx)
  discardTips tx.parentIds
  modifyMemory fun m => { m with tips := addTip tx.txId m.tips }
  execute (.insertTip tx.txId)
  updateWeights tx
  match checked with
  | some (fromWallet, version) => commitBalanceDeduction fromWallet s.amount version
  | none => execute (.commit .row)
  if s.toWallet ≠ "" then
    commitBalanceCredit s.toWallet s.amount
  execute (.commit (.submission s.amount))
  modifyMemory fun m => { m with transactions := m.transactions.set tx.txId tx }
  return tx

variable (lib : Library) (verifySignatures : Bool)

def recordTransaction (s : Submission) (checked : Option (String × ℕ)) :
    Method DAGTransaction := do
  match ← Coroutine.gets (prepare lib verifySignatures s) with
  | .error e => throw e
  | .ok tx => writeTransaction s checked tx

/-- The part of `submit_transaction` that holds the write lock. -/
def submitLocked (s : Submission) : Method DAGTransaction := do
  createParties s
  match truthy s.fromWallet with
  | none => recordTransaction lib verifySignatures s none
  | some fromWallet =>
      let (sufficient, balance, version) ← checkBalanceAtomic fromWallet s.amount
      try
        if !sufficient then
          throw (.insufficientBalance fromWallet balance s.amount)
        recordTransaction lib verifySignatures s (some (fromWallet, version))
      catch e =>
        if !e.isAtomic then
          rollbackBalanceCheck
        throw e

def submitTransaction (s : Submission) : Method DAGTransaction := do
  if s.amount < 0 then
    throw (.invalidAmount s.amount)
  match s.idempotentTxId with
  | none => withWriteLock (some s) (submitLocked lib verifySignatures s)
  | some txId =>
      match ← getTransaction txId with
      | some existing => return existing
      | none => withWriteLock (some s) (submitLocked lib verifySignatures s)

def approveTransaction (approverWallet txId drawn : String) : Method (Option DAGTransaction) := do
  match ← Coroutine.gets fun l => l.memory.transactions.get? txId with
  | none => return none
  | some _ =>
      let description := "Approving transaction " ++ (txId.take 16).toString ++ "..."
      some <$> submitTransaction lib verifySignatures
        ⟨.approval, 0, some approverWallet, txId, description, none, none, none, drawn⟩

def transfer (fromWallet toWallet : String) (amount : ℚ) (description : String)
    (signature publicKey : Option String) (drawn : String) : Method DAGTransaction :=
  submitTransaction lib verifySignatures
    ⟨.transfer, amount, some fromWallet, toWallet, description, signature, publicKey, none, drawn⟩

/-- `"idem-" + sha256(key).hexdigest()[:48]`. -/
def idempotentTxId (idempotencyKey : String) : String :=
  "idem-" ++ ((lib.sha256Hex idempotencyKey).take 48).toString

def credit (walletId : String) (amount : ℚ) (txType : TransactionType) (description : String)
    (signature publicKey idempotencyKey : Option String) (drawn : String) :
    Method DAGTransaction :=
  submitTransaction lib verifySignatures
    ⟨txType, amount, none, walletId, description, signature, publicKey,
      (truthy idempotencyKey).map (idempotentTxId lib), drawn⟩

def debit (walletId : String) (amount : ℚ) (txType : TransactionType) (description : String)
    (signature publicKey : Option String) (drawn : String) : Method DAGTransaction := do
  let balance ← getBalance walletId
  if balance < amount then
    throw (.insufficientFunds balance amount)
  submitTransaction lib verifySignatures
    ⟨txType, amount, some walletId, "system", description, signature, publicKey, none, drawn⟩

def issueWelcomeGrant (walletId : String) (amount : ℚ) (description drawn : String) :
    Method DAGTransaction := do
  if ← execute (.selectGrant walletId) then
    throw (.alreadyGranted walletId)
  credit lib verifySignatures walletId amount .welcomeGrant description none none
    (some ("welcome-grant:" ++ walletId)) drawn

/-! ### The node services -/

/-- A change of a table of the node services. -/
def changeService (statement : ServiceStatement) : Method ℕ := do
  let changed ← execute (.service statement)
  execute (.commit .service)
  return changed

def upsertProvenance (cid : String) (columns : Columns) : Method Unit := do
  if cid ≠ "" then
    discard (changeService (.upsertProvenance cid columns))

def logGossip (nonce subtype origin payload : String) (ttl : ℤ) (attestation : Option String) :
    Method Unit := do
  discard (changeService
    (.insertGossip nonce ⟨subtype, origin, payload, ttl, ← time, attestation⟩))

def pruneGossipLog (maxAge : ℚ) : Method ℕ := do
  changeService (.deleteGossipBefore ((← time) - maxAge))

def grantAgentAllowance (principalId agentId : String) (amount epochHours : ℚ) :
    Method Unit := do
  let now ← time
  discard (changeService
    (.upsertAllowance agentId ⟨principalId, amount, 0, epochHours, now, now, false⟩))

/-- What is returned is the row, with `spent` and `epoch_start` after the roll-over. -/
def getAgentAllowance (agentId : String) : Method (Option Allowance) := do
  match ← execute (.selectAllowance agentId) with
  | none => return none
  | some row =>
      let now ← time
      if row.epochHours * 3600 ≤ now - row.epochStart then
        discard (changeService (.resetSpent agentId now))
        return some { row with spent := 0, epochStart := now }
      return some row

def revokeAgentAllowance (principalId agentId : String) : Method Bool := do
  return 0 < (← changeService (.revokeAllowance agentId principalId))

/-- `save_task`, `save_review` and `save_query`. -/
def saveCollab (table : CollabTable) (recordId : String) (columns : Columns) : Method Unit :=
  discard (changeService (.saveCollab table recordId columns))

def deleteCollabRecord (table : CollabTable) (recordId : String) : Method Unit :=
  discard (changeService (.deleteCollab table recordId))

/-- The calls of the ledger's methods, each with what it draws. -/
inductive Call
  | submitTransaction (s : Submission)
  | approveTransaction (approverWallet txId drawn : String)
  | transfer (fromWallet toWallet : String) (amount : ℚ) (description : String)
      (signature publicKey : Option String) (drawn : String)
  | credit (walletId : String) (amount : ℚ) (txType : TransactionType) (description : String)
      (signature publicKey idempotencyKey : Option String) (drawn : String)
  | debit (walletId : String) (amount : ℚ) (txType : TransactionType) (description : String)
      (signature publicKey : Option String) (drawn : String)
  | issueWelcomeGrant (walletId : String) (amount : ℚ) (description drawn : String)
  | getBalance (walletId : String)
  | getTransaction (txId : String)
  | hasTransaction (txId : String)
  | createWallet (walletId displayName : String) (publicKey : Option String)
  | registerWalletPublicKey (walletId publicKey : String)
  | linkEthAddress (walletId ethAddress : String)
  | setRequiresUserSignature (walletId : String) (enabled : Bool)
  | bumpWithdrawNonce (walletId : String)
  | compareAndBumpWithdrawNonce (walletId : String) (expected : ℤ)
  | hasSeenNonce (nonce : String)
  | recordNonce (nonce origin : String)
  | releaseNonce (nonce : String)
  | upsertProvenance (cid : String) (columns : Columns)
  | logGossip (nonce subtype origin payload : String) (ttl : ℤ) (attestation : Option String)
  | pruneGossipLog (maxAge : ℚ)
  | grantAgentAllowance (principalId agentId : String) (amount epochHours : ℚ)
  | getAgentAllowance (agentId : String)
  | revokeAgentAllowance (principalId agentId : String)
  | saveCollab (table : CollabTable) (recordId : String) (columns : Columns)
  | deleteCollabRecord (table : CollabTable) (recordId : String)

def body : Call → Method Unit
  | .submitTransaction s => discard (submitTransaction lib verifySignatures s)
  | .approveTransaction approverWallet txId drawn =>
      discard (approveTransaction lib verifySignatures approverWallet txId drawn)
  | .transfer fromWallet toWallet amount description signature publicKey drawn =>
      discard (transfer lib verifySignatures fromWallet toWallet amount description signature
        publicKey drawn)
  | .credit walletId amount txType description signature publicKey idempotencyKey drawn =>
      discard (credit lib verifySignatures walletId amount txType description signature publicKey
        idempotencyKey drawn)
  | .debit walletId amount txType description signature publicKey drawn =>
      discard (debit lib verifySignatures walletId amount txType description signature publicKey
        drawn)
  | .issueWelcomeGrant walletId amount description drawn =>
      discard (issueWelcomeGrant lib verifySignatures walletId amount description drawn)
  | .getBalance walletId => discard (getBalance walletId)
  | .getTransaction txId => discard (getTransaction txId)
  | .hasTransaction txId => discard (hasTransaction txId)
  | .createWallet walletId displayName publicKey => createWallet walletId displayName publicKey
  | .registerWalletPublicKey walletId publicKey => registerWalletPublicKey walletId publicKey
  | .linkEthAddress walletId ethAddress => linkEthAddress lib walletId ethAddress
  | .setRequiresUserSignature walletId enabled => setRequiresUserSignature walletId enabled
  | .bumpWithdrawNonce walletId => discard (bumpWithdrawNonce walletId)
  | .compareAndBumpWithdrawNonce walletId expected =>
      discard (compareAndBumpWithdrawNonce walletId expected)
  | .hasSeenNonce nonce => discard (hasSeenNonce nonce)
  | .recordNonce nonce origin => discard (recordNonce nonce origin)
  | .releaseNonce nonce => discard (releaseNonce nonce)
  | .upsertProvenance cid columns => upsertProvenance cid columns
  | .logGossip nonce subtype origin payload ttl attestation =>
      logGossip nonce subtype origin payload ttl attestation
  | .pruneGossipLog maxAge => discard (pruneGossipLog maxAge)
  | .grantAgentAllowance principalId agentId amount epochHours =>
      grantAgentAllowance principalId agentId amount epochHours
  | .getAgentAllowance agentId => discard (getAgentAllowance agentId)
  | .revokeAgentAllowance principalId agentId =>
      discard (revokeAgentAllowance principalId agentId)
  | .saveCollab table recordId columns => saveCollab table recordId columns
  | .deleteCollabRecord table recordId => deleteCollabRecord table recordId

def genesis : DAGTransaction where
  txId := "genesis"
  txType := .genesis
  amount := 1000000000
  fromWallet := none
  toWallet := "network"
  timestamp := 0
  signature := none
  publicKey := none
  description := "Genesis transaction - initial FTNS supply"
  parentIds := []
  cumulativeWeight := 1
  confirmationLevel := 0

def loadState (tables : Tables) : Memory where
  tips := tables.tips
  transactions := tables.dagTransactions
  balanceVersionCache := ∅
  walletPublicKeys :=
    Dict.ofEntries (tables.wallets.entries.filterMap fun row =>
      row.2.publicKey.map fun key => (row.1, key))

/-- The ledger that `initialize` opens on the tables of the disk.  The genesis
transaction is stored, but not put in memory. -/
def initializeLedger (tables : Tables) (now : ℚ) : Ledger :=
  let memory := loadState tables
  if tables.dagTransactions.entries.isEmpty then
    let tables := tables.store genesis
    ⟨.opened { tables with tips := addTip "genesis" tables.tips },
      { memory with tips := addTip "genesis" memory.tips }, none, now, []⟩
  else ⟨.opened tables, memory, none, now, []⟩

/-- The node: any calls, interleaved at their awaits, and crashes. -/
def node : Program Ledger Request Answer Error Unit Call Moment where
  body := fun _ => body lib verifySignatures
  serve := Ledger.serve
  restart := fun l => some (initializeLedger l.db.durable l.now)

abbrev State := Pool Ledger Request Answer Error Unit Call

def Tables.empty : Tables := ⟨∅, ∅, [], ∅, ∅, ⟨∅, ∅, ∅, ∅⟩⟩

/-- A call that nothing interrupts, as far as `rounds` requests. -/
def alone (me : ℕ) (c : Call) (moment : Moment) (rounds : ℕ) : List (Turn Call Moment) :=
  .call c :: (List.replicate rounds [.resume me, .serve me moment]).flatten

/-- The row that a turn stores. -/
def storedBy (pool : State) (turn : Turn Call Moment) : Option DAGTransaction :=
  match Program.answered pool turn with
  | some (.execute (.storeTransaction tx)) => some tx
  | _ => none

/-- A node that starts on an empty database. -/
def fresh (now : ℚ) : State := ⟨initializeLedger .empty now, []⟩

end Prsm.DagLedger
