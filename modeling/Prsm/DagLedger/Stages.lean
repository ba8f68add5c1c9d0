import Prsm.DagLedger.Operations
import Prsm.Foundations.Protocol

/-!
# The stages of a submission

A submission takes the write lock, makes sure that both wallets exist, checks the balance inside a
savepoint, stores the row of the transaction, moves the tips and the weights, and then changes the
two balances with a commit after each.  `Stage` names the points of that path and `protocol` the
moves between them.

`Assertions` are what a property has to say of each stage.  Only the task with the lock
is in a stage that holds it, so what such a stage says of the connection and of the
memory is not disturbed by the other tasks, except where these do not need the lock.
-/

namespace Prsm.DagLedger

open Foundations

/-- Where a task is.  `known` tasks have found or stored a row; `tending` ones write to
wallets or nonces.  `dirty` says that a change of wallets or nonces is not committed.
Between `opened` and `undoing` a savepoint is set, and from `stored` on the row of the
transaction is in the table.  A statement that fails where nothing undoes it leads to
`spoiled` before that, and to `broken` after. -/
inductive Stage
  | outside
  | known (txId : String)
  | tending (dirty : Bool)
  | held (s : Submission) (dirty : Bool)
  | ready (s : Submission) (dirty : Bool)
  | opened (s : Submission) (w : String)
  | absent (s : Submission) (w : String)
  | found (s : Submission) (w : String) (row : BalanceRow)
  | inserted (s : Submission) (w : String)
  | weighed (s : Submission) (w : String) (balance : ℚ) (version : ℕ)
  | prepared (tx : DAGTransaction) (version : Option ℕ)
  | undoing
  | undone
  | spoiled
  | stored (tx : DAGTransaction) (version : Option ℕ)
  | recalled (tx : DAGTransaction) (version : Option ℕ) (txId : String)
  | mismatched (tx : DAGTransaction)
  | deducted (tx : DAGTransaction) (version : ℕ)
  | released (tx : DAGTransaction) (version : ℕ)
  | settled (tx : DAGTransaction)
  | credited (tx : DAGTransaction)
  | recorded (tx : DAGTransaction)
  | committed (tx : DAGTransaction)
  | broken

namespace Stage

/-- The stages with the lock. -/
def locked : Stage → Bool
  | outside | known _ => false
  | _ => true

/-- The stages with the lock in which no savepoint of the task is set and its row is not
stored. -/
def bare : Stage → Bool
  | tending _ | held _ _ | ready _ _ | prepared _ none => true
  | _ => false

/-- Those in which the savepoint is set. -/
def guarded : Stage → Bool
  | opened _ _ | absent _ _ | found _ _ _ | inserted _ _ | weighed _ _ _ _
  | prepared _ (some _) => true
  | _ => false

/-- Those in which the row is stored and a statement is awaited. -/
def late : Stage → Bool
  | stored _ _ | mismatched _ | deducted _ _ | settled _ | recorded _ => true
  | _ => false

end Stage

namespace Statement

/-- The changes of wallets and nonces. -/
def isTending : Statement → Bool
  | insertWallet _ _ | updateWallet _ _ | clearEthAddress _ | insertNonce _ _
  | deleteNonce _ => true
  | _ => false

/-- The statements of the node services. -/
def isService : Statement → Bool
  | service _ | commit .service => true
  | _ => false

/-- The statements that keep the graph. -/
def isGraph : Statement → Bool
  | deleteTip _ | insertTip _ | updateWeight _ _ _ => true
  | _ => false

/-- The statements of the clean-up. -/
def isUndo : Statement → Bool
  | rollbackTo | release .undone => true
  | _ => false

end Statement

variable (lib : Library) (verifySignatures : Bool)

/-- What a task sees between its awaits. -/
inductive Sees : Stage → Ledger → Stage → Prop
  | stay {st l} : Sees st l st
  | refuse {s l} : Sees (.ready s false) l .undone
  | giveUp {s w balance version l} : Sees (.weighed s w balance version) l .undoing
  | recall {l txId tx} (h : l.memory.transactions.get? txId = some tx) :
      Sees .outside l (.known txId)
  | cached {s w row l version} (h : l.memory.balanceVersionCache.get? w = some version) :
      Sees (.found s w row) l (.weighed s w row.balance version)
  | prepareCredit {s l tx} (hFrom : truthy s.fromWallet = none) (hAmount : 0 ≤ s.amount)
      (h : prepare lib verifySignatures s l = .ok tx) :
      Sees (.ready s false) l (.prepared tx none)
  | prepareDebit {s w balance version l tx} (hFrom : truthy s.fromWallet = some w)
      (hAmount : 0 ≤ s.amount) (hCovered : s.amount ≤ balance)
      (h : prepare lib verifySignatures s l = .ok tx) :
      Sees (.weighed s w balance version) l (.prepared tx (some version))
  | weigh {tx version l txId t} (h : l.memory.transactions.get? txId = some t) :
      Sees (.stored tx version) l (.recalled tx version txId)

/-- What a task writes to the memory. -/
inductive MemoryWrites : Stage → (Memory → Memory) → Stage → Prop
  | remember {txId tx} :
      MemoryWrites (.known txId)
        (fun m => { m with transactions := m.transactions.set txId tx }) (.known txId)
  | register {w key} :
      MemoryWrites (.tending false)
        (fun m => { m with walletPublicKeys := m.walletPublicKeys.set w key }) (.tending false)
  | registerOwn {s w key} (hFrom : truthy s.fromWallet = some w)
      (hKey : truthy s.publicKey = some key) :
      MemoryWrites (.held s false)
        (fun m => { m with walletPublicKeys := m.walletPublicKeys.set w key }) (.held s false)
  | cacheFound {s w row} :
      MemoryWrites (.found s w row)
        (fun m => { m with balanceVersionCache := m.balanceVersionCache.set w row.version })
        (.weighed s w row.balance row.version)
  | cacheInserted {s w} :
      MemoryWrites (.inserted s w)
        (fun m => { m with balanceVersionCache := m.balanceVersionCache.set w 1 })
        (.weighed s w 0 1)
  | tips {tx version} (f : List String → List String) :
      MemoryWrites (.stored tx version) (fun m => { m with tips := f m.tips }) (.stored tx version)
  | reweigh {tx version txId t} :
      MemoryWrites (.recalled tx version txId)
        (fun m => { m with transactions := m.transactions.set txId t }) (.stored tx version)
  | cacheDeducted {tx w version} (hFrom : truthy tx.fromWallet = some w) :
      MemoryWrites (.released tx version)
        (fun m => { m with balanceVersionCache := m.balanceVersionCache.set w (version + 1) })
        (.settled tx)
  | cacheCredited {tx} :
      MemoryWrites (.credited tx)
        (fun m => { m with
          balanceVersionCache := m.balanceVersionCache.set tx.toWallet
            ((m.balanceVersionCache.get? tx.toWallet).elim 1 (· + 1)) })
        (.recorded tx)
  | conclude {tx} :
      MemoryWrites (.committed tx)
        (fun m => { m with transactions := m.transactions.set tx.txId tx }) (.committed tx)

/-- Where a task is after it has released the lock. -/
inductive Unlocks : Stage → Stage → Prop
  | tending : Unlocks (.tending false) .outside
  | undone : Unlocks .undone .outside
  | spoiled : Unlocks .spoiled .outside
  | committed {tx} : Unlocks (.committed tx) (.known tx.txId)
  | broken : Unlocks .broken .outside

/-- Where a task is after the answer to a statement. -/
inductive Replies :
    Stage → (statement : Statement) → Except DbError (Value statement) → Stage → Prop
  | look {statement a} (h : statement.isSelect) : Replies .outside statement a .outside
  | find {txId tx} : Replies .outside (.selectTransaction txId) (.ok (some tx)) (.known txId)
  | service {statement a} (h : statement.isService) : Replies .outside statement a .outside
  | read {dirty statement v} (h : statement.isSelect) :
      Replies (.tending dirty) statement (.ok v) (.tending dirty)
  | tend {dirty statement v} (h : statement.isTending) :
      Replies (.tending dirty) statement (.ok v) (.tending true)
  | commitWallet {dirty} : Replies (.tending dirty) (.commit .wallet) (.ok ()) (.tending false)
  | commitNonce {dirty} : Replies (.tending dirty) (.commit .nonce) (.ok ()) (.tending false)
  | failBare {st statement e} (h : st.bare) : Replies st statement (.error e) .spoiled
  | failGuarded {st statement e} (h : st.guarded) : Replies st statement (.error e) .undoing
  | failLate {st statement e} (h : st.late) : Replies st statement (.error e) .broken
  | undo : Replies .undoing .rollbackTo (.ok ()) .undoing
  | undone : Replies .undoing (.release .undone) (.ok ()) .undone
  | failUndoing {statement e} : Replies .undoing statement (.error e) .spoiled
  | spoil {statement a} (h : statement.isUndo) : Replies .spoiled statement a .spoiled
  | patch {statement a} (h : statement.isUndo) : Replies .broken statement a .broken
  | payer {s dirty w row} :
      Replies (.held s dirty) (.selectWallet w) (.ok row) (.held s dirty)
  | createPayer {s dirty w row} :
      Replies (.held s dirty) (.insertWallet w row) (.ok ()) (.held s true)
  | commitPayer {s dirty} : Replies (.held s dirty) (.commit .wallet) (.ok ()) (.held s false)
  | payee {s dirty row} :
      Replies (.held s dirty) (.selectWallet s.toWallet) (.ok (some row)) (.ready s dirty)
  | createPayee {s dirty row} :
      Replies (.held s dirty) (.insertWallet s.toWallet row) (.ok ()) (.ready s true)
  | commitPayee {s dirty} : Replies (.ready s dirty) (.commit .wallet) (.ok ()) (.ready s false)
  | save {s w} (hFrom : truthy s.fromWallet = some w) :
      Replies (.ready s false) .savepoint (.ok ()) (.opened s w)
  | missing {s w} : Replies (.opened s w) (.selectBalance w) (.ok none) (.absent s w)
  | found {s w row} : Replies (.opened s w) (.selectBalance w) (.ok (some row)) (.found s w row)
  | insert {s w} : Replies (.absent s w) (.insertBalance w) (.ok ()) (.inserted s w)
  | deny {s w balance version} :
      Replies (.weighed s w balance version) (.release .denied) (.ok ()) .undone
  | store {tx version} :
      Replies (.prepared tx version) (.storeTransaction tx) (.ok ()) (.stored tx version)
  | graph {tx version statement v} (h : statement.isGraph) :
      Replies (.stored tx version) statement (.ok v) (.stored tx version)
  | commitRow {tx} (hFrom : truthy tx.fromWallet = none) :
      Replies (.stored tx none) (.commit .row) (.ok ()) (.settled tx)
  | deduct {tx w version} (hFrom : truthy tx.fromWallet = some w) :
      Replies (.stored tx (some version)) (.deductBalance w tx.amount version) (.ok true)
        (.deducted tx version)
  | mismatch {tx w version} (hFrom : truthy tx.fromWallet = some w) :
      Replies (.stored tx (some version)) (.deductBalance w tx.amount version) (.ok false)
        (.mismatched tx)
  | rollback {tx} : Replies (.mismatched tx) .rollbackTo (.ok ()) .undoing
  | release {tx version} :
      Replies (.deducted tx version) (.release .deducted) (.ok ()) (.released tx version)
  | credit {tx} :
      Replies (.settled tx) (.creditBalance tx.toWallet tx.amount) (.ok ()) (.credited tx)
  | commitEmpty {tx} (hTo : tx.toWallet = "") :
      Replies (.settled tx) (.commit (.submission tx.amount)) (.ok ()) (.committed tx)
  | commit {tx} :
      Replies (.recorded tx) (.commit (.submission tx.amount)) (.ok ()) (.committed tx)

/-- The stage of a task that has been given the lock. -/
def acquired : Option Submission → Stage
  | none => .tending false
  | some s => .held s false

/-- The stages of the ledger's calls. -/
def protocol : Protocol Ledger Request Answer Stage where
  Sees := Sees lib verifySignatures
  Writes := fun st f st' =>
    (∃ g, f = (fun l => { l with memory := g l.memory }) ∧ MemoryWrites st g st') ∨
      f = unlock ∧ Unlocks st st'
  Answers := fun st r answer st' =>
    match r, answer with
    | .execute statement, answer => Replies st statement answer st'
    | .acquireWriteLock submission, _ => st = .outside ∧ st' = acquired submission

/-! ## The calls keep to the protocol -/

section Walk

open Protocol

variable {lib verifySignatures} {α β : Type} {st : Stage} {s : Submission}
  {R : Except Error β → Stage → Prop}

variable {statement : Statement} {walletId w : String} {dirty : Bool}
variable {next : Value statement → Coroutine Ledger Request Answer Error β}

theorem follows_execute
    (hOk : ∀ v, ∃ st', Replies st statement (.ok v) st' ∧
      (protocol lib verifySignatures).Follows R st' (next v))
    (hError : ∀ e, ∃ st', Replies st statement (.error e) st' ∧ R (.error (.database e)) st') :
    (protocol lib verifySignatures).Follows R st ((execute statement).bind next) := by
  intro answer
  cases answer with
  | ok v => exact hOk v
  | error e => exact hError e

theorem follows_bare (hBare : st.bare)
    (hRaised : ∀ e, R (.error e) .spoiled)
    (hOk : ∀ v, ∃ st', Replies st statement (.ok v) st' ∧
      (protocol lib verifySignatures).Follows R st' (next v)) :
    (protocol lib verifySignatures).Follows R st ((execute statement).bind next) :=
  follows_execute hOk fun _ => ⟨.spoiled, .failBare hBare, hRaised _⟩

theorem follows_guarded (hGuarded : st.guarded)
    (hRaised : ∀ e, R (.error (.database e)) .undoing)
    (hOk : ∀ v, ∃ st', Replies st statement (.ok v) st' ∧
      (protocol lib verifySignatures).Follows R st' (next v)) :
    (protocol lib verifySignatures).Follows R st ((execute statement).bind next) :=
  follows_execute hOk fun e => ⟨.undoing, .failGuarded hGuarded, hRaised e⟩

theorem follows_late (hLate : st.late)
    (hRaised : ∀ e, R (.error e) .broken)
    (hOk : ∀ v, ∃ st', Replies st statement (.ok v) st' ∧
      (protocol lib verifySignatures).Follows R st' (next v)) :
    (protocol lib verifySignatures).Follows R st ((execute statement).bind next) :=
  follows_execute hOk fun _ => ⟨.broken, .failLate hLate, hRaised _⟩

theorem follows_staying
    (hStays : ∀ a, Replies st statement a st) (hRaised : ∀ e, R (.error e) st)
    (hOk : ∀ v, (protocol lib verifySignatures).Follows R st (next v)) :
    (protocol lib verifySignatures).Follows R st ((execute statement).bind next) :=
  follows_execute (fun v => ⟨st, hStays _, hOk v⟩) fun _ => ⟨st, hStays _, hRaised _⟩

theorem follows_rollbackBalanceCheck {R : Except Error Unit → Stage → Prop}
    (hUndone : R (.ok ()) .undone) (hSpoiled : R (.ok ()) .spoiled) :
    (protocol lib verifySignatures).Follows R .undoing rollbackBalanceCheck := by
  unfold rollbackBalanceCheck
  apply follows_tryCatch
  refine follows_execute (fun _ => ⟨.undoing, .undo, ?_⟩)
    fun e => ⟨.spoiled, .failUndoing, hSpoiled⟩
  intro answer
  cases answer with
  | ok v => exact ⟨.undone, .undone, hUndone⟩
  | error e => exact ⟨.spoiled, .failUndoing, hSpoiled⟩

theorem follows_rollbackBalanceCheck_of_failed {R : Except Error Unit → Stage → Prop}
    (h : st = .spoiled ∨ st = .broken) (hNext : R (.ok ()) st) :
    (protocol lib verifySignatures).Follows R st rollbackBalanceCheck := by
  have hUndo : ∀ {statement a}, statement.isUndo → Replies st statement a st := by
    rcases h with rfl | rfl
    · exact fun h => .spoil h
    · exact fun h => .patch h
  unfold rollbackBalanceCheck
  apply follows_tryCatch
  refine follows_staying (fun _ => hUndo rfl) (fun _ => hNext) fun _ answer => ?_
  refine ⟨st, hUndo rfl, ?_⟩
  cases answer with
  | ok v => exact hNext
  | error e => exact hNext

/-! ### The parties -/

theorem follows_createWalletImpl {displayName : String} {publicKey : Option String}
    {R : Except Error Unit → Stage → Prop} (hRaised : ∀ e, R (.error e) .spoiled)
    (hOwn : truthy publicKey = none ∨ truthy s.fromWallet = some walletId ∧
      publicKey = s.publicKey) (hOk : R (.ok ()) (.held s false)) :
    (protocol lib verifySignatures).Follows R (.held s false)
      (createWalletImpl walletId displayName publicKey) := by
  unfold createWalletImpl
  refine follows_bare rfl hRaised fun _ => ⟨.held s true, .createPayer, ?_⟩
  refine follows_bare rfl hRaised fun _ => ⟨.held s false, .commitPayer, ?_⟩
  cases hKey : truthy publicKey with
  | none => exact hOk
  | some key =>
      obtain hNone | ⟨hFrom, rfl⟩ := hOwn
      · rw [hKey] at hNone
        cases hNone
      · exact ⟨.held s false, Or.inl ⟨_, rfl, .registerOwn hFrom hKey⟩, hOk⟩

theorem follows_createPayee {R : Except Error Unit → Stage → Prop}
    (hRaised : ∀ e, R (.error e) .spoiled) (hOk : R (.ok ()) (.ready s false)) :
    (protocol lib verifySignatures).Follows R (.held s false) (do
      if !(← walletExists s.toWallet) then
        createWalletImpl s.toWallet (shortName s.toWallet) none) := by
  apply follows_bind
  refine follows_bare rfl hRaised fun row => ?_
  cases row with
  | some row => exact ⟨.ready s false, .payee, hOk⟩
  | none =>
      refine ⟨.held s false, .payer, ?_⟩
      refine follows_bare rfl hRaised fun _ => ⟨.ready s true, .createPayee, ?_⟩
      exact follows_bare rfl hRaised fun _ => ⟨.ready s false, .commitPayee, hOk⟩

theorem follows_createParties {R : Except Error Unit → Stage → Prop}
    (hRaised : ∀ e, R (.error e) .spoiled) (hOk : R (.ok ()) (.ready s false)) :
    (protocol lib verifySignatures).Follows R (.held s false) (createParties s) := by
  unfold createParties
  have hPayee : (protocol lib verifySignatures).Follows R (.held s false) _ :=
    follows_createPayee hRaised hOk
  cases hFrom : truthy s.fromWallet with
  | none => exact hPayee
  | some fromWallet =>
      apply follows_bind
      refine follows_bare rfl hRaised fun row => ⟨.held s false, .payer, ?_⟩
      cases row with
      | some row => exact hPayee
      | none =>
          apply follows_bind
          exact follows_createWalletImpl hRaised (Or.inr ⟨hFrom, rfl⟩) hPayee

/-! ### The balance check -/

theorem follows_getOrCreateBalanceCache {R : Except Error (ℚ × ℕ) → Stage → Prop}
    (hRaised : ∀ e, R (.error e) .undoing)
    (hOk : ∀ balance version, R (.ok (balance, version)) (.weighed s w balance version)) :
    (protocol lib verifySignatures).Follows R (.opened s w) (getOrCreateBalanceCache w) := by
  unfold getOrCreateBalanceCache
  refine follows_guarded rfl (fun _ => hRaised _) fun row => ?_
  cases row with
  | some row =>
      refine ⟨.found s w row, .found, fun l => ?_⟩
      cases hCached : l.memory.balanceVersionCache.get? w with
      | some version =>
          refine ⟨.weighed s w row.balance version, .cached hCached, ?_⟩
          simp only [Coroutine.bind_returned, hCached]
          exact hOk row.balance version
      | none =>
          refine ⟨.found s w row, .stay, ?_⟩
          simp only [Coroutine.bind_returned, hCached]
          refine ⟨.weighed s w row.balance row.version, Or.inl ⟨_, rfl, .cacheFound⟩, ?_⟩
          exact hOk row.balance row.version
  | none =>
      refine ⟨.absent s w, .missing, ?_⟩
      refine follows_guarded rfl (fun _ => hRaised _) fun _ => ⟨.inserted s w, .insert, ?_⟩
      exact ⟨.weighed s w 0 1, Or.inl ⟨_, rfl, .cacheInserted⟩, hOk 0 1⟩

theorem follows_checkBalanceAtomic {R : Except Error (Bool × ℚ × ℕ) → Stage → Prop}
    (hFrom : truthy s.fromWallet = some w) (hUndone : ∀ e, R (.error e) .undone)
    (hSpoiled : ∀ e, R (.error e) .spoiled)
    (hDenied : ∀ balance version, R (.ok (false, balance, version)) .undone)
    (hOk : ∀ balance version, s.amount ≤ balance →
      R (.ok (true, balance, version)) (.weighed s w balance version)) :
    (protocol lib verifySignatures).Follows R (.ready s false)
      (checkBalanceAtomic w s.amount) := by
  unfold checkBalanceAtomic
  apply follows_tryCatch
  have hRaise : ∀ (e : Error) (st : Stage), (∀ e, R (.error e) st) →
      (protocol lib verifySignatures).Follows R st
        (if e = .database (.fault true) then .raised (.balanceLock w) else .raised e) := by
    intro e st hHere
    by_cases hLocked : e = .database (.fault true)
    · rw [if_pos hLocked]
      exact hHere _
    · rw [if_neg hLocked]
      exact hHere _
  have hHandler : ∀ e : Error, (protocol lib verifySignatures).Follows R .undoing
      (rollbackBalanceCheck.bind fun _ =>
        if e = .database (.fault true) then .raised (.balanceLock w) else .raised e) := by
    intro e
    apply follows_bind
    exact follows_rollbackBalanceCheck (hRaise e .undone hUndone) (hRaise e .spoiled hSpoiled)
  have hFailed : ∀ e : Error, (protocol lib verifySignatures).Follows R .spoiled
      (rollbackBalanceCheck.bind fun _ =>
        if e = .database (.fault true) then .raised (.balanceLock w) else .raised e) := by
    intro e
    apply follows_bind
    exact follows_rollbackBalanceCheck_of_failed (Or.inl rfl) (hRaise e .spoiled hSpoiled)
  refine follows_bare rfl hFailed fun _ => ⟨.opened s w, .save hFrom, ?_⟩
  apply follows_bind
  refine follows_getOrCreateBalanceCache hHandler fun balance version => ?_
  by_cases hCovered : balance < s.amount
  · simp only [Ends, hCovered, if_true]
    exact follows_guarded rfl (fun _ => hHandler _) fun _ =>
      ⟨.undone, .deny, hDenied balance version⟩
  · simp only [Ends, hCovered, if_false]
    exact hOk balance version (not_lt.mp hCovered)

/-! ### The writes -/

variable {tx : DAGTransaction} {version : Option ℕ}

theorem follows_discardTips {R : Except Error Unit → Stage → Prop}
    (hRaised : ∀ e, R (.error e) .broken) (hOk : R (.ok ()) (.stored tx version))
    (parentIds : List String) :
    (protocol lib verifySignatures).Follows R (.stored tx version) (discardTips parentIds) := by
  induction parentIds with
  | nil => exact hOk
  | cons parentId rest ih =>
      intro l
      refine ⟨.stored tx version, .stay, ?_⟩
      by_cases hTip : parentId ∈ l.memory.tips
      · simp only [hTip, decide_true]
        refine ⟨.stored tx version, Or.inl ⟨_, rfl, .tips (removeTip parentId)⟩, ?_⟩
        exact follows_late rfl hRaised fun _ => ⟨.stored tx version, .graph rfl, ih⟩
      · simp only [hTip, decide_false]
        exact ih

theorem follows_updateQueue {R : Except Error Unit → Stage → Prop}
    (hRaised : ∀ e, R (.error e) .broken) (hOk : R (.ok ()) (.stored tx version)) (rounds : ℕ)
    (queue updated : List String) :
    (protocol lib verifySignatures).Follows R (.stored tx version)
      (updateQueue rounds queue updated) := by
  induction rounds generalizing queue updated with
  | zero => exact hOk
  | succ rounds ih =>
      cases queue with
      | nil => exact hOk
      | cons txId queue =>
          unfold updateQueue
          by_cases hUpdated : txId ∈ updated
          · rw [if_pos hUpdated]
            exact ih queue updated
          · rw [if_neg hUpdated]
            intro l
            cases hHere : l.memory.transactions.get? txId with
            | none =>
                refine ⟨.stored tx version, .stay, ?_⟩
                simp only [hHere]
                exact ih queue (txId :: updated)
            | some t =>
                refine ⟨.recalled tx version txId, .weigh hHere, ?_⟩
                simp only [hHere]
                refine ⟨.stored tx version, Or.inl ⟨_, rfl, .reweigh⟩, ?_⟩
                refine follows_late rfl hRaised fun _ => ⟨.stored tx version, .graph rfl, ?_⟩
                exact fun l' => ⟨.stored tx version, .stay, ih _ _⟩

theorem follows_commitBalanceDeduction {version : ℕ}
    {R : Except Error Unit → Stage → Prop} (hFrom : truthy tx.fromWallet = some w)
    (hUndone : ∀ e, e.isAtomic → R (.error e) .undone) (hSpoiled : ∀ e, R (.error e) .spoiled)
    (hRaised : ∀ e, R (.error e) .broken) (hOk : R (.ok ()) (.settled tx)) :
    (protocol lib verifySignatures).Follows R (.stored tx (some version))
      (commitBalanceDeduction w tx.amount version) := by
  unfold commitBalanceDeduction
  refine follows_late rfl hRaised fun deducted => ?_
  cases deducted with
  | false =>
      refine ⟨.mismatched tx, .mismatch hFrom, ?_⟩
      refine follows_late rfl hRaised fun _ => ⟨.undoing, .rollback, ?_⟩
      refine follows_execute (fun _ => ⟨.undone, .undone, ?_⟩)
        fun _ => ⟨.spoiled, .failUndoing, hSpoiled _⟩
      exact hUndone _ rfl
  | true =>
      refine ⟨.deducted tx version, .deduct hFrom, ?_⟩
      refine follows_late rfl hRaised fun _ => ⟨.released tx version, .release, ?_⟩
      exact ⟨.settled tx, Or.inl ⟨_, rfl, .cacheDeducted hFrom⟩, hOk⟩

theorem follows_commitBalanceCredit {R : Except Error Unit → Stage → Prop}
    (hRaised : ∀ e, R (.error e) .broken) (hOk : R (.ok ()) (.recorded tx)) :
    (protocol lib verifySignatures).Follows R (.settled tx)
      (commitBalanceCredit tx.toWallet tx.amount) := by
  unfold commitBalanceCredit
  refine follows_late rfl hRaised fun _ => ⟨.credited tx, .credit, ?_⟩
  exact ⟨.recorded tx, Or.inl ⟨_, rfl, .cacheCredited⟩, hOk⟩

theorem follows_settle {R : Except Error DAGTransaction → Stage → Prop}
    (hRaised : ∀ e, R (.error e) .broken) (hOk : R (.ok tx) (.committed tx)) :
    (protocol lib verifySignatures).Follows R (.settled tx) (do
      if tx.toWallet ≠ "" then
        commitBalanceCredit tx.toWallet tx.amount
      execute (.commit (.submission tx.amount))
      modifyMemory fun m => { m with transactions := m.transactions.set tx.txId tx }
      return tx) := by
  have hConclude : (protocol lib verifySignatures).Follows R (.committed tx)
      ((modifyMemory fun m => { m with transactions := m.transactions.set tx.txId tx }).bind
        fun _ => .returned tx) :=
    ⟨.committed tx, Or.inl ⟨_, rfl, .conclude⟩, hOk⟩
  by_cases hTo : tx.toWallet = ""
  · simp only [hTo, ne_eq, not_true_eq_false, if_false]
    exact follows_late rfl hRaised fun _ => ⟨.committed tx, .commitEmpty hTo, hConclude⟩
  · simp only [ne_eq, hTo, not_false_eq_true, if_true]
    apply follows_bind
    refine follows_commitBalanceCredit hRaised ?_
    exact follows_late rfl hRaised fun _ => ⟨.committed tx, .commit, hConclude⟩

theorem follows_writeTransaction {checked : Option (String × ℕ)}
    {R : Except Error DAGTransaction → Stage → Prop} (hAmount : s.amount = tx.amount)
    (hTo : s.toWallet = tx.toWallet) (hFrom : truthy tx.fromWallet = checked.map Prod.fst)
    (hFailed : ∀ e, ∃ st', Replies (.prepared tx (checked.map Prod.snd)) (.storeTransaction tx)
      (.error e) st' ∧ R (.error (.database e)) st')
    (hUndone : ∀ e, e.isAtomic → R (.error e) .undone) (hSpoiled : ∀ e, R (.error e) .spoiled)
    (hRaised : ∀ e, R (.error e) .broken) (hOk : R (.ok tx) (.committed tx)) :
    (protocol lib verifySignatures).Follows R (.prepared tx (checked.map Prod.snd))
      (writeTransaction s checked tx) := by
  unfold writeTransaction
  rw [hAmount, hTo]
  refine follows_execute (fun _ => ⟨.stored tx (checked.map Prod.snd), .store, ?_⟩) hFailed
  apply follows_bind
  refine follows_discardTips hRaised ?_ _
  refine ⟨.stored tx (checked.map Prod.snd), Or.inl ⟨_, rfl, .tips (addTip tx.txId)⟩, ?_⟩
  refine follows_late rfl hRaised fun _ => ⟨.stored tx (checked.map Prod.snd), .graph rfl, ?_⟩
  apply follows_bind
  intro l
  refine ⟨.stored tx (checked.map Prod.snd), .stay, ?_⟩
  refine follows_updateQueue hRaised ?_ _ _ _
  cases checked with
  | none =>
      refine follows_late rfl hRaised fun _ => ⟨.settled tx, .commitRow hFrom, ?_⟩
      exact follows_settle hRaised hOk
  | some checked =>
      apply follows_bind
      exact follows_commitBalanceDeduction hFrom hUndone hSpoiled hRaised
        (follows_settle hRaised hOk)

/-! ### Submissions -/

/-- The identifier of the row that a submission stores. -/
def Submission.rowId (s : Submission) : String := (truthy s.idempotentTxId).getD s.txId

theorem of_prepare {l : Ledger} (h : prepare lib verifySignatures s l = .ok tx) :
    tx = buildTransaction lib s l ∧
      (verifySignatures && isSignatureRequired s.txType s.fromWallet →
        ∃ signature key, truthy s.signature = some signature ∧ l.memory.verifyKey s = some key ∧
          lib.verifySignature (lib.hash tx) signature key) := by
  unfold prepare at h
  by_cases hRequired : (verifySignatures && isSignatureRequired s.txType s.fromWallet) = true
  · simp only [hRequired, if_true] at h
    cases hSignature : truthy s.signature with
    | none => simp [hSignature] at h
    | some signature =>
        cases hKey : l.memory.verifyKey s with
        | none => simp [hSignature, hKey] at h
        | some key =>
            simp only [hSignature, hKey] at h
            split at h
            case isTrue hVerified =>
                cases h
                exact ⟨rfl, fun _ => ⟨signature, key, rfl, rfl, hVerified⟩⟩
            case isFalse => cases h
  · simp only [hRequired] at h
    cases h
    exact ⟨rfl, fun h => absurd h hRequired⟩

theorem not_atomic_of_prepare {l : Ledger} {e : Error}
    (h : prepare lib verifySignatures s l = .error e) : e.isAtomic = false := by
  unfold prepare at h
  by_cases hRequired : (verifySignatures && isSignatureRequired s.txType s.fromWallet) = true
  · simp only [hRequired, if_true] at h
    cases hSignature : truthy s.signature with
    | none =>
        simp only [hSignature] at h
        cases h
        rfl
    | some signature =>
        cases hKey : l.memory.verifyKey s with
        | none =>
            simp only [hSignature, hKey] at h
            cases h
            rfl
        | some key =>
            simp only [hSignature, hKey] at h
            split at h
            · cases h
            · cases h
              rfl
  · simp only [hRequired] at h
    cases h

theorem follows_recordTransaction {checked : Option (String × ℕ)} {refused : Stage}
    {R : Except Error DAGTransaction → Stage → Prop}
    (hFrom : truthy s.fromWallet = checked.map Prod.fst)
    (hPrepare : ∀ l tx, prepare lib verifySignatures s l = .ok tx →
      Sees lib verifySignatures st l (.prepared tx (checked.map Prod.snd)))
    (hRefuse : ∀ l, Sees lib verifySignatures st l refused)
    (hRefused : ∀ e, e.isAtomic = false → R (.error e) refused)
    (hFailed : ∀ tx e, ∃ st', Replies (.prepared tx (checked.map Prod.snd)) (.storeTransaction tx)
      (.error e) st' ∧ R (.error (.database e)) st')
    (hUndone : ∀ e, e.isAtomic → R (.error e) .undone) (hSpoiled : ∀ e, R (.error e) .spoiled)
    (hRaised : ∀ e, R (.error e) .broken)
    (hOk : ∀ tx, tx.txId = s.rowId → R (.ok tx) (.committed tx)) :
    (protocol lib verifySignatures).Follows R st
      (recordTransaction lib verifySignatures s checked) := by
  intro l
  cases hPrepared : prepare lib verifySignatures s l with
  | error e =>
      refine ⟨refused, hRefuse l, ?_⟩
      simp only [Coroutine.bind_returned, hPrepared]
      exact hRefused e (not_atomic_of_prepare hPrepared)
  | ok tx =>
      refine ⟨.prepared tx (checked.map Prod.snd), hPrepare l tx hPrepared, ?_⟩
      simp only [Coroutine.bind_returned, hPrepared]
      obtain ⟨rfl, -⟩ := of_prepare hPrepared
      exact follows_writeTransaction rfl rfl hFrom (hFailed _) hUndone hSpoiled hRaised (hOk _ rfl)

/-- How the part of a submission that holds the lock ends. -/
def Submitted (s : Submission) : Except Error DAGTransaction → Stage → Prop
  | .ok tx, st => st = .committed tx ∧ tx.txId = s.rowId
  | .error _, st => st = .undone ∨ st = .spoiled ∨ st = .broken

theorem follows_handled {p : Coroutine Ledger Request Answer Error DAGTransaction}
    (h : (protocol lib verifySignatures).Follows
      (Ends (fun tx st => Submitted s (.ok tx) st) fun e st =>
        (st = .undoing ∧ e.isAtomic = false) ∨ (st = .undone ∧ e.isAtomic) ∨ st = .spoiled ∨
          st = .broken) st p) :
    (protocol lib verifySignatures).Follows (Submitted s) st (p.tryCatch fun e => do
      if !e.isAtomic then
        rollbackBalanceCheck
      throw e) := by
  apply follows_tryCatch
  apply h.imp
  rintro (e | tx) st hEnds
  · by_cases hAtomic : e.isAtomic = true
    · simp only [Ends, hAtomic, Bool.not_true, Bool.false_eq_true, if_false]
      obtain ⟨-, h⟩ | ⟨rfl, -⟩ | hStage := hEnds
      · rw [hAtomic] at h
        cases h
      · exact Or.inl rfl
      · exact Or.inr hStage
    · simp only [Ends, hAtomic, Bool.not_false, if_true]
      apply follows_bind
      obtain ⟨rfl, -⟩ | ⟨-, h⟩ | hStage := hEnds
      · exact follows_rollbackBalanceCheck (Or.inl rfl) (Or.inr (Or.inl rfl))
      · exact absurd h hAtomic
      · exact follows_rollbackBalanceCheck_of_failed hStage (Or.inr hStage)
  · exact hEnds

theorem follows_submitLocked (hAmount : 0 ≤ s.amount) :
    (protocol lib verifySignatures).Follows (Submitted s) (.held s false)
      (submitLocked lib verifySignatures s) := by
  unfold submitLocked
  apply follows_bind
  refine follows_createParties (fun _ => Or.inr (Or.inl rfl)) ?_
  cases hFrom : truthy s.fromWallet with
  | none =>
      exact follows_recordTransaction hFrom (fun l tx h => .prepareCredit hFrom hAmount h)
        (fun l => .refuse) (fun _ _ => Or.inl rfl)
        (fun tx e => ⟨.spoiled, .failBare rfl, Or.inr (Or.inl rfl)⟩) (fun _ _ => Or.inl rfl)
        (fun _ => Or.inr (Or.inl rfl)) (fun _ => Or.inr (Or.inr rfl)) fun tx hId => ⟨rfl, hId⟩
  | some w =>
      apply follows_bind
      refine follows_checkBalanceAtomic hFrom (fun _ => Or.inl rfl) (fun _ => Or.inr (Or.inl rfl))
        (fun balance version => ?_) fun balance version hCovered => ?_
      · exact follows_handled (Or.inr (Or.inl ⟨rfl, rfl⟩))
      · apply follows_handled
        exact follows_recordTransaction hFrom
          (fun l tx h => .prepareDebit hFrom hAmount hCovered h) (fun l => .giveUp)
          (fun _ h => Or.inl ⟨rfl, h⟩)
          (fun tx e => ⟨.undoing, .failGuarded rfl, Or.inl ⟨rfl, rfl⟩⟩)
          (fun _ h => Or.inr (Or.inl ⟨rfl, h⟩)) (fun _ => Or.inr (Or.inr (Or.inl rfl)))
          (fun _ => Or.inr (Or.inr (Or.inr rfl))) fun tx hId => ⟨rfl, hId⟩

theorem follows_withWriteLock {submission : Option Submission}
    {body : Coroutine Ledger Request Answer Error β}
    (h : (protocol lib verifySignatures).Follows (fun r st => ∃ st', Unlocks st st' ∧ R r st')
      (acquired submission) body) :
    (protocol lib verifySignatures).Follows R .outside (withWriteLock submission body) := by
  intro answer
  refine ⟨acquired submission, ⟨rfl, rfl⟩, ?_⟩
  apply follows_andFinally
  apply h.imp
  rintro r st ⟨st', hUnlocks, hEnds⟩
  exact ⟨st', Or.inr ⟨rfl, hUnlocks⟩, hEnds⟩

theorem follows_getTransaction {txId : String}
    {R : Except Error (Option DAGTransaction) → Stage → Prop}
    (hRaised : ∀ e, R (.error e) .outside) (hNone : R (.ok none) .outside)
    (hFound : ∀ tx, R (.ok (some tx)) (.known txId)) :
    (protocol lib verifySignatures).Follows R .outside (getTransaction txId) := by
  intro l
  cases hCached : l.memory.transactions.get? txId with
  | some tx =>
      refine ⟨.known txId, .recall hCached, ?_⟩
      simp only [Coroutine.bind_returned, hCached]
      exact hFound tx
  | none =>
      refine ⟨.outside, .stay, ?_⟩
      simp only [Coroutine.bind_returned, hCached]
      refine follows_execute (fun row => ?_) fun e => ⟨.outside, .look rfl, hRaised _⟩
      cases row with
      | none => exact ⟨.outside, .look rfl, hNone⟩
      | some tx =>
          exact ⟨.known txId, .find, .known txId, Or.inl ⟨_, rfl, .remember⟩, hFound tx⟩

theorem follows_submitTransaction {R : Except Error DAGTransaction → Stage → Prop}
    (hRaised : ∀ e, R (.error e) .outside)
    (hFound : ∀ txId tx, s.idempotentTxId = some txId → R (.ok tx) (.known txId))
    (hStored : ∀ tx, R (.ok tx) (.known s.rowId)) :
    (protocol lib verifySignatures).Follows R .outside
      (submitTransaction lib verifySignatures s) := by
  unfold submitTransaction
  by_cases hAmount : s.amount < 0
  · simp only [hAmount, if_true]
    exact hRaised _
  · simp only [hAmount, if_false]
    have hLocked : (protocol lib verifySignatures).Follows R .outside
        (withWriteLock (some s) (submitLocked lib verifySignatures s)) := by
      apply follows_withWriteLock
      apply (follows_submitLocked (not_lt.mp hAmount)).imp
      rintro (e | tx) st hEnds
      · rcases hEnds with rfl | rfl | rfl
        · exact ⟨.outside, .undone, hRaised e⟩
        · exact ⟨.outside, .spoiled, hRaised e⟩
        · exact ⟨.outside, .broken, hRaised e⟩
      · obtain ⟨rfl, hId⟩ := hEnds
        exact ⟨.known tx.txId, .committed, hId ▸ hStored tx⟩
    cases hIdempotent : s.idempotentTxId with
    | none => exact hLocked
    | some txId =>
        apply follows_bind
        exact follows_getTransaction (fun _ => hRaised _) hLocked fun tx =>
          hFound txId tx hIdempotent

/-! ### The other calls -/

/-- How a task that has the lock for another write ends. -/
def Tended {α : Type} : Except Error α → Stage → Prop
  | .ok _, st => st = .tending false
  | .error _, st => st = .tending false ∨ st = .spoiled

theorem follows_tending {p : Coroutine Ledger Request Answer Error β}
    (h : (protocol lib verifySignatures).Follows Tended (.tending false) p)
    (hEnds : ∀ r, R r .outside) :
    (protocol lib verifySignatures).Follows R .outside (withWriteLock none p) := by
  apply follows_withWriteLock
  apply h.imp
  rintro (e | v) st hStage
  · rcases hStage with rfl | rfl
    · exact ⟨.outside, .tending, hEnds _⟩
    · exact ⟨.outside, .spoiled, hEnds _⟩
  · cases hStage
    exact ⟨.outside, .tending, hEnds _⟩

theorem follows_tend (hTending : statement.isTending)
    (h : ∀ v, (protocol lib verifySignatures).Follows Tended (.tending true) (next v)) :
    (protocol lib verifySignatures).Follows Tended (.tending dirty)
      ((execute statement).bind next) :=
  follows_bare rfl (fun _ => Or.inr rfl) fun v => ⟨.tending true, .tend hTending, h v⟩

theorem follows_tendRead (hSelect : statement.isSelect)
    (h : ∀ v, (protocol lib verifySignatures).Follows Tended (.tending false) (next v)) :
    (protocol lib verifySignatures).Follows Tended (.tending false)
      ((execute statement).bind next) :=
  follows_bare rfl (fun _ => Or.inr rfl) fun v => ⟨.tending false, .read hSelect, h v⟩

theorem follows_tendCommit {barrier : Barrier}
    (hBarrier : barrier = .wallet ∨ barrier = .nonce)
    {next : Unit → Coroutine Ledger Request Answer Error β}
    (h : (protocol lib verifySignatures).Follows Tended (.tending false) (next ())) :
    (protocol lib verifySignatures).Follows Tended (.tending dirty)
      ((execute (.commit barrier)).bind next) := by
  refine follows_bare rfl (fun _ => Or.inr rfl) fun _ => ⟨.tending false, ?_, h⟩
  rcases hBarrier with rfl | rfl
  · exact .commitWallet
  · exact .commitNonce

theorem follows_tendCommit_last :
    (protocol lib verifySignatures).Follows Tended (.tending dirty)
      (execute (.commit .wallet)) := by
  intro answer
  cases answer with
  | ok v => exact ⟨.tending false, .commitWallet, rfl⟩
  | error e => exact ⟨.spoiled, .failBare rfl, Or.inr rfl⟩

theorem follows_createWallet {displayName : String} {publicKey : Option String}
    {R : Except Error Unit → Stage → Prop} (hEnds : ∀ r, R r .outside) :
    (protocol lib verifySignatures).Follows R .outside
      (createWallet walletId displayName publicKey) := by
  refine follows_tending ?_ hEnds
  refine follows_tend rfl fun _ => follows_tendCommit (Or.inl rfl) ?_
  cases truthy publicKey with
  | none => rfl
  | some key => exact ⟨.tending false, Or.inl ⟨_, rfl, .register⟩, rfl⟩

theorem follows_bumpWithdrawNonce {R : Except Error ℕ → Stage → Prop}
    (hEnds : ∀ r, R r .outside) :
    (protocol lib verifySignatures).Follows R .outside (bumpWithdrawNonce walletId) := by
  refine follows_tending (follows_tendRead rfl fun row => ?_) hEnds
  cases row with
  | none => exact Or.inl rfl
  | some row => exact follows_tend rfl fun _ => follows_tendCommit (Or.inl rfl) rfl

theorem follows_compareAndBumpWithdrawNonce {expected : ℤ}
    {R : Except Error (Option ℕ) → Stage → Prop} (hEnds : ∀ r, R r .outside) :
    (protocol lib verifySignatures).Follows R .outside
      (compareAndBumpWithdrawNonce walletId expected) := by
  refine follows_tending (follows_tendRead rfl fun row => ?_) hEnds
  cases row with
  | none => exact Or.inl rfl
  | some row =>
      dsimp only
      by_cases hExpected : (row.nextWithdrawNonce : ℤ) ≠ expected
      · rw [if_pos hExpected]
        rfl
      · rw [if_neg hExpected]
        exact follows_tend rfl fun _ => follows_tendCommit (Or.inl rfl) rfl

theorem follows_setRequiresUserSignature {enabled : Bool}
    {R : Except Error Unit → Stage → Prop} (hEnds : ∀ r, R r .outside) :
    (protocol lib verifySignatures).Follows R .outside
      (setRequiresUserSignature walletId enabled) := by
  refine follows_tending (follows_tendRead rfl fun row => ?_) hEnds
  cases row with
  | none => exact Or.inl rfl
  | some row => exact follows_tend rfl fun _ => follows_tendCommit_last

theorem follows_linkEthAddress {ethAddress : String}
    {R : Except Error Unit → Stage → Prop} (hEnds : ∀ r, R r .outside) :
    (protocol lib verifySignatures).Follows R .outside
      (linkEthAddress lib walletId ethAddress) := by
  unfold linkEthAddress
  by_cases hWallet : walletId = ""
  · simp only [hWallet, if_true]
    exact hEnds _
  · simp only [hWallet, if_false]
    by_cases hPrefix : (!ethAddress.startsWith "0x") = true
    · simp only [hPrefix, if_true]
      exact hEnds _
    · simp only [hPrefix]
      refine follows_tending ?_ hEnds
      exact follows_tend rfl fun _ => follows_tend rfl fun _ => follows_tend rfl fun _ =>
        follows_tendCommit_last

theorem follows_recordNonce {nonce origin : String} {R : Except Error Bool → Stage → Prop}
    (hEnds : ∀ r, R r .outside) :
    (protocol lib verifySignatures).Follows R .outside (recordNonce nonce origin) := by
  refine follows_tending ?_ hEnds
  exact follows_tend rfl fun _ => follows_tendCommit (Or.inr rfl) rfl

theorem follows_releaseNonce {nonce : String} {R : Except Error Bool → Stage → Prop}
    (hEnds : ∀ r, R r .outside) :
    (protocol lib verifySignatures).Follows R .outside (releaseNonce nonce) := by
  refine follows_tending ?_ hEnds
  exact follows_tend rfl fun _ => follows_tendCommit (Or.inr rfl) rfl

theorem follows_look (hSelect : statement.isSelect)
    (hRaised : ∀ e, R (.error e) .outside)
    (h : ∀ v, (protocol lib verifySignatures).Follows R .outside (next v)) :
    (protocol lib verifySignatures).Follows R .outside ((execute statement).bind next) :=
  follows_staying (fun _ => .look hSelect) hRaised h

theorem follows_getBalance {R : Except Error ℚ → Stage → Prop}
    (hRaised : ∀ e, R (.error e) .outside) (hOk : ∀ balance, R (.ok balance) .outside) :
    (protocol lib verifySignatures).Follows R .outside (getBalance walletId) :=
  follows_look rfl hRaised fun _ => follows_look rfl hRaised fun _ => hOk _

theorem follows_changeService {statement : ServiceStatement} {R : Except Error ℕ → Stage → Prop}
    (hEnds : ∀ r, R r .outside) :
    (protocol lib verifySignatures).Follows R .outside (changeService statement) := by
  refine follows_staying (fun _ => .service rfl) (fun _ => hEnds _) fun _ => ?_
  exact follows_staying (fun _ => .service rfl) (fun _ => hEnds _) fun _ => hEnds _

theorem follows_getAgentAllowance {agentId : String}
    {R : Except Error (Option Allowance) → Stage → Prop} (hEnds : ∀ r, R r .outside) :
    (protocol lib verifySignatures).Follows R .outside (getAgentAllowance agentId) := by
  refine follows_look rfl (fun _ => hEnds _) fun row => ?_
  cases row with
  | none => exact hEnds _
  | some row =>
      intro l
      refine ⟨.outside, .stay, ?_⟩
      simp only [Coroutine.bind_returned]
      by_cases hRolled : row.epochHours * 3600 ≤ l.now - row.epochStart
      · simp only [hRolled, if_true]
        apply follows_bind
        apply follows_bind
        refine follows_changeService fun r => ?_
        cases r with
        | ok changed => exact hEnds _
        | error e => exact hEnds _
      · simp only [hRolled, if_false]
        exact hEnds _

end Walk

/-- The row of a call that is idempotent. -/
def Call.rowId : Call → Option String
  | .submitTransaction s => truthy s.idempotentTxId
  | .credit _ _ _ _ _ _ idempotencyKey _ => (truthy idempotencyKey).map (idempotentTxId lib)
  | .issueWelcomeGrant walletId _ _ _ =>
      some (idempotentTxId lib ("welcome-grant:" ++ walletId))
  | _ => none

/-- How a call ends: without the lock, and if it raises, where it began. -/
def Ending (c : Call) : Except Error Unit → Stage → Prop
  | .ok _, st => st.locked = false ∧ ∀ txId, c.rowId lib = some txId → st = .known txId
  | .error _, st => st = .outside

variable {lib verifySignatures}

theorem ending_outside {c : Call} (hRow : c.rowId lib = none) (r : Except Error Unit) :
    Ending lib c r .outside := by
  cases r with
  | ok u => exact ⟨rfl, fun txId h => by simp [hRow] at h⟩
  | error e => rfl

theorem truthy_idempotentTxId (idempotencyKey : Option String) :
    truthy (idempotencyKey.map (idempotentTxId lib)) =
      idempotencyKey.map (idempotentTxId lib) := by
  cases idempotencyKey with
  | none => rfl
  | some key =>
      have hNonempty : idempotentTxId lib key ≠ "" := by
        intro hEmpty
        have hLength := congrArg String.length hEmpty
        simp [idempotentTxId, String.length_append] at hLength
      simp [truthy, hNonempty]

theorem follows_submission {c : Call} {s : Submission}
    {R : Except Error DAGTransaction → Stage → Prop}
    (hRow : c.rowId lib = truthy s.idempotentTxId)
    (hRaised : ∀ e, R (.error e) .outside)
    (hOk : ∀ tx st, Ending lib c (.ok ()) st → R (.ok tx) st) :
    (protocol lib verifySignatures).Follows R .outside
      (submitTransaction lib verifySignatures s) := by
  have hKnown : ∀ id, (∀ txId, c.rowId lib = some txId → txId = id) →
      Ending lib c (.ok ()) (.known id) :=
    fun id h => ⟨rfl, fun txId hTxId => by rw [h txId hTxId]⟩
  refine follows_submitTransaction hRaised (fun txId tx hId => hOk tx _ (hKnown _ ?_))
    fun tx => hOk tx _ (hKnown _ ?_)
  · intro id hRowId
    rw [hRow, hId] at hRowId
    exact (Option.filter_eq_some_iff.mp hRowId).1 |> Option.some.inj |>.symm
  · intro id hRowId
    rw [hRow] at hRowId
    rw [Submission.rowId, hRowId, Option.getD_some]

theorem follows_body (c : Call) :
    (protocol lib verifySignatures).Follows (Ending lib c) .outside
      (body lib verifySignatures c) := by
  have hAny : ∀ {α : Type} {p : Method α},
      (∀ {R : Except Error α → Stage → Prop}, (∀ r, R r .outside) →
        (protocol lib verifySignatures).Follows R .outside p) → c.rowId lib = none →
      (protocol lib verifySignatures).Follows (Ending lib c) .outside (discard p) := by
    intro α p h hRow
    apply Protocol.follows_bind
    refine h fun r => ?_
    cases r with
    | ok v => exact ending_outside hRow (.ok ())
    | error e => rfl
  cases c with
  | submitTransaction s =>
      apply Protocol.follows_bind
      exact follows_submission rfl (fun _ => rfl) fun _ _ h => h
  | approveTransaction approverWallet txId drawn =>
      apply Protocol.follows_bind
      intro l
      refine ⟨.outside, .stay, ?_⟩
      cases hHere : l.memory.transactions.get? txId with
      | none =>
          simp only [Coroutine.bind_returned, hHere]
          exact ending_outside rfl (.ok ())
      | some tx =>
          simp only [Coroutine.bind_returned, hHere]
          apply Protocol.follows_bind
          exact follows_submission rfl (fun _ => rfl) fun _ _ h => h
  | transfer fromWallet toWallet amount description signature publicKey drawn =>
      apply Protocol.follows_bind
      exact follows_submission rfl (fun _ => rfl) fun _ _ h => h
  | credit walletId amount txType description signature publicKey idempotencyKey drawn =>
      apply Protocol.follows_bind
      refine follows_submission ?_ (fun _ => rfl) fun _ _ h => h
      exact (truthy_idempotentTxId (truthy idempotencyKey)).symm
  | debit walletId amount txType description signature publicKey drawn =>
      apply Protocol.follows_bind
      apply Protocol.follows_bind
      refine follows_getBalance (fun _ => rfl) fun balance => ?_
      dsimp only [Ends]
      by_cases hCovered : balance < amount
      · rw [if_pos hCovered]
        rfl
      · rw [if_neg hCovered]
        exact follows_submission rfl (fun _ => rfl) fun _ _ h => h
  | issueWelcomeGrant walletId amount description drawn =>
      apply Protocol.follows_bind
      refine follows_look rfl (fun _ => rfl) fun granted => ?_
      cases granted with
      | true => rfl
      | false =>
          refine follows_submission ?_ (fun _ => rfl) fun _ _ h => h
          exact (truthy_idempotentTxId (some ("welcome-grant:" ++ walletId))).symm
  | getBalance walletId => exact hAny (fun h => follows_getBalance (fun _ => h _) fun _ => h _) rfl
  | getTransaction txId =>
      apply Protocol.follows_bind
      refine follows_getTransaction (fun _ => rfl) (ending_outside rfl (.ok ())) fun tx => ?_
      exact ⟨rfl, fun _ h => by cases h⟩
  | hasTransaction txId =>
      exact hAny (fun h => follows_look rfl (fun _ => h _) fun _ => h _) rfl
  | createWallet walletId displayName publicKey =>
      exact follows_createWallet fun r => ending_outside rfl r
  | registerWalletPublicKey walletId publicKey =>
      refine follows_tending ?_ fun r => ending_outside rfl r
      refine follows_tend rfl fun _ => follows_tendCommit (Or.inl rfl) ?_
      exact ⟨.tending false, Or.inl ⟨_, rfl, .register⟩, rfl⟩
  | linkEthAddress walletId ethAddress =>
      exact follows_linkEthAddress fun r => ending_outside rfl r
  | setRequiresUserSignature walletId enabled =>
      exact follows_setRequiresUserSignature fun r => ending_outside rfl r
  | bumpWithdrawNonce walletId => exact hAny follows_bumpWithdrawNonce rfl
  | compareAndBumpWithdrawNonce walletId expected =>
      exact hAny follows_compareAndBumpWithdrawNonce rfl
  | hasSeenNonce nonce => exact follows_look rfl (fun _ => rfl) fun _ => ending_outside rfl (.ok ())
  | recordNonce nonce origin => exact hAny follows_recordNonce rfl
  | releaseNonce nonce => exact hAny follows_releaseNonce rfl
  | upsertProvenance cid columns =>
      unfold body upsertProvenance
      by_cases hCid : cid ≠ ""
      · simp only [hCid, ne_eq, not_false_eq_true, if_true]
        exact hAny follows_changeService rfl
      · simp only [hCid, if_false]
        exact ending_outside rfl (.ok ())
  | logGossip nonce subtype origin payload ttl attestation =>
      exact fun l => ⟨.outside, .stay, hAny follows_changeService rfl⟩
  | pruneGossipLog maxAge =>
      apply Protocol.follows_bind
      intro l
      refine ⟨.outside, .stay, follows_changeService fun r => ?_⟩
      cases r with
      | ok v => exact ending_outside rfl (.ok ())
      | error e => rfl
  | grantAgentAllowance principalId agentId amount epochHours =>
      exact fun l => ⟨.outside, .stay, hAny follows_changeService rfl⟩
  | getAgentAllowance agentId => exact hAny follows_getAgentAllowance rfl
  | revokeAgentAllowance principalId agentId =>
      apply Protocol.follows_bind
      apply Protocol.follows_bind
      refine follows_changeService fun r => ?_
      cases r with
      | ok v => exact ending_outside rfl (.ok ())
      | error e => rfl
  | saveCollab table recordId columns => exact hAny follows_changeService rfl
  | deleteCollabRecord table recordId => exact hAny follows_changeService rfl

end Prsm.DagLedger
