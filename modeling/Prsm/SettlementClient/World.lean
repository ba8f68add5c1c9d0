import Prsm.Foundations.Machine
import Prsm.SettlementClient.Operations

/-!
# The client and the chain

The client runs one method at a time, since its lock covers every method that
changes it, but a method that talks to the chain is a sequence of steps.  `Task`
says how far the running method has come.  Between any two steps transactions
may land and the process may crash, so a run is any interleaving of the client's
steps, of the chain's and of restarts.

A transaction that reaches the network is in flight until it lands.  One that
never lands stays in flight; there is no step for dropping it.  The transaction
whose reply is awaited leaves the network when the reply is a revert.
-/

namespace Prsm.SettlementClient

open Foundations Evm Settlement

/-! ## The chain -/

/-- The arguments of `commit_batch`. -/
structure CommitCall where
  providerAddress : String
  requesterAddress : String
  merkleRoot : Bytes32
  receiptCount : Nat
  totalValueFtns : Int
  tierSlashRateBps : Int
  consensusGroupId : Bytes32

def commitCall (ready : ReadyBatch) (leafHashes : List Bytes32) (root : Bytes32) : CommitCall where
  providerAddress := ready.key.providerAddress
  requesterAddress := ready.key.requesterAddress
  merkleRoot := root
  receiptCount := leafHashes.length
  totalValueFtns := ready.batch.totalValueFtns
  tierSlashRateBps := ready.key.slashRateBps
  consensusGroupId := ready.key.groupId

/-- A commit transaction, with the receipts behind its root. -/
structure CommitTx where
  call : CommitCall
  receipts : List BatchedReceipt

structure LandedBatch where
  txHash : String
  commitTimestamp : Nat
  tx : CommitTx

/-- What this provider's key has sent.  `landed` is in the order of the blocks. -/
structure Chain where
  inFlight : Dict String CommitTx
  landed : Dict Bytes32 LandedBatch
  usedHashes : List String

namespace Chain

def fresh : Chain := ⟨∅, ∅, []⟩

/-- A signed transaction reaches the network.  No two have the same hash. -/
def submit (chain : Chain) (txHash : String) (tx : CommitTx) : Option Chain :=
  if txHash ∈ chain.usedHashes then none
  else
    some
      { chain with
        inFlight := chain.inFlight.set txHash tx
        usedHashes := txHash :: chain.usedHashes }

/-- A transaction in flight is included in a block.  The registry gives its batch
an id that no other batch has. -/
def mine (chain : Chain) (txHash : String) (batchId : Bytes32) (commitTimestamp : Nat) :
    Option Chain := do
  let tx ← chain.inFlight.get? txHash
  guard (chain.landed.get? batchId = none)
  some
    { chain with
      inFlight := chain.inFlight.erase txHash
      landed :=
        chain.landed.set batchId
          { txHash := txHash, commitTimestamp := commitTimestamp, tx := tx } }

/-- A transaction in flight is reverted. -/
def revert (chain : Chain) (txHash : String) : Chain :=
  { chain with inFlight := chain.inFlight.erase txHash }

/-- `get_committed_batch_for_tx`. -/
def committedBatchForTx (chain : Chain) (txHash : String) : Option (Bytes32 × Nat) :=
  (chain.landed.entries.find? fun entry => entry.2.txHash = txHash).map fun entry =>
    (entry.1, entry.2.commitTimestamp)

/-- `find_committed_batch_by_root`, over a window that leaves out the given number
of older batches.  More than one match is no match. -/
def findCommittedBatchByRoot (chain : Chain) (older : Nat) (root : Bytes32) :
    Option (Bytes32 × Nat) :=
  match (chain.landed.entries.drop older).filter fun entry =>
      entry.2.tx.call.merkleRoot = root with
  | [entry] => some (entry.1, entry.2.commitTimestamp)
  | _ => none

end Chain

/-- The method that is running and what its loop has left to do. -/
inductive Task
  | idle
  /-- `commit_ready_batches`, between two rounds. -/
  | committing (rest : List ReadyBatch)
  /-- `commit_ready_batches`, in the call of `commit_batch`.  `submitted` is the
  hash of the transaction once it is on the network. -/
  | awaiting (ready : ReadyBatch) (leafHashes : List Bytes32) (root : Bytes32)
      (submitted : Option String) (rest : List ReadyBatch)
  /-- `recover_committing_intents`. -/
  | recovering (rest : List (String × CommitIntent))
  /-- `reconcile_pending_commits`. -/
  | reconciling (rest : List (String × PendingCommit))
  deriving DecidableEq

structure World where
  node : Node
  task : Task
  chain : Chain
  /-- The receipts that `accumulate` has taken in and saved, for specification. -/
  accepted : List BatchedReceipt

/-- Before anything was accumulated. -/
def World.fresh : World := ⟨Node.fresh, .idle, Chain.fresh, []⟩

/-- How the call of `commit_batch` ends. -/
inductive Outcome
  | success
  | unconfirmed
  | broadcastFailed
  | failed

inductive Input
  | accumulate (br : BatchedReceipt) (now : Int)
  | commitReadyBatches (force : Bool) (now : Int)
  /-- The next round of `commit_ready_batches`, up to the broadcast. -/
  | nextBatch
  | submit (txHash : String)
  | reply (outcome : Outcome)
  | recoverCommittingIntents
  /-- The next round of the recovery.  The scan fails, or covers all batches but
  the given number of older ones. -/
  | nextIntent (scan : Option Nat)
  | reconcilePendingCommits
  /-- The next round of the reconciliation, whose lookup may fail. -/
  | nextPendingCommit (lookup : Bool)
  | mine (txHash : String) (batchId : Bytes32) (commitTimestamp : Nat)
  | restart

/-- The time that a forced commit evaluates the triggers at. -/
def commitTime (force : Bool) (now : Int) : Int :=
  if force then 2 ^ 62 else now

/-- The reply that the chain's state makes of an outcome, and the chain after it.
A success needs a batch that landed, an unconfirmed commit a transaction that
was sent, and a revert one that did not land. -/
def Chain.replyTo (chain : Chain) (submitted : Option String) :
    Outcome → Option (CommitReply × Chain)
  | .success => do
      let txHash ← submitted
      let found ← chain.committedBatchForTx txHash
      some (.committed found.1 found.2, chain)
  | .unconfirmed => do
      let txHash ← submitted
      some (.pending txHash, chain)
  | .broadcastFailed => some (.broadcastFailed, chain)
  | .failed =>
      match submitted with
      | none => some (.failed, chain)
      | some txHash =>
          if (chain.committedBatchForTx txHash).isSome then none
          else some (.failed, chain.revert txHash)

variable (keccak256 : Keccak) (settings : Settings)

/-- One step of a run. -/
def settlementStep (w : World) : Input → Option World
  | .accumulate br now => do
      guard (w.task = .idle)
      let node ← w.node.accumulate settings br now
      -- A receipt that the ledger or the batch knows is not taken a second time.
      let taken := !w.node.drops br && !(w.node.client.pending.batchFor br).holds br
      some { w with node := node, accepted := if taken then w.accepted ++ [br] else w.accepted }
  | .commitReadyBatches force now => do
      guard (w.task = .idle)
      some
        { w with
          task :=
            .committing
              (w.node.client.pending.readyBatches settings.config (commitTime force now)) }
  | .nextBatch =>
      match w.task with
      | .committing [] => some { w with task := .idle }
      | .committing (ready :: rest) =>
          -- A receipt that cannot be hashed ends the method with an exception.
          match Node.buildLeavesRoot keccak256 ready with
          | none => some { w with task := .idle }
          | some (leafHashes, root) =>
              some
                { w with
                  node := w.node.writeIntent ready leafHashes root
                  task := .awaiting ready leafHashes root none rest }
      | _ => none
  | .submit txHash =>
      match w.task with
      | .awaiting ready leafHashes root none rest => do
          let tx : CommitTx := ⟨commitCall ready leafHashes root, ready.batch.receipts⟩
          let chain ← w.chain.submit txHash tx
          some
            { w with
              chain := chain
              task := .awaiting ready leafHashes root (some txHash) rest }
      | _ => none
  | .reply outcome =>
      match w.task with
      | .awaiting ready leafHashes root submitted rest => do
          let (commitReply, chain) ← w.chain.replyTo submitted outcome
          some
            { w with
              node := w.node.finishCommit ready leafHashes root commitReply
              chain := chain
              task := .committing rest }
      | _ => none
  | .recoverCommittingIntents => do
      guard (w.task = .idle)
      some { w with task := .recovering w.node.client.committing.entries }
  | .nextIntent scan =>
      match w.task with
      | .recovering [] => some { w with task := .idle }
      | .recovering ((key, intent) :: rest) =>
          -- A failed scan, like a batch that is not found, leaves the intent for later.
          match scan.bind fun older =>
              w.chain.findCommittedBatchByRoot older intent.merkleRoot with
          | none => some { w with task := .recovering rest }
          | some (batchId, commitTimestamp) =>
              some
                { w with
                  node := w.node.adoptIntent key intent batchId commitTimestamp
                  task := .recovering rest }
      | _ => none
  | .reconcilePendingCommits => do
      guard (w.task = .idle)
      some { w with task := .reconciling w.node.client.pendingCommits.entries }
  | .nextPendingCommit lookup =>
      match w.task with
      | .reconciling [] => some { w with task := .idle }
      | .reconciling ((txHash, pc) :: rest) =>
          match if lookup then w.chain.committedBatchForTx txHash else none with
          | none => some { w with task := .reconciling rest }
          | some (batchId, commitTimestamp) =>
              some
                { w with
                  node := w.node.adoptPendingCommit txHash pc batchId commitTimestamp
                  task := .reconciling rest }
      | _ => none
  | .mine txHash batchId commitTimestamp => do
      let chain ← w.chain.mine txHash batchId commitTimestamp
      some { w with chain := chain }
  | .restart => do
      -- The running method dies with the process; what is in flight does not.
      let node ← w.node.restart
      some { w with node := node, task := .idle }

/-- The machine whose runs the theorems are about. -/
def settlementMachine : Machine World Input :=
  ⟨settlementStep keccak256 settings⟩

/-! ## What the chain answers -/

namespace Chain

variable {chain chain' : Chain} {txHash : String} {batchId : Bytes32} {commitTimestamp : Nat}

theorem submit_eq_some_iff {tx : CommitTx} :
    chain.submit txHash tx = some chain' ↔
      txHash ∉ chain.usedHashes ∧
        { chain with
          inFlight := chain.inFlight.set txHash tx
          usedHashes := txHash :: chain.usedHashes } = chain' := by
  rw [submit]
  split
  case isTrue hUsed => simp [hUsed]
  case isFalse hFree => simp [hFree]

theorem mine_eq_some (h : chain.mine txHash batchId commitTimestamp = some chain') :
    ∃ tx, chain.inFlight.get? txHash = some tx ∧ chain.landed.get? batchId = none ∧
      chain' =
        { chain with
          inFlight := chain.inFlight.erase txHash
          landed := chain.landed.set batchId ⟨txHash, commitTimestamp, tx⟩ } := by
  obtain ⟨tx, hTx, h⟩ := Option.bind_eq_some_iff.mp h
  by_cases hFree : chain.landed.get? batchId = none
  · simp only [hFree, guard, if_true] at h
    cases h
    exact ⟨tx, hTx, hFree, rfl⟩
  · simp [hFree, guard] at h

theorem committedBatchForTx_eq_some
    (h : chain.committedBatchForTx txHash = some (batchId, commitTimestamp)) :
    ∃ batch, chain.landed.get? batchId = some batch ∧ batch.txHash = txHash := by
  obtain ⟨⟨found, batch⟩, hFind, h⟩ := Option.map_eq_some_iff.mp h
  cases h
  exact ⟨batch, Dict.mem_entries_iff.mp (List.mem_of_find?_eq_some hFind),
    by simpa using List.find?_some hFind⟩

theorem committedBatchForTx_eq_none (h : chain.committedBatchForTx txHash = none)
    {batch : LandedBatch} (hBatch : chain.landed.get? batchId = some batch) :
    batch.txHash ≠ txHash := by
  rw [committedBatchForTx, Option.map_eq_none_iff, List.find?_eq_none] at h
  simpa using h (batchId, batch) (Dict.mem_entries_iff.mpr hBatch)

theorem findCommittedBatchByRoot_eq_some {older : Nat} {root : Bytes32}
    (h : chain.findCommittedBatchByRoot older root = some (batchId, commitTimestamp)) :
    ∃ batch, chain.landed.get? batchId = some batch ∧ batch.tx.call.merkleRoot = root := by
  rw [findCommittedBatchByRoot] at h
  split at h
  case h_1 entry hMatches =>
      cases h
      have hMem : entry ∈ (chain.landed.entries.drop older).filter fun entry =>
          entry.2.tx.call.merkleRoot = root := by
        rw [hMatches]
        exact List.mem_singleton_self entry
      obtain ⟨hEntry, hRoot⟩ := List.mem_filter.mp hMem
      exact ⟨entry.2, Dict.mem_entries_iff.mp (List.mem_of_mem_drop hEntry), by simpa using hRoot⟩
  case h_2 => cases h

end Chain

variable {keccak256 settings}

/-- The steps that only move the running method along. -/
inductive Moves (keccak256 : Keccak) (settings : Settings) (w : World) : Input → Task → Prop
  | commitStarted (force : Bool) (now : Int) (hTask : w.task = .idle) :
      Moves keccak256 settings w (.commitReadyBatches force now)
        (.committing (w.node.client.pending.readyBatches settings.config (commitTime force now)))
  | commitFinished (hTask : w.task = .committing []) : Moves keccak256 settings w .nextBatch .idle
  | commitAborted {ready : ReadyBatch} {rest : List ReadyBatch}
      (hTask : w.task = .committing (ready :: rest))
      (hBuild : Node.buildLeavesRoot keccak256 ready = none) :
      Moves keccak256 settings w .nextBatch .idle
  | recoveryStarted (hTask : w.task = .idle) :
      Moves keccak256 settings w .recoverCommittingIntents
        (.recovering w.node.client.committing.entries)
  | recoveryFinished (scan : Option Nat) (hTask : w.task = .recovering []) :
      Moves keccak256 settings w (.nextIntent scan) .idle
  | intentKept {scan : Option Nat} {entry : String × CommitIntent}
      {rest : List (String × CommitIntent)} (hTask : w.task = .recovering (entry :: rest))
      (hKept : (scan.bind fun older =>
        w.chain.findCommittedBatchByRoot older entry.2.merkleRoot) = none) :
      Moves keccak256 settings w (.nextIntent scan) (.recovering rest)
  | reconciliationStarted (hTask : w.task = .idle) :
      Moves keccak256 settings w .reconcilePendingCommits
        (.reconciling w.node.client.pendingCommits.entries)
  | reconciliationFinished (lookup : Bool) (hTask : w.task = .reconciling []) :
      Moves keccak256 settings w (.nextPendingCommit lookup) .idle
  | pendingCommitKept {lookup : Bool} {entry : String × PendingCommit}
      {rest : List (String × PendingCommit)} (hTask : w.task = .reconciling (entry :: rest))
      (hKept : (if lookup then w.chain.committedBatchForTx entry.1 else none) = none) :
      Moves keccak256 settings w (.nextPendingCommit lookup) (.reconciling rest)

/-- The replies to a commit of which `submitted` was sent. -/
inductive Replies (chain : Chain) : Option String → CommitReply → Chain → Prop
  | landed {txHash : String} {batchId : Bytes32} {commitTimestamp : Nat}
      (hLanded : chain.committedBatchForTx txHash = some (batchId, commitTimestamp)) :
      Replies chain (some txHash) (.committed batchId commitTimestamp) chain
  | sent (txHash : String) : Replies chain (some txHash) (.pending txHash) chain
  | unknown (submitted : Option String) : Replies chain submitted .broadcastFailed chain
  | unsent : Replies chain none .failed chain
  | reverted {txHash : String} (hNot : chain.committedBatchForTx txHash = none) :
      Replies chain (some txHash) .failed (chain.revert txHash)

/-- Every accepted step has one of these shapes. -/
inductive Step (keccak256 : Keccak) (settings : Settings) (w : World) : Input → World → Prop
  | moved {input : Input} {task : Task} (hMove : Moves keccak256 settings w input task) :
      Step keccak256 settings w input { w with task := task }
  | dropped {br : BatchedReceipt} (now : Int) (hTask : w.task = .idle)
      (hDrops : w.node.drops br = true) : Step keccak256 settings w (.accumulate br now) w
  /-- The batch under the receipt's key holds its id. -/
  | repeated {br : BatchedReceipt} (now : Int) (hTask : w.task = .idle)
      (hDrops : w.node.drops br = false)
      (hHolds : (w.node.client.pending.batchFor br).holds br = true) :
      Step keccak256 settings w (.accumulate br now) { w with node := w.node.persist }
  | taken {br : BatchedReceipt} {now : Int} {pending : Pending} (hTask : w.task = .idle)
      (hDrops : w.node.drops br = false)
      (hHolds : (w.node.client.pending.batchFor br).holds br = false)
      (hAdd : w.node.client.pending.add br now = some pending) :
      Step keccak256 settings w (.accumulate br now)
        { w with
          node := Node.persist { w.node with client := { w.node.client with pending := pending } }
          accepted := w.accepted ++ [br] }
  | written {ready : ReadyBatch} {rest : List ReadyBatch} {leafHashes : List Bytes32}
      {root : Bytes32} (hTask : w.task = .committing (ready :: rest))
      (hBuild : Node.buildLeavesRoot keccak256 ready = some (leafHashes, root)) :
      Step keccak256 settings w .nextBatch
        { w with
          node := w.node.writeIntent ready leafHashes root
          task := .awaiting ready leafHashes root none rest }
  | submitted {ready : ReadyBatch} {leafHashes : List Bytes32} {root : Bytes32}
      {rest : List ReadyBatch} {txHash : String} {chain : Chain}
      (hTask : w.task = .awaiting ready leafHashes root none rest)
      (hSubmit : w.chain.submit txHash
        ⟨commitCall ready leafHashes root, ready.batch.receipts⟩ = some chain) :
      Step keccak256 settings w (.submit txHash)
        { w with
          chain := chain
          task := .awaiting ready leafHashes root (some txHash) rest }
  | replied {ready : ReadyBatch} {leafHashes : List Bytes32} {root : Bytes32}
      {submitted : Option String} {rest : List ReadyBatch} (outcome : Outcome)
      {reply : CommitReply} {chain : Chain}
      (hTask : w.task = .awaiting ready leafHashes root submitted rest)
      (hReply : Replies w.chain submitted reply chain) :
      Step keccak256 settings w (.reply outcome)
        { w with
          node := w.node.finishCommit ready leafHashes root reply
          chain := chain
          task := .committing rest }
  | intentAdopted {older : Nat} {key : String} {intent : CommitIntent}
      {rest : List (String × CommitIntent)} {batchId : Bytes32} {commitTimestamp : Nat}
      (hTask : w.task = .recovering ((key, intent) :: rest))
      (hFound : w.chain.findCommittedBatchByRoot older intent.merkleRoot =
        some (batchId, commitTimestamp)) :
      Step keccak256 settings w (.nextIntent (some older))
        { w with
          node := w.node.adoptIntent key intent batchId commitTimestamp
          task := .recovering rest }
  | pendingCommitAdopted {txHash : String} {pc : PendingCommit}
      {rest : List (String × PendingCommit)} {batchId : Bytes32} {commitTimestamp : Nat}
      (hTask : w.task = .reconciling ((txHash, pc) :: rest))
      (hFound : w.chain.committedBatchForTx txHash = some (batchId, commitTimestamp)) :
      Step keccak256 settings w (.nextPendingCommit true)
        { w with
          node := w.node.adoptPendingCommit txHash pc batchId commitTimestamp
          task := .reconciling rest }
  | mined {txHash : String} {batchId : Bytes32} {commitTimestamp : Nat} {chain : Chain}
      (hMine : w.chain.mine txHash batchId commitTimestamp = some chain) :
      Step keccak256 settings w (.mine txHash batchId commitTimestamp) { w with chain := chain }
  | restarted {node : Node} (hRestart : w.node.restart = some node) :
      Step keccak256 settings w .restart { w with node := node, task := .idle }

theorem guard_bind_eq_some_iff {α : Type} {p : Prop} [Decidable p] {x : Option α} {a : α} :
    ((guard p : Option Unit) >>= fun _ => x) = some a ↔ p ∧ x = some a := by
  by_cases hp : p <;> simp [guard, hp]

theorem replies_of_replyTo {chain chain' : Chain} {submitted : Option String}
    {outcome : Outcome} {reply : CommitReply}
    (h : chain.replyTo submitted outcome = some (reply, chain')) :
    Replies chain submitted reply chain' := by
  cases outcome with
  | success =>
      obtain ⟨txHash, rfl, h⟩ := Option.bind_eq_some_iff.mp h
      obtain ⟨⟨batchId, commitTimestamp⟩, hLanded, h⟩ := Option.bind_eq_some_iff.mp h
      cases h
      exact .landed hLanded
  | unconfirmed =>
      obtain ⟨txHash, rfl, h⟩ := Option.bind_eq_some_iff.mp h
      cases h
      exact .sent txHash
  | broadcastFailed =>
      cases h
      exact .unknown submitted
  | failed =>
      cases submitted with
      | none =>
          cases h
          exact .unsent
      | some txHash =>
          cases hLanded : chain.committedBatchForTx txHash with
          | none =>
              simp only [Chain.replyTo, hLanded, Option.isSome_none, Bool.false_eq_true,
                if_false] at h
              cases h
              exact .reverted hLanded
          | some found =>
              simp [Chain.replyTo, hLanded] at h

theorem step_accumulate {w w' : World} {br : BatchedReceipt} {now : Int}
    (h : settlementStep keccak256 settings w (.accumulate br now) = some w') :
    Step keccak256 settings w (.accumulate br now) w' := by
  simp only [settlementStep, guard_bind_eq_some_iff] at h
  obtain ⟨hTask, h⟩ := h
  obtain ⟨node, hNode, h⟩ := Option.bind_eq_some_iff.mp h
  cases h
  rw [Node.accumulate] at hNode
  split at hNode
  · cases hNode
  split at hNode
  case isTrue hDrops =>
      cases hNode
      have hStep : Step keccak256 settings w (.accumulate br now) w := .dropped now hTask hDrops
      simpa [hDrops] using hStep
  case isFalse hDrops =>
      rw [Bool.not_eq_true] at hDrops
      obtain ⟨pending, hAdd, hNode⟩ := Option.bind_eq_some_iff.mp hNode
      cases hNode
      cases hHolds : (w.node.client.pending.batchFor br).holds br with
      | true =>
          rw [Pending.add_of_holds now hHolds] at hAdd
          cases hAdd
          have hStep := @Step.repeated keccak256 settings w br now hTask hDrops hHolds
          simpa using hStep
      | false =>
          have hStep : Step keccak256 settings w (.accumulate br now) _ :=
            .taken hTask hDrops hHolds hAdd
          simpa [hDrops] using hStep

theorem step_of_settlementStep {w w' : World} {input : Input}
    (h : settlementStep keccak256 settings w input = some w') :
    Step keccak256 settings w input w' := by
  cases input with
  | accumulate br now => exact step_accumulate h
  | commitReadyBatches force now =>
      simp only [settlementStep, guard_bind_eq_some_iff] at h
      obtain ⟨hTask, h⟩ := h
      cases h
      exact .moved (.commitStarted force now hTask)
  | nextBatch =>
      simp only [settlementStep] at h
      split at h
      case h_1 hTask =>
          cases h
          exact .moved (.commitFinished hTask)
      case h_2 ready rest hTask =>
          split at h
          case h_1 hBuild =>
              cases h
              exact .moved (.commitAborted hTask hBuild)
          case h_2 leafHashes root hBuild =>
              cases h
              exact .written hTask hBuild
      case h_3 => cases h
  | submit txHash =>
      simp only [settlementStep] at h
      split at h
      case h_1 ready leafHashes root rest hTask =>
          obtain ⟨chain, hSubmit, h⟩ := Option.bind_eq_some_iff.mp h
          cases h
          exact .submitted hTask hSubmit
      case h_2 => cases h
  | reply outcome =>
      simp only [settlementStep] at h
      split at h
      case h_1 ready leafHashes root submitted rest hTask =>
          obtain ⟨⟨reply, chain⟩, hReply, h⟩ := Option.bind_eq_some_iff.mp h
          cases h
          exact .replied outcome hTask (replies_of_replyTo hReply)
      case h_2 => cases h
  | recoverCommittingIntents =>
      simp only [settlementStep, guard_bind_eq_some_iff] at h
      obtain ⟨hTask, h⟩ := h
      cases h
      exact .moved (.recoveryStarted hTask)
  | nextIntent scan =>
      simp only [settlementStep] at h
      split at h
      case h_1 hTask =>
          cases h
          exact .moved (.recoveryFinished scan hTask)
      case h_2 key intent rest hTask =>
          split at h
          case h_1 hKept =>
              cases h
              exact .moved (.intentKept hTask hKept)
          case h_2 batchId commitTimestamp hFound =>
              cases h
              obtain ⟨older, rfl, hFound⟩ := Option.bind_eq_some_iff.mp hFound
              exact .intentAdopted hTask hFound
      case h_3 => cases h
  | reconcilePendingCommits =>
      simp only [settlementStep, guard_bind_eq_some_iff] at h
      obtain ⟨hTask, h⟩ := h
      cases h
      exact .moved (.reconciliationStarted hTask)
  | nextPendingCommit lookup =>
      simp only [settlementStep] at h
      split at h
      case h_1 hTask =>
          cases h
          exact .moved (.reconciliationFinished lookup hTask)
      case h_2 txHash pc rest hTask =>
          split at h
          case h_1 hKept =>
              cases h
              exact .moved (.pendingCommitKept hTask hKept)
          case h_2 batchId commitTimestamp hFound =>
              cases h
              cases lookup with
              | false => cases hFound
              | true => exact .pendingCommitAdopted hTask hFound
      case h_3 => cases h
  | mine txHash batchId commitTimestamp =>
      obtain ⟨chain, hMine, h⟩ := Option.bind_eq_some_iff.mp h
      cases h
      exact .mined hMine
  | restart =>
      obtain ⟨node, hRestart, h⟩ := Option.bind_eq_some_iff.mp h
      cases h
      exact .restarted hRestart

/-! ## A concrete client -/

def smallSettings : Settings where
  config := ⟨1000, 3600, 100, by decide, by decide, by decide⟩
  providerAddress := "0x000000000000000000000000000000000000000A"

def smallReceipt (jobId escrowId : String) (slashRateBps : Int) : BatchedReceipt where
  receipt :=
    { jobId := jobId
      shardIndex := 0
      providerId := "provider-1"
      providerPubkeyB64 := "cHVia2V5"
      outputHash := "1111111111111111111111111111111111111111111111111111111111111111"
      executedAtUnix := 900
      signature := "c2lnbmF0dXJl"
      teeAttestation := none }
  requesterAddress := "0x0000000000000000000000000000000000000005"
  providerAddress := "0x000000000000000000000000000000000000000A"
  valueFtns := 10
  localEscrowId := escrowId
  tierSlashRateBps := slashRateBps
  consensusGroupId := 0

def landedRound (txHash : String) (batchId : Bytes32) : List Input :=
  [.nextBatch, .submit txHash, .mine txHash batchId 1100, .reply .success]

end Prsm.SettlementClient
