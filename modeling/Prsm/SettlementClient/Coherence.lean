import Prsm.SettlementClient.World

/-!
# What every run keeps

Three invariants hold after every run, with no assumption on the order of its
steps.

* The state file determines the client up to pending batches that an intent
  owns, so a crash at any point is a restart from the current state.
* Every record names leaves, and every tracked batch has landed.
* The loops work on what is there: a batch about to be committed is still the
  one under its key, and an intent or pending commit about to be resolved is
  still in its map.
-/

namespace Prsm.SettlementClient

open Foundations Evm Settlement

variable {keccak256 : Keccak} {settings : Settings} {w w' : World} {input : Input}

/-! ## The batches of a loop -/

/-- The batches are pending, each under a key of its own. -/
structure Queued (pending : Pending) (rest : List ReadyBatch) : Prop where
  nodup : (rest.map ReadyBatch.key).Nodup
  held : ∀ ready ∈ rest, pending.get? ready.key = some ready.batch

theorem queued_readyBatches (config : AccumulatorConfig) (pending : Pending) (now : Int) :
    Queued pending (pending.readyBatches config now) where
  nodup := Pending.nodup_readyBatches config pending now
  held := fun _ hMem => Pending.get?_of_mem_readyBatches hMem

theorem Queued.tail {pending : Pending} {ready : ReadyBatch} {rest : List ReadyBatch}
    (h : Queued pending (ready :: rest)) : Queued pending rest where
  nodup := (List.nodup_cons.mp h.nodup).2
  held := fun other hMem => h.held other (List.mem_cons_of_mem _ hMem)

theorem Queued.pop {pending : Pending} {ready : ReadyBatch} {rest : List ReadyBatch}
    (h : Queued pending (ready :: rest)) : Queued (pending.erase ready.key) rest where
  nodup := (List.nodup_cons.mp h.nodup).2
  held := by
    intro other hMem
    have hNe : other.key ≠ ready.key := by
      intro hKey
      exact (List.nodup_cons.mp h.nodup).1 (hKey ▸ List.mem_map_of_mem hMem)
    rw [Dict.get?_erase, if_neg hNe]
    exact h.held other (List.mem_cons_of_mem _ hMem)

/-- The entries of a map that a loop has still to visit. -/
structure Remaining {α : Type} (d : Dict String α) (rest : List (String × α)) : Prop where
  nodup : (rest.map Prod.fst).Nodup
  held : ∀ entry ∈ rest, d.get? entry.1 = some entry.2

variable {α : Type} {task : Task}

theorem remaining_entries (d : Dict String α) : Remaining d d.entries where
  nodup := d.nodup
  held := fun _ hMem => Dict.mem_entries_iff.mp hMem

theorem Remaining.tail {d : Dict String α} {entry : String × α}
    {rest : List (String × α)} (h : Remaining d (entry :: rest)) : Remaining d rest where
  nodup := (List.nodup_cons.mp h.nodup).2
  held := fun other hMem => h.held other (List.mem_cons_of_mem _ hMem)

theorem Remaining.resolve {d : Dict String α} {entry : String × α}
    {rest : List (String × α)} (h : Remaining d (entry :: rest)) :
    Remaining (d.erase entry.1) rest where
  nodup := (List.nodup_cons.mp h.nodup).2
  held := by
    intro other hMem
    have hNe : other.1 ≠ entry.1 := by
      intro hKey
      exact (List.nodup_cons.mp h.nodup).1 (hKey ▸ List.mem_map_of_mem hMem)
    rw [Dict.get?_erase, if_neg hNe]
    exact h.held other (List.mem_cons_of_mem _ hMem)

/-! ## The batch in the call -/

/-- The key of the batch that a call of `commit_batch` is about. -/
def Task.inCall : Task → Option AccumulatorKey
  | .awaiting ready _ _ _ _ => some ready.key
  | _ => none

/-- The receipts of that batch, as long as no transaction carries them. -/
def Task.unsent : Task → List BatchedReceipt
  | .awaiting ready _ _ none _ => ready.batch.receipts
  | _ => []

/-- The pending batches apart from the one in the call, which its intent holds
too. -/
def apart (pending : Pending) (task : Task) : Pending :=
  match task.inCall with
  | none => pending
  | some key => pending.erase key

theorem apart_of_notInCall (pending : Pending) (h : task.inCall = none) :
    apart pending task = pending := by
  simp [apart, h]

theorem Task.unsent_of_notInCall (h : task.inCall = none) : task.unsent = [] := by
  cases task with
  | awaiting ready leafHashes root submitted rest => cases h
  | _ => rfl

theorem Moves.notInCall (h : Moves keccak256 settings w input task) :
    w.task.inCall = none ∧ task.inCall = none := by
  cases h <;> simp [*, Task.inCall]

/-! ## The invariants -/

/-- Records name leaves, and what they refer to exists on the chain. -/
structure RecordsCoherent (c : Client) (chain : Chain) : Prop where
  intents : c.committing.All fun _ intent => intent.leafHashes ≠ []
  pendingCommits : c.pendingCommits.All fun txHash pc =>
    pc.leafHashes ≠ [] ∧ txHash ∈ chain.usedHashes
  tracked : c.tracked.All fun batchId batch =>
    batch.leafHashes ≠ [] ∧ chain.landed.get? batchId ≠ none
  inFlight : chain.inFlight.All fun txHash _ => txHash ∈ chain.usedHashes
  landed : chain.landed.All fun _ batch => batch.txHash ∈ chain.usedHashes

/-- The transaction that carries the batch being committed is in flight or has
landed, and the client has not heard of it yet. -/
structure Submitted (c : Client) (chain : Chain) (ready : ReadyBatch) (txHash : String) :
    Prop where
  used : txHash ∈ chain.usedHashes
  unheard : c.pendingCommits.get? txHash = none
  live : (∃ tx, chain.inFlight.get? txHash = some tx ∧ tx.receipts = ready.batch.receipts) ∨
    ∃ batchId batch, chain.landed.get? batchId = some batch ∧ batch.txHash = txHash ∧
      batch.tx.receipts = ready.batch.receipts
  untracked : ∀ batchId batch, chain.landed.get? batchId = some batch →
    batch.txHash = txHash → c.tracked.get? batchId = none

/-- The state while a call of `commit_batch` is awaited. -/
structure Awaited (keccak256 : Keccak) (c : Client) (chain : Chain) (ready : ReadyBatch)
    (leafHashes : List Bytes32) (root : Bytes32) (submitted : Option String)
    (rest : List ReadyBatch) : Prop where
  queued : Queued c.pending (ready :: rest)
  built : Node.buildLeavesRoot keccak256 ready = some (leafHashes, root)
  intent : c.committing.get? (intentKey ready.key root) =
    some (buildIntent ready leafHashes root)
  sent : ∀ txHash, submitted = some txHash → Submitted c chain ready txHash

/-- The running method works on what is there. -/
def TaskCoherent (keccak256 : Keccak) (c : Client) (chain : Chain) : Task → Prop
  | .idle => True
  | .committing rest => Queued c.pending rest
  | .awaiting ready leafHashes root submitted rest =>
      Awaited keccak256 c chain ready leafHashes root submitted rest
  | .recovering rest => Remaining c.committing rest
  | .reconciling rest => Remaining c.pendingCommits rest

structure Coherent (keccak256 : Keccak) (w : World) : Prop where
  current : w.node.Current
  wellFormed : AllWellFormed w.node.client.pending
  records : RecordsCoherent w.node.client w.chain
  task : TaskCoherent keccak256 w.node.client w.chain w.task

section Tasks

variable {ready : ReadyBatch} {leafHashes : List Bytes32} {root : Bytes32}
  {submitted : Option String} {rest : List ReadyBatch}

theorem Coherent.queued (h : Coherent keccak256 w) (hTask : w.task = .committing rest) :
    Queued w.node.client.pending rest := by
  simpa only [hTask, TaskCoherent] using h.task

theorem Coherent.awaited (h : Coherent keccak256 w)
    (hTask : w.task = .awaiting ready leafHashes root submitted rest) :
    Awaited keccak256 w.node.client w.chain ready leafHashes root submitted rest := by
  simpa only [hTask, TaskCoherent] using h.task

theorem Coherent.recovering {rest : List (String × CommitIntent)} (h : Coherent keccak256 w)
    (hTask : w.task = .recovering rest) : Remaining w.node.client.committing rest := by
  simpa only [hTask, TaskCoherent] using h.task

theorem Coherent.reconciling {rest : List (String × PendingCommit)} (h : Coherent keccak256 w)
    (hTask : w.task = .reconciling rest) : Remaining w.node.client.pendingCommits rest := by
  simpa only [hTask, TaskCoherent] using h.task

end Tasks

theorem Coherent.unownedPending_eq (h : Coherent keccak256 w) :
    w.node.client.unownedPending =
      (apart w.node.client.pending w.task).filterKeys
        fun key => key ∉ intentKeys w.node.client.committing := by
  cases hTask : w.task with
  | awaiting ready leafHashes root submitted rest =>
      have hIntent := (h.awaited hTask).intent
      have hOwned : ready.key ∈ intentKeys w.node.client.committing :=
        List.mem_map.mpr ⟨_, Dict.mem_entries_iff.mpr hIntent, rfl⟩
      exact (Dict.filterKeys_erase _ (by simpa using hOwned)).symm
  | _ => rfl

theorem coherent_fresh : Coherent keccak256 World.fresh where
  current := .inl rfl
  wellFormed := Dict.all_empty _
  records :=
    { intents := Dict.all_empty _
      pendingCommits := Dict.all_empty _
      tracked := Dict.all_empty _
      inFlight := Dict.all_empty _
      landed := Dict.all_empty _ }
  task := trivial

/-! ## Each step keeps them -/

theorem buildLeavesRoot_eq_some {ready : ReadyBatch} {leafHashes : List Bytes32} {root : Bytes32}
    (h : Node.buildLeavesRoot keccak256 ready = some (leafHashes, root)) :
    ready.batch.receipts.mapM (leafHash keccak256) = some leafHashes ∧ leafHashes ≠ [] := by
  obtain ⟨leaves, hLeaves, h⟩ := Option.bind_eq_some_iff.mp h
  obtain ⟨root', hRoot, h⟩ := Option.bind_eq_some_iff.mp h
  cases h
  exact ⟨hLeaves, (buildMerkleRoot_isSome_iff leafHashes).mp (Option.isSome_of_eq_some hRoot)⟩

theorem wellFormed_step (h : Coherent keccak256 w) (hStep : Step keccak256 settings w input w') :
    AllWellFormed w'.node.client.pending := by
  have hPending := h.wellFormed
  cases hStep with
  | taken hTask hDrops hHolds hAdd =>
      obtain ⟨batch, hAdd', hBatch, -⟩ := Pending.add_of_new hPending _ hHolds
      rw [hAdd] at hAdd'
      cases hAdd'
      exact hPending.set hBatch
  | replied outcome hTask hReply =>
      cases hReply with
      | landed => exact hPending.erase _
      | sent => exact hPending.erase _
      | unknown => exact hPending.erase _
      | unsent => exact hPending
      | reverted => exact hPending
  | intentAdopted => exact hPending.erase _
  | restarted hRestart =>
      -- The file holds what the client held, so the batches come back as they were.
      rw [Node.restart_eq h.current] at hRestart
      cases hRestart
      exact hPending.filterKeys _
  | _ => exact hPending

theorem current_step (h : Coherent keccak256 w) (hStep : Step keccak256 settings w input w') :
    w'.node.Current := by
  -- Every step that changes the client ends in a save.
  have hPending := wellFormed_step h hStep
  cases hStep with
  | moved => exact h.current
  | dropped => exact h.current
  | submitted => exact h.current
  | mined => exact h.current
  | replied outcome hTask hReply => cases hReply <;> exact Node.current_persist hPending
  | restarted hRestart =>
      rw [Node.restart_eq h.current] at hRestart
      cases hRestart
      exact Node.current_restart h.current
  | _ => exact Node.current_persist hPending

theorem records_step (h : Coherent keccak256 w) (hStep : Step keccak256 settings w input w') :
    RecordsCoherent w'.node.client w'.chain := by
  obtain ⟨hIntents, hCommits, hTracked, hFlight, hLanded⟩ := h.records
  cases hStep with
  | written hTask hBuild =>
      have hLeaves := (buildLeavesRoot_eq_some hBuild).2
      exact ⟨hIntents.set hLeaves, hCommits, hTracked, hFlight, hLanded⟩
  | submitted hTask hSubmit =>
      obtain ⟨-, rfl⟩ := Chain.submit_eq_some_iff.mp hSubmit
      refine ⟨hIntents, ?_, hTracked, ?_, ?_⟩
      · exact hCommits.imp fun _ _ hHeld => ⟨hHeld.1, List.mem_cons_of_mem _ hHeld.2⟩
      · exact (hFlight.imp fun _ _ hUsed => List.mem_cons_of_mem _ hUsed).set List.mem_cons_self
      · exact hLanded.imp fun _ _ hUsed => List.mem_cons_of_mem _ hUsed
  | replied outcome hTask hReply =>
      have hAwaited := h.awaited hTask
      have hLeaves := (buildLeavesRoot_eq_some hAwaited.built).2
      cases hReply with
      | landed hFound =>
          obtain ⟨batch, hBatch, -⟩ := Chain.committedBatchForTx_eq_some hFound
          refine ⟨hIntents.erase _, hCommits, hTracked.set ⟨hLeaves, ?_⟩, hFlight, hLanded⟩
          simp [hBatch]
      | sent txHash =>
          -- A pending commit names a transaction that was sent.
          have hUsed := (hAwaited.sent txHash rfl).used
          exact ⟨hIntents.erase _, hCommits.set ⟨hLeaves, hUsed⟩, hTracked, hFlight, hLanded⟩
      | unknown => exact ⟨hIntents, hCommits, hTracked, hFlight, hLanded⟩
      | unsent => exact ⟨hIntents.erase _, hCommits, hTracked, hFlight, hLanded⟩
      | reverted => exact ⟨hIntents.erase _, hCommits, hTracked, hFlight.erase _, hLanded⟩
  | intentAdopted hTask hFound =>
      obtain ⟨batch, hBatch, -⟩ := Chain.findCommittedBatchByRoot_eq_some hFound
      have hIntent := (h.recovering hTask).held _ List.mem_cons_self
      refine ⟨hIntents.erase _, hCommits, hTracked.set ⟨hIntents _ _ hIntent, ?_⟩, hFlight, hLanded⟩
      simp [hBatch]
  | pendingCommitAdopted hTask hFound =>
      obtain ⟨batch, hBatch, -⟩ := Chain.committedBatchForTx_eq_some hFound
      have hCommit := (h.reconciling hTask).held _ List.mem_cons_self
      refine ⟨hIntents, hCommits.erase _, hTracked.set ⟨(hCommits _ _ hCommit).1, ?_⟩, hFlight,
        hLanded⟩
      simp [hBatch]
  | mined hMine =>
      obtain ⟨tx, hTx, hFree, rfl⟩ := Chain.mine_eq_some hMine
      refine ⟨hIntents, hCommits, ?_, hFlight.erase _, hLanded.set (hFlight _ _ hTx)⟩
      refine hTracked.imp fun batchId _ hHeld => ⟨hHeld.1, ?_⟩
      rw [Dict.get?_set]
      split
      · simp
      · exact hHeld.2
  | restarted hRestart =>
      rw [Node.restart_eq h.current] at hRestart
      cases hRestart
      exact ⟨hIntents, hCommits, hTracked, hFlight, hLanded⟩
  | _ => exact ⟨hIntents, hCommits, hTracked, hFlight, hLanded⟩

section Chain

variable {c : Client} {chain : Chain} {ready : ReadyBatch} {txHash : String}

theorem submitted_of_fresh {tx : CommitTx} (hRecords : RecordsCoherent c chain)
    (hFree : txHash ∉ chain.usedHashes) (hReceipts : tx.receipts = ready.batch.receipts) :
    Submitted c
      { chain with
        inFlight := chain.inFlight.set txHash tx
        usedHashes := txHash :: chain.usedHashes } ready txHash where
  used := List.mem_cons_self
  unheard := by
    by_contra hSome
    obtain ⟨pc, hGet⟩ := Option.ne_none_iff_exists'.mp hSome
    exact hFree (hRecords.pendingCommits _ _ hGet).2
  live := .inl ⟨tx, by simp, hReceipts⟩
  untracked := by
    rintro batchId batch hBatch rfl
    exact absurd (hRecords.landed _ _ hBatch) hFree

theorem Submitted.mine {txHash' : String} {batchId : Bytes32} {commitTimestamp : Nat}
    {tx : CommitTx} (hSent : Submitted c chain ready txHash) (hRecords : RecordsCoherent c chain)
    (hTx : chain.inFlight.get? txHash' = some tx) (hFree : chain.landed.get? batchId = none) :
    Submitted c
      { chain with
        inFlight := chain.inFlight.erase txHash'
        landed := chain.landed.set batchId ⟨txHash', commitTimestamp, tx⟩ } ready txHash where
  used := hSent.used
  unheard := hSent.unheard
  live := by
    rcases hSent.live with ⟨tx', hTx', hReceipts⟩ | ⟨batchId', batch, hBatch, hHash, hReceipts⟩
    · by_cases hSame : txHash = txHash'
      · subst hSame
        rw [hTx] at hTx'
        cases hTx'
        exact .inr ⟨batchId, _, Dict.get?_set_self _ _ _, rfl, hReceipts⟩
      · exact .inl ⟨tx', by simpa [Dict.get?_erase, hSame] using hTx', hReceipts⟩
    · refine .inr ⟨batchId', batch, ?_, hHash, hReceipts⟩
      have hNe : batchId' ≠ batchId := by
        rintro rfl
        rw [hFree] at hBatch
        cases hBatch
      simpa [Dict.get?_set, hNe] using hBatch
  untracked := by
    intro batchId' batch hBatch hHash
    rw [Dict.get?_set] at hBatch
    split at hBatch
    case isTrue hSame =>
        -- The new batch has an id that no tracked batch can have.
        by_contra hSome
        obtain ⟨record, hGet⟩ := Option.ne_none_iff_exists'.mp hSome
        exact (hRecords.tracked _ _ hGet).2 (hSame ▸ hFree)
    case isFalse => exact hSent.untracked batchId' batch hBatch hHash

end Chain

theorem task_moves {task : Task} (h : Coherent keccak256 w)
    (hMove : Moves keccak256 settings w input task) :
    TaskCoherent keccak256 w.node.client w.chain task := by
  cases hMove with
  | commitStarted force now => exact queued_readyBatches settings.config _ _
  | recoveryStarted => exact remaining_entries _
  | reconciliationStarted => exact remaining_entries _
  | intentKept hTask => exact (h.recovering hTask).tail
  | pendingCommitKept hTask => exact (h.reconciling hTask).tail
  | _ => trivial

theorem task_step (h : Coherent keccak256 w) (hStep : Step keccak256 settings w input w') :
    TaskCoherent keccak256 w'.node.client w'.chain w'.task := by
  cases hStep with
  | moved hMove =>
      have hTask := task_moves h hMove
      exact hTask
  | dropped => exact h.task
  | repeated now hTask =>
      rw [hTask]
      trivial
  | taken hTask =>
      rw [hTask]
      trivial
  | written hTask hBuild =>
      exact ⟨h.queued hTask, hBuild, Dict.get?_set_self _ _ _, fun _ hNone => nomatch hNone⟩
  | submitted hTask hSubmit =>
      have hAwaited := h.awaited hTask
      obtain ⟨hFree, rfl⟩ := Chain.submit_eq_some_iff.mp hSubmit
      refine ⟨hAwaited.queued, hAwaited.built, hAwaited.intent, ?_⟩
      rintro _ ⟨rfl⟩
      exact submitted_of_fresh h.records hFree rfl
  | replied outcome hTask hReply =>
      have hQueued := (h.awaited hTask).queued
      cases hReply with
      | landed => exact hQueued.pop
      | sent => exact hQueued.pop
      | unknown => exact hQueued.pop
      | unsent => exact hQueued.tail
      | reverted => exact hQueued.tail
  | intentAdopted hTask => exact (h.recovering hTask).resolve
  | pendingCommitAdopted hTask => exact (h.reconciling hTask).resolve
  | mined hMine =>
      obtain ⟨tx, hTx, hFree, rfl⟩ := Chain.mine_eq_some hMine
      cases hTask : w.task with
      | awaiting ready leafHashes root submitted rest =>
          have hAwaited := h.awaited hTask
          exact ⟨hAwaited.queued, hAwaited.built, hAwaited.intent,
            fun txHash hSubmitted => (hAwaited.sent txHash hSubmitted).mine h.records hTx hFree⟩
      | idle => trivial
      | committing rest => exact h.queued hTask
      | recovering rest => exact h.recovering hTask
      | reconciling rest => exact h.reconciling hTask
  | restarted => trivial

theorem coherent_step (h : Coherent keccak256 w) (hStep : Step keccak256 settings w input w') :
    Coherent keccak256 w' where
  current := current_step h hStep
  wellFormed := wellFormed_step h hStep
  records := records_step h hStep
  task := task_step h hStep

end Prsm.SettlementClient
