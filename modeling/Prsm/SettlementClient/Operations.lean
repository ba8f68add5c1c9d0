import Prsm.SettlementClient.Accumulator

/-!
# `BatchSettlementClient`: state and operations

The client moves accumulated receipts to the chain.  Around the irreversible
broadcast it keeps a write-ahead record: `committing` holds the intent of a
batch about to be broadcast, `pending_commits` the commits whose receipt was
lost, and `tracked` the batches known to have landed.  The ledger of committed
escrow ids makes `accumulate` drop a receipt that was settled before.

A `Node` is the client in memory together with its state file.  Every operation
that changes the client ends by saving it, so the operations below are the
stretches of the source between two `_persist` calls.  A crash loses the client
and keeps the file; `restart` builds the client from it.
-/

namespace Prsm.SettlementClient

open Foundations Evm Settlement

structure CommittedBatch where
  batchId : Bytes32
  txHash : String
  providerAddress : String
  requesterAddress : String
  merkleRoot : Bytes32
  receiptCount : Nat
  totalValueFtns : Int
  commitTimestamp : Nat
  leafHashes : List Bytes32
  triggerReason : TriggerReason

structure CommitIntent where
  accumulatorKey : AccumulatorKey
  merkleRoot : Bytes32
  leafHashes : List Bytes32
  receiptCount : Nat
  totalValueFtns : Int
  providerAddress : String
  requesterAddress : String
  triggerReason : TriggerReason
  deriving DecidableEq

structure PendingCommit where
  accumulatorKey : AccumulatorKey
  txHash : String
  merkleRoot : Bytes32
  leafHashes : List Bytes32
  receiptCount : Nat
  totalValueFtns : Int
  providerAddress : String
  requesterAddress : String
  triggerReason : TriggerReason
  deriving DecidableEq

/-! ## The ledger of committed escrow ids -/

def maxCommittedEscrowIds : Nat := 200000

/-- The ids in the order they were last recorded, oldest first. -/
structure EscrowLedger where
  ids : List String
  nodup : ids.Nodup

namespace EscrowLedger

def empty : EscrowLedger := ⟨[], List.nodup_nil⟩

theorem nodup_moveToEnd {ids : List String} (h : ids.Nodup) (id : String) :
    (ids.erase id ++ [id]).Nodup := by
  rw [List.nodup_append]
  refine ⟨h.erase id, List.nodup_singleton id, ?_⟩
  rintro a ha b hb rfl
  rw [List.mem_singleton.mp hb] at ha
  exact h.not_mem_erase ha

/-- `_record_committed_escrow_id`: the id becomes the newest one, and the oldest
are evicted while the ledger is over its cap. -/
def record (ledger : EscrowLedger) (id : String) : EscrowLedger :=
  if id = "" then ledger
  else
    ⟨(ledger.ids.erase id ++ [id]).drop
        ((ledger.ids.erase id ++ [id]).length - maxCommittedEscrowIds),
      (nodup_moveToEnd ledger.nodup id).sublist (List.drop_sublist _ _)⟩

/-- `_discard_committed_escrow_id`. -/
def discard (ledger : EscrowLedger) (id : String) : EscrowLedger :=
  if id = "" then ledger else ⟨ledger.ids.erase id, ledger.nodup.erase id⟩

/-- `_arm_committing_escrow_ids`, over the receipts of the ready batch. -/
def arm (ledger : EscrowLedger) (receipts : List BatchedReceipt) : EscrowLedger :=
  receipts.foldl (fun ledger br => ledger.record br.localEscrowId) ledger

/-- The loop that takes the ids of a reverted commit out again. -/
def unarm (ledger : EscrowLedger) (receipts : List BatchedReceipt) : EscrowLedger :=
  receipts.foldl (fun ledger br => ledger.discard br.localEscrowId) ledger

end EscrowLedger

/-! ## The client and its state file -/

/-- The constructor's arguments that the modelled methods read. -/
structure Settings where
  config : AccumulatorConfig
  providerAddress : String

structure Client where
  /-- The accumulator's pending batches. -/
  pending : Pending
  tracked : Dict Bytes32 CommittedBatch
  pendingCommits : Dict String PendingCommit
  committing : Dict String CommitIntent
  committedEscrowIds : EscrowLedger

/-- The client of a first start. -/
def Client.fresh : Client where
  pending := ∅
  tracked := ∅
  pendingCommits := ∅
  committing := ∅
  committedEscrowIds := EscrowLedger.empty

structure PendingEntry where
  accumulatorKey : AccumulatorKey
  startedAtUnix : Int
  receipts : List BatchedReceipt

def stateVersion : Nat := 1

/-- The contents of the state file.  Encoding to JSON and back is the identity
on them. -/
structure PersistedState where
  version : Nat
  tracked : Dict Bytes32 CommittedBatch
  pendingCommits : Dict String PendingCommit
  committing : Dict String CommitIntent
  pendingBatches : List PendingEntry
  committedEscrowIds : EscrowLedger

def serializePending (pending : Pending) : List PendingEntry :=
  pending.pendingItems.map fun item =>
    { accumulatorKey := item.1
      startedAtUnix := item.2.startedAtUnix
      receipts := item.2.receipts }

def Client.serializeState (c : Client) : PersistedState where
  version := stateVersion
  tracked := c.tracked
  pendingCommits := c.pendingCommits
  committing := c.committing
  pendingBatches := serializePending c.pending
  committedEscrowIds := c.committedEscrowIds

/-- The keys whose pending batch a commit intent owns. -/
def intentKeys (committing : Dict String CommitIntent) : List AccumulatorKey :=
  committing.entries.map fun entry => entry.2.accumulatorKey

/-- `_restore_pending`: a batch whose key an intent owns is not restored. -/
def restorePending (owned : List AccumulatorKey) (entries : List PendingEntry) :
    Option Pending :=
  entries.foldlM
    (fun pending entry =>
      if entry.accumulatorKey ∈ owned then some pending
      else pending.restore entry.accumulatorKey entry.receipts entry.startedAtUnix)
    (∅ : Pending)

/-- `_apply_state`, with `none` where it raises. -/
def applyState (state : PersistedState) : Option Client := do
  guard (state.version = stateVersion)
  let pending ← restorePending (intentKeys state.committing) state.pendingBatches
  some
    { pending := pending
      tracked := state.tracked
      pendingCommits := state.pendingCommits
      committing := state.committing
      committedEscrowIds := state.committedEscrowIds }

/-- A client and its state file, which does not exist before the first save. -/
structure Node where
  client : Client
  disk : Option PersistedState

namespace Node

def fresh : Node := ⟨Client.fresh, none⟩

def persist (n : Node) : Node :=
  { n with disk := some n.client.serializeState }

/-- The client is lost and the constructor loads the file. -/
def restart (n : Node) : Option Node :=
  match n.disk with
  | none => some { n with client := Client.fresh }
  | some state => (applyState state).map fun client => { n with client := client }

/-! ## Accumulation -/

/-- The ledger has the receipt's id, so `accumulate` drops the receipt. -/
def drops (n : Node) (br : BatchedReceipt) : Bool :=
  br.localEscrowId ≠ "" ∧ br.localEscrowId ∈ n.client.committedEscrowIds.ids

/-- `accumulate`, with `none` where it raises. -/
def accumulate (settings : Settings) (n : Node) (br : BatchedReceipt) (now : Int) :
    Option Node :=
  -- A receipt in which the bound address is neither side belongs to another client.
  if br.providerAddress ≠ settings.providerAddress ∧
      br.requesterAddress ≠ settings.providerAddress then none
  else if n.drops br then some n
  else do
    let pending ← n.client.pending.add br now
    some (persist { n with client := { n.client with pending := pending } })

/-! ## Committing -/

/-- `_build_leaves_root`, with `none` where it raises. -/
def buildLeavesRoot (keccak256 : Keccak) (ready : ReadyBatch) :
    Option (List Bytes32 × Bytes32) := do
  let leafHashes ← ready.batch.receipts.mapM (leafHash keccak256)
  let root ← buildMerkleRoot keccak256 leafHashes
  some (leafHashes, root)

end Node

/-- `bytes.hex()` of a 32-byte string. -/
def hex (x : Bytes32) : String :=
  String.ofList ((List.range 64).map fun i => Nat.digitChar (x.val / 16 ^ (63 - i) % 16))

def intentKey (key : AccumulatorKey) (root : Bytes32) : String :=
  hex root ++ "|" ++ key.requesterAddress ++ "|" ++ key.providerAddress ++ "|" ++
    hex key.groupId ++ "|" ++ toString key.slashRateBps

def buildIntent (ready : ReadyBatch) (leafHashes : List Bytes32) (root : Bytes32) :
    CommitIntent where
  accumulatorKey := ready.key
  merkleRoot := root
  leafHashes := leafHashes
  receiptCount := leafHashes.length
  totalValueFtns := ready.batch.totalValueFtns
  providerAddress := ready.key.providerAddress
  requesterAddress := ready.key.requesterAddress
  triggerReason := ready.trigger

/-- The record that `_commit_one` returns. -/
def buildRecord (ready : ReadyBatch) (leafHashes : List Bytes32) (root : Bytes32)
    (batchId : Bytes32) (commitTimestamp : Nat) : CommittedBatch where
  batchId := batchId
  txHash := ""
  providerAddress := ready.key.providerAddress
  requesterAddress := ready.key.requesterAddress
  merkleRoot := root
  receiptCount := leafHashes.length
  totalValueFtns := ready.batch.totalValueFtns
  commitTimestamp := commitTimestamp
  leafHashes := leafHashes
  triggerReason := ready.trigger

/-- The record that `_quarantine_pending` keeps. -/
def buildPendingCommit (ready : ReadyBatch) (txHash : String) (leafHashes : List Bytes32)
    (root : Bytes32) : PendingCommit where
  accumulatorKey := ready.key
  txHash := txHash
  merkleRoot := root
  leafHashes := leafHashes
  receiptCount := leafHashes.length
  totalValueFtns := ready.batch.totalValueFtns
  providerAddress := ready.key.providerAddress
  requesterAddress := ready.key.requesterAddress
  triggerReason := ready.trigger

/-- How `_commit_one` ends.  `pending` stands for the exceptions that carry a
transaction hash and `failed` for those that neither do nor report a failed
broadcast: a reverted transaction, or a refusal to send one. -/
inductive CommitReply
  | committed (batchId : Bytes32) (commitTimestamp : Nat)
  | pending (txHash : String)
  | broadcastFailed
  | failed

namespace Node

/-- One round of `commit_ready_batches` up to the broadcast: the write-ahead
intent and the armed ids. -/
def writeIntent (n : Node) (ready : ReadyBatch) (leafHashes : List Bytes32) (root : Bytes32) :
    Node :=
  persist
    { n with
      client :=
        { n.client with
          committing :=
            n.client.committing.set (intentKey ready.key root) (buildIntent ready leafHashes root)
          committedEscrowIds := n.client.committedEscrowIds.arm ready.batch.receipts } }

/-- The rest of the round. -/
def finishCommit (n : Node) (ready : ReadyBatch) (leafHashes : List Bytes32) (root : Bytes32) :
    CommitReply → Node
  -- The batch landed: it is tracked, and its ids stay in the ledger.
  | .committed batchId commitTimestamp =>
      persist
        { n with
          client :=
            { n.client with
              pending := n.client.pending.erase ready.key
              tracked :=
                n.client.tracked.set batchId
                  (buildRecord ready leafHashes root batchId commitTimestamp)
              committing := n.client.committing.erase (intentKey ready.key root)
              committedEscrowIds := n.client.committedEscrowIds.arm ready.batch.receipts } }
  -- The receipt of the transaction was lost; reconciliation looks for it later.
  | .pending txHash =>
      persist
        { n with
          client :=
            { n.client with
              pending := n.client.pending.erase ready.key
              pendingCommits :=
                n.client.pendingCommits.set txHash
                  (buildPendingCommit ready txHash leafHashes root)
              committing := n.client.committing.erase (intentKey ready.key root) } }
  | .broadcastFailed =>
      -- The intent stays: the transaction may have reached the network.
      persist { n with client := { n.client with pending := n.client.pending.erase ready.key } }
  -- Nothing landed, so the batch stays pending and its ids are free again.
  | .failed =>
      persist
        { n with
          client :=
            { n.client with
              committing := n.client.committing.erase (intentKey ready.key root)
              committedEscrowIds := n.client.committedEscrowIds.unarm ready.batch.receipts } }

/-! ## Recovery -/

/-- One round of `recover_committing_intents`, for an intent whose batch the scan
found. -/
def adoptIntent (n : Node) (key : String) (intent : CommitIntent) (batchId : Bytes32)
    (commitTimestamp : Nat) : Node :=
  persist
    { n with
      client :=
        { n.client with
          -- Whatever is pending under the key by now.
          pending := n.client.pending.erase intent.accumulatorKey
          tracked :=
            n.client.tracked.set batchId
              { batchId := batchId
                txHash := ""
                providerAddress := intent.providerAddress
                requesterAddress := intent.requesterAddress
                merkleRoot := intent.merkleRoot
                receiptCount := intent.receiptCount
                totalValueFtns := intent.totalValueFtns
                commitTimestamp := commitTimestamp
                leafHashes := intent.leafHashes
                triggerReason := intent.triggerReason }
          committing := n.client.committing.erase key } }

/-- One round of `reconcile_pending_commits`, for a transaction that landed. -/
def adoptPendingCommit (n : Node) (txHash : String) (pc : PendingCommit) (batchId : Bytes32)
    (commitTimestamp : Nat) : Node :=
  persist
    { n with
      client :=
        { n.client with
          tracked :=
            n.client.tracked.set batchId
              { batchId := batchId
                txHash := txHash
                providerAddress := pc.providerAddress
                requesterAddress := pc.requesterAddress
                merkleRoot := pc.merkleRoot
                receiptCount := pc.receiptCount
                totalValueFtns := pc.totalValueFtns
                commitTimestamp := commitTimestamp
                leafHashes := pc.leafHashes
                triggerReason := pc.triggerReason }
          pendingCommits := n.client.pendingCommits.erase txHash } }

end Node

/-! ## The ledger under its cap -/

namespace EscrowLedger

variable {ledger : EscrowLedger} {ids : Finset String}

/-- The ledger holds ids of a set that fits under the cap. -/
def Within (ledger : EscrowLedger) (ids : Finset String) : Prop :=
  ∀ id ∈ ledger.ids, id ∈ ids

variable {id : String} {receipts : List BatchedReceipt}

theorem mem_record (hFew : ids.card ≤ maxCommittedEscrowIds)
    (hWithin : ledger.Within ids) (hId : id ≠ "" → id ∈ ids) {other : String} :
    other ∈ (ledger.record id).ids ↔ other ∈ ledger.ids ∨ (other = id ∧ id ≠ "") := by
  by_cases hEmpty : id = ""
  · simp [record, hEmpty]
  · have hNodup := nodup_moveToEnd ledger.nodup id
    have hSubset : (ledger.ids.erase id ++ [id]).toFinset ⊆ ids := by
      intro x hx
      rcases List.mem_append.mp (List.mem_toFinset.mp hx) with hOld | hNew
      · exact hWithin x (List.mem_of_mem_erase hOld)
      · rw [List.mem_singleton.mp hNew]
        exact hId hEmpty
    have hLength : (ledger.ids.erase id ++ [id]).length ≤ maxCommittedEscrowIds := by
      rw [← List.toFinset_card_of_nodup hNodup]
      exact le_trans (Finset.card_le_card hSubset) hFew
    rw [record, if_neg hEmpty]
    simp only [Nat.sub_eq_zero_of_le hLength, List.drop_zero, List.mem_append, List.mem_singleton]
    by_cases hSame : other = id
    · simp [hSame, hEmpty]
    · simp [hSame, List.mem_erase_of_ne hSame]

theorem within_record (hFew : ids.card ≤ maxCommittedEscrowIds)
    (hWithin : ledger.Within ids) (hId : id ≠ "" → id ∈ ids) :
    (ledger.record id).Within ids := by
  intro other hOther
  rcases (mem_record hFew hWithin hId).mp hOther with hOld | ⟨rfl, hSome⟩
  · exact hWithin other hOld
  · exact hId hSome

theorem arm_spec (hFew : ids.card ≤ maxCommittedEscrowIds)
    (hWithin : ledger.Within ids) (hIds : ∀ id ∈ escrowIds receipts, id ∈ ids) :
    (ledger.arm receipts).Within ids ∧
      ∀ id, id ∈ (ledger.arm receipts).ids ↔ id ∈ ledger.ids ∨ id ∈ escrowIds receipts := by
  induction receipts generalizing ledger with
  | nil => exact ⟨hWithin, by simp [arm]⟩
  | cons br rest ih =>
      have hSplit : ∀ id, id ∈ escrowIds (br :: rest) ↔
          (id = br.localEscrowId ∧ br.localEscrowId ≠ "") ∨ id ∈ escrowIds rest := by
        intro id
        rw [show br :: rest = [br] ++ rest from rfl, escrowIds_append, List.mem_append,
          escrowIds_singleton]
        by_cases hEmpty : br.localEscrowId = "" <;> simp [hEmpty]
      have hHead : br.localEscrowId ≠ "" → br.localEscrowId ∈ ids :=
        fun hSome => hIds _ ((hSplit _).mpr (.inl ⟨rfl, hSome⟩))
      have hStep := within_record hFew hWithin hHead
      obtain ⟨hWithin', hMem⟩ :=
        ih hStep fun id hId => hIds id ((hSplit id).mpr (.inr hId))
      refine ⟨hWithin', fun id => ?_⟩
      show id ∈ ((ledger.record br.localEscrowId).arm rest).ids ↔ _
      rw [hMem, mem_record hFew hWithin hHead, hSplit, or_assoc]

theorem mem_discard {other : String} :
    other ∈ (ledger.discard id).ids ↔ other ∈ ledger.ids ∧ (other = id → id = "") := by
  by_cases hEmpty : id = ""
  · simp [discard, hEmpty]
  · rw [discard, if_neg hEmpty]
    by_cases hSame : other = id
    · simp [hSame, hEmpty, ledger.nodup.not_mem_erase]
    · simp [hSame, List.mem_erase_of_ne hSame]

theorem mem_of_mem_unarm
    (h : id ∈ (ledger.unarm receipts).ids) : id ∈ ledger.ids := by
  induction receipts generalizing ledger with
  | nil => exact h
  | cons br rest ih => exact (mem_discard.mp (ih h)).1

theorem mem_unarm (hSome : id ≠ "") :
    id ∈ (ledger.unarm receipts).ids ↔ id ∈ ledger.ids ∧ id ∉ escrowIds receipts := by
  induction receipts generalizing ledger with
  | nil => simp [unarm]
  | cons br rest ih =>
      show id ∈ ((ledger.discard br.localEscrowId).unarm rest).ids ↔ _
      rw [ih, mem_discard, show br :: rest = [br] ++ rest from rfl, escrowIds_append,
        List.mem_append, escrowIds_singleton]
      by_cases hEmpty : br.localEscrowId = ""
      · simp [hEmpty, hSome]
      · by_cases hSame : id = br.localEscrowId <;> simp [hEmpty, hSame]

end EscrowLedger

/-! ## Restarting -/

/-- The batches that a restart restores. -/
def Client.unownedPending (c : Client) : Pending :=
  c.pending.filterKeys fun key => key ∉ intentKeys c.committing

/-- The file determines the client: it holds the same state, up to pending
batches that an intent owns, or nothing was ever saved. -/
def Node.Current (n : Node) : Prop :=
  n = Node.fresh ∨
    ∃ saved : Pending, AllWellFormed saved ∧
      n.disk = some (Client.serializeState { n.client with pending := saved }) ∧
      Client.unownedPending { n.client with pending := saved } = n.client.unownedPending

theorem Node.current_persist {n : Node} (hPending : AllWellFormed n.client.pending) :
    n.persist.Current :=
  .inr ⟨n.client.pending, hPending, rfl, rfl⟩

theorem restorePending_eq (owned : List AccumulatorKey) {pending : Pending}
    (hPending : AllWellFormed pending) :
    restorePending owned (serializePending pending) =
      some (pending.filterKeys fun key => key ∉ owned) := by
  have hFold : ∀ (items : List (AccumulatorKey × PendingBatch)) (start : Pending),
      (∀ item ∈ items, WellFormed item.1 item.2) →
      (items.map fun item => PendingEntry.mk item.1 item.2.startedAtUnix item.2.receipts).foldlM
          (fun pending entry =>
            if entry.accumulatorKey ∈ owned then some pending
            else pending.restore entry.accumulatorKey entry.receipts entry.startedAtUnix) start =
        some ((items.filter fun item => item.1 ∉ owned).foldl
          (fun d item => d.set item.1 item.2) start) := by
    intro items
    induction items with
    | nil => exact fun _ _ => rfl
    | cons item rest ih =>
        intro start hItems
        have hRest : ∀ item ∈ rest, WellFormed item.1 item.2 :=
          fun item hMem => hItems item (List.mem_cons_of_mem _ hMem)
        rw [List.map_cons, List.foldlM_cons]
        by_cases hOwned : item.1 ∈ owned
        · simp only [hOwned, if_true, Option.bind_eq_bind, Option.bind_some]
          rw [ih start hRest, List.filter_cons_of_neg (by simpa using hOwned)]
        · simp only [hOwned, if_false, Pending.restore_eq (hItems item List.mem_cons_self),
            Option.bind_eq_bind, Option.bind_some]
          rw [ih _ hRest, List.filter_cons_of_pos (by simpa using hOwned), List.foldl_cons]
  have hItems : ∀ item ∈ pending.entries, WellFormed item.1 item.2 :=
    fun item hMem => hPending item.1 item.2 (Dict.mem_entries_iff.mp hMem)
  rw [restorePending, serializePending, Pending.pendingItems_eq hPending,
    hFold pending.entries ∅ hItems]
  refine congrArg some (Dict.ext ?_)
  exact Dict.entries_ofEntries (pending.nodup.sublist (List.filter_sublist.map _))

theorem Node.restart_eq {n : Node} (hCurrent : n.Current) :
    n.restart = some { n with client := { n.client with pending := n.client.unownedPending } } := by
  rcases hCurrent with rfl | ⟨saved, hSaved, hDisk, hSame⟩
  · rfl
  · have hRestore := restorePending_eq (intentKeys n.client.committing) hSaved
    rw [← hSame, Node.restart, hDisk]
    simp only [applyState, Client.serializeState, guard, if_true, hRestore,
      Option.bind_eq_bind, Option.bind_some, Client.unownedPending]
    rfl

theorem Node.current_restart {n : Node} (hCurrent : n.Current) :
    ({ n with client := { n.client with pending := n.client.unownedPending } } : Node).Current := by
  rcases hCurrent with rfl | ⟨saved, hSaved, hDisk, hSame⟩
  · exact .inl rfl
  · refine .inr ⟨saved, hSaved, hDisk, hSame.trans (Dict.ext ?_)⟩
    simp [Client.unownedPending, Dict.filterKeys]

end Prsm.SettlementClient
