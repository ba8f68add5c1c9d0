import Prsm.PerStage.Routing
import Prsm.SettlementClient.World

/-!
# Receiving and committing routed tasks

A stage node stages a routed task once the gate has authorized it, under the
escrow id that the receipt carries, and later hands the staged receipt to its own
settlement client.  The gate runs again before that.  The store is bounded and
its file may be lost or unwritable; the escrow id is all that it binds.
-/

namespace Prsm.PerStage

open Foundations Evm Settlement PaymentAuth

/-! ## The store of staged tasks -/

/-- A task that the gate authorized, with the payee set that it was checked
against. -/
structure StagedSettlementTask where
  task : PerStageSettlementTask
  payees : List (String × Int)
  stagedAt : Int

def StagedSettlementTask.localEscrowId (staged : StagedSettlementTask) : String :=
  staged.task.batchedReceipt.localEscrowId

abbrev StagedTasks := Dict String StagedSettlementTask

/-- `PerStageReceiverStore`, with its file.  Encoding to JSON and back is the
identity on staged tasks. -/
structure PerStageReceiverStore where
  staged : StagedTasks
  disk : Option StagedTasks

namespace PerStageReceiverStore

def fresh : PerStageReceiverStore := ⟨∅, none⟩

theorem nodup_drop {staged : StagedTasks} (n : Nat) :
    ((staged.entries.drop n).map Prod.fst).Nodup :=
  staged.nodup.sublist ((List.drop_sublist n _).map Prod.fst)

/-- The loop of `popitem(last=False)`. -/
def evictOldest (maxEntries : Nat) (staged : StagedTasks) : StagedTasks where
  entries := staged.entries.drop (staged.entries.length - maxEntries)
  nodup := nodup_drop _

/-- `_persist`, which swallows a failed write. -/
def persist (store : PerStageReceiverStore) (saved : Bool) : PerStageReceiverStore :=
  if saved then { store with disk := some store.staged } else store

/-- `stage`, with `none` where it raises. -/
def stage (store : PerStageReceiverStore) (maxEntries : Nat) (record : StagedSettlementTask)
    (saved : Bool) : Option PerStageReceiverStore :=
  if record.localEscrowId = "" then none
  else
    some (persist
      { store with
        staged := evictOldest maxEntries
          ((store.staged.erase record.localEscrowId).set record.localEscrowId record) } saved)

def discard (store : PerStageReceiverStore) (localEscrowId : String) (saved : Bool) :
    PerStageReceiverStore :=
  match store.staged.get? localEscrowId with
  | none => store
  | some _ => persist { store with staged := store.staged.erase localEscrowId } saved

theorem nodup_filter {staged : StagedTasks} (p : String × StagedSettlementTask → Bool) :
    ((staged.entries.filter p).map Prod.fst).Nodup :=
  staged.nodup.sublist (List.filter_sublist.map Prod.fst)

/-- `prune`, with the cutoff that it computes. -/
def prune (store : PerStageReceiverStore) (cutoff : ℚ) (saved : Bool) : PerStageReceiverStore :=
  if store.staged.entries.any (fun entry => (entry.2.stagedAt : ℚ) < cutoff) then
    persist
      { store with
        staged :=
          { entries := store.staged.entries.filter fun entry => cutoff ≤ entry.2.stagedAt
            nodup := nodup_filter _ } } saved
  else store

/-- `_load`: the tasks of the file under their own escrow ids, or none when the
file cannot be read. -/
def restart (store : PerStageReceiverStore) (readable : Bool) : PerStageReceiverStore :=
  match store.disk, readable with
  | some tasks, true =>
      { store with
        staged := Dict.ofEntries (tasks.entries.filterMap fun entry =>
          if entry.2.localEscrowId = "" then none
          else some (entry.2.localEscrowId, entry.2)) }
  | _, _ => { store with staged := ∅ }

end PerStageReceiverStore

/-! ## Receiving a task -/

/-- The settings of a stage node. -/
structure StageSettings where
  myNodeId : Option String
  maxEntries : Nat
  maxEntries_pos : 0 < maxEntries
  client : SettlementClient.Settings

/-- `TaskIngestResult`, or the exception of a payload that cannot be built. -/
inductive TaskIngestResult
  | accepted (localEscrowId : String)
  | misrouted (nodeId : String)
  | refused (verdict : Verdict)
  | stageFailed
  | raised

def ingestRoutedTask (v : Verifier) (settings : StageSettings) (store : PerStageReceiverStore)
    (task : PerStageSettlementTask) (payees : List (String × Int)) (nowUnix stagedAt : Int)
    (saved : Bool) : PerStageReceiverStore × TaskIngestResult :=
  if settings.myNodeId.any (fun mine => task.nodeId ≠ mine) then (store, .misrouted task.nodeId)
  else
    match verifyRoutedSettlementTask v task payees nowUnix with
    | .error _ => (store, .raised)
    | .ok .authorized =>
        match store.stage settings.maxEntries ⟨task, payees, stagedAt⟩ saved with
        | none => (store, .stageFailed)
        | some store => (store, .accepted task.batchedReceipt.localEscrowId)
    | .ok verdict => (store, .refused verdict)

/-! ## Committing a staged task -/

/-- The client takes a receipt that neither its ledger nor the batch under the
receipt's key knows. -/
def clientTakes (client : SettlementClient.World) (br : BatchedReceipt) : Bool :=
  !client.node.drops br && !(client.node.client.pending.batchFor br).holds br

/-- `commit_staged_task` up to the call of `commit_ready_batches`: the gate once
more, and the client's `accumulate`.  `none` is a task that is not committed. -/
def commitStagedTask (v : Verifier) (settings : StageSettings) (client : SettlementClient.World)
    (staged : StagedSettlementTask) (nowUnix now : Int) : Option SettlementClient.World :=
  match verifyRoutedSettlementTask v staged.task staged.payees nowUnix with
  | .ok .authorized =>
      SettlementClient.settlementStep v.keccak256 settings.client client
        (.accumulate staged.task.batchedReceipt now)
  | _ => none

/-! ## The stage nodes -/

structure StageNode where
  store : PerStageReceiverStore
  client : SettlementClient.World

/-- All stage nodes, and the staged tasks whose receipts the clients took. -/
structure Network where
  nodes : String → StageNode
  taken : List StagedSettlementTask

inductive StageInput
  | deliver (nodeId : String) (task : PerStageSettlementTask) (payees : List (String × Int))
      (nowUnix stagedAt : Int) (saved : Bool)
  | commit (nodeId localEscrowId : String) (nowUnix now : Int)
  /-- A step of the node's client other than `accumulate`. -/
  | client (nodeId : String) (input : SettlementClient.Input)
  | discard (nodeId localEscrowId : String) (saved : Bool)
  | prune (nodeId : String) (cutoff : ℚ) (saved : Bool)
  | restart (nodeId : String) (readable : Bool)

namespace Network

def fresh : Network := ⟨fun _ => ⟨.fresh, .fresh⟩, []⟩

def setStore (s : Network) (nodeId : String) (store : PerStageReceiverStore) : Network :=
  { s with nodes := Function.update s.nodes nodeId { s.nodes nodeId with store := store } }

def setClient (s : Network) (nodeId : String) (client : SettlementClient.World) : Network :=
  { s with nodes := Function.update s.nodes nodeId { s.nodes nodeId with client := client } }

variable (s : Network) {nodeId other : String}

theorem store_setStore_self (store : PerStageReceiverStore) :
    ((s.setStore nodeId store).nodes nodeId).store = store := by
  simp [setStore]

theorem nodes_setStore_of_ne (store : PerStageReceiverStore) (h : other ≠ nodeId) :
    (s.setStore nodeId store).nodes other = s.nodes other :=
  Function.update_of_ne h _ _

theorem store_setClient (client : SettlementClient.World) :
    ((s.setClient nodeId client).nodes other).store = (s.nodes other).store := by
  rcases eq_or_ne other nodeId with rfl | hOther
  · simp [setClient]
  · simp [setClient, hOther]

end Network

/-- One step of the network. -/
def stageStep (v : Verifier) (settings : String → StageSettings) (s : Network) :
    StageInput → Option Network
  | .deliver nodeId task payees nowUnix stagedAt saved =>
      match ingestRoutedTask v (settings nodeId) (s.nodes nodeId).store task payees nowUnix
        stagedAt saved with
      | (store, .accepted _) => some (s.setStore nodeId store)
      | _ => none
  | .commit nodeId localEscrowId nowUnix now => do
      let staged ← (s.nodes nodeId).store.staged.get? localEscrowId
      let client ← commitStagedTask v (settings nodeId) (s.nodes nodeId).client staged nowUnix now
      let taken :=
        if clientTakes (s.nodes nodeId).client staged.task.batchedReceipt then s.taken ++ [staged]
        else s.taken
      some { s.setClient nodeId client with taken := taken }
  | .client _ (.accumulate _ _) => none
  | .client nodeId input => do
      let client ← SettlementClient.settlementStep v.keccak256 (settings nodeId).client
        (s.nodes nodeId).client input
      some (s.setClient nodeId client)
  | .discard nodeId localEscrowId saved =>
      some (s.setStore nodeId ((s.nodes nodeId).store.discard localEscrowId saved))
  | .prune nodeId cutoff saved =>
      some (s.setStore nodeId ((s.nodes nodeId).store.prune cutoff saved))
  | .restart nodeId readable => do
      let client ← SettlementClient.settlementStep v.keccak256 (settings nodeId).client
        (s.nodes nodeId).client .restart
      some ((s.setStore nodeId ((s.nodes nodeId).store.restart readable)).setClient nodeId client)

def stageMachine (v : Verifier) (settings : String → StageSettings) : Machine Network StageInput :=
  ⟨stageStep v settings⟩

end Prsm.PerStage
