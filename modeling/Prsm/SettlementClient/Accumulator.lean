import Prsm.Foundations.Dict
import Prsm.Settlement.Merkle

/-!
# The receipt accumulator

Receipts wait for settlement in one `PendingBatch` for each key of requester,
provider, consensus group and slash rate.  A batch becomes ready when it is
long, old or valuable enough, and the client pops it once its commit is on the
way.

A batch ignores a receipt whose escrow id it holds already.  That test is local
to the batch: the accumulator does not compare ids across keys.

`collected` is the batch that a list of receipts of one key builds.  Every batch of the
accumulator is of this form (`WellFormed`), so a restart that replays its receipts rebuilds it.
-/

namespace Prsm.SettlementClient

open Foundations Evm Settlement

inductive TriggerReason
  | count
  | time
  | value
  deriving DecidableEq

structure AccumulatorKey where
  requesterAddress : String
  providerAddress : String
  groupId : Bytes32
  slashRateBps : Int
  deriving DecidableEq

structure PendingBatch where
  receipts : List BatchedReceipt := []
  startedAtUnix : Int := 0
  totalValueFtns : Int := 0
  tierSlashRateBps : Int := 0
  consensusGroupId : Bytes32 := 0
  seenEscrowIds : Finset String := ∅
  deriving DecidableEq

structure ReadyBatch where
  key : AccumulatorKey
  batch : PendingBatch
  trigger : TriggerReason
  deriving DecidableEq

/-- The thresholds, which the constructor requires to be positive. -/
structure AccumulatorConfig where
  countThreshold : Int
  timeThresholdSeconds : Int
  valueThresholdFtns : Int
  countThreshold_pos : 0 < countThreshold
  timeThresholdSeconds_pos : 0 < timeThresholdSeconds
  valueThresholdFtns_pos : 0 < valueThresholdFtns

/-- The accumulator's `_pending`. -/
abbrev Pending := Dict AccumulatorKey PendingBatch

/-! ## Batches -/

namespace PendingBatch

def isEmpty (batch : PendingBatch) : Bool := batch.receipts.isEmpty

/-- The batch holds the receipt's escrow id already. -/
def holds (batch : PendingBatch) (br : BatchedReceipt) : Bool :=
  br.localEscrowId ≠ "" ∧ br.localEscrowId ∈ batch.seenEscrowIds

/-- The last lines of `append`. -/
def push (batch : PendingBatch) (br : BatchedReceipt) : PendingBatch :=
  { batch with
    receipts := batch.receipts ++ [br]
    totalValueFtns := batch.totalValueFtns + br.valueFtns
    seenEscrowIds :=
      if br.localEscrowId ≠ "" then insert br.localEscrowId batch.seenEscrowIds
      else batch.seenEscrowIds }

/-- `append`, with `none` where it raises. -/
def append (batch : PendingBatch) (br : BatchedReceipt) (atUnix : Int) : Option PendingBatch :=
  if batch.holds br then some batch
  -- The first receipt gives the batch its start, its rate and its group.
  else if batch.isEmpty then
    some (push
      { batch with
        startedAtUnix := atUnix
        tierSlashRateBps := br.tierSlashRateBps
        consensusGroupId := br.consensusGroupId } br)
  else if br.tierSlashRateBps ≠ batch.tierSlashRateBps then none
  else if br.consensusGroupId ≠ batch.consensusGroupId then none
  else some (batch.push br)

end PendingBatch

/-! ## The accumulator -/

/-- The key that `add` files a receipt under. -/
def keyOf (br : BatchedReceipt) : AccumulatorKey where
  requesterAddress := br.requesterAddress
  providerAddress := br.providerAddress
  groupId := br.consensusGroupId
  slashRateBps := br.tierSlashRateBps

namespace Pending

/-- The batch that `add` appends to. -/
def batchFor (pending : Pending) (br : BatchedReceipt) : PendingBatch :=
  (pending.get? (keyOf br)).getD {}

/-- `add` at the given time. -/
def add (pending : Pending) (br : BatchedReceipt) (now : Int) : Option Pending :=
  ((pending.batchFor br).append br now).map (pending.set (keyOf br))

def checkTriggers (config : AccumulatorConfig) (batch : PendingBatch) (now : Int) :
    Option TriggerReason :=
  if batch.isEmpty then none
  else if config.countThreshold ≤ batch.receipts.length then some .count
  else if config.timeThresholdSeconds ≤ now - batch.startedAtUnix then some .time
  else if config.valueThresholdFtns ≤ batch.totalValueFtns then some .value
  else none

def readyBatches (config : AccumulatorConfig) (pending : Pending) (now : Int) :
    List ReadyBatch :=
  pending.entries.filterMap fun entry =>
    (checkTriggers config entry.2 now).map fun trigger => ⟨entry.1, entry.2, trigger⟩

def pendingItems (pending : Pending) : List (AccumulatorKey × PendingBatch) :=
  pending.entries.filter fun entry => !entry.2.isEmpty

/-- `restore_pending`: replay the receipts. -/
def restore (pending : Pending) (key : AccumulatorKey) (receipts : List BatchedReceipt)
    (startedAtUnix : Int) : Option Pending := do
  let batch ← receipts.foldlM (fun batch br => batch.append br startedAtUnix) ({} : PendingBatch)
  if batch.isEmpty then some pending
  else some (pending.set key { batch with startedAtUnix := startedAtUnix })

end Pending

/-! ## Batches are what their receipts build -/

/-- The escrow ids of a list of receipts, without the empty ones. -/
def escrowIds (receipts : List BatchedReceipt) : List String :=
  (receipts.map BatchedReceipt.localEscrowId).filter (· ≠ "")

@[simp] theorem escrowIds_nil : escrowIds [] = [] := rfl

theorem escrowIds_append (receipts receipts' : List BatchedReceipt) :
    escrowIds (receipts ++ receipts') = escrowIds receipts ++ escrowIds receipts' := by
  simp [escrowIds]

theorem escrowIds_singleton (br : BatchedReceipt) :
    escrowIds [br] = if br.localEscrowId ≠ "" then [br.localEscrowId] else [] := by
  by_cases hEmpty : br.localEscrowId = "" <;> simp [escrowIds, hEmpty]

theorem nodup_escrowIds_singleton (br : BatchedReceipt) : (escrowIds [br]).Nodup := by
  rw [escrowIds_singleton]
  split
  · exact List.nodup_singleton _
  · exact List.nodup_nil

variable {receipts : List BatchedReceipt} {key : AccumulatorKey} {br : BatchedReceipt}

theorem mem_escrowIds {id : String} :
    id ∈ escrowIds receipts ↔ id ≠ "" ∧ ∃ br ∈ receipts, br.localEscrowId = id := by
  simp only [escrowIds, List.mem_filter, List.mem_map, decide_eq_true_eq]
  exact and_comm

/-- The batch under `key` that was started at the given time and holds the
receipts. -/
def collected (key : AccumulatorKey) (receipts : List BatchedReceipt) (startedAtUnix : Int) :
    PendingBatch where
  receipts := receipts
  startedAtUnix := startedAtUnix
  totalValueFtns := (receipts.map BatchedReceipt.valueFtns).sum
  tierSlashRateBps := key.slashRateBps
  consensusGroupId := key.groupId
  seenEscrowIds := (escrowIds receipts).toFinset

/-- A batch that appends under its key have built. -/
structure WellFormed (key : AccumulatorKey) (batch : PendingBatch) : Prop where
  eq_collected : batch = collected key batch.receipts batch.startedAtUnix
  some_receipt : batch.receipts ≠ []
  keyed : ∀ br ∈ batch.receipts, keyOf br = key
  ids_nodup : (escrowIds batch.receipts).Nodup

theorem holds_collected {start : Int} :
    (collected key receipts start).holds br = true ↔ br.localEscrowId ∈ escrowIds receipts := by
  simp only [PendingBatch.holds, collected, List.mem_toFinset, decide_eq_true_eq]
  exact ⟨And.right, fun h => ⟨(mem_escrowIds.mp h).1, h⟩⟩

theorem append_empty (br : BatchedReceipt) (atUnix : Int) :
    ({} : PendingBatch).append br atUnix = some (collected (keyOf br) [br] atUnix) := by
  by_cases hEmpty : br.localEscrowId = ""
  · simp [PendingBatch.append, PendingBatch.holds, PendingBatch.isEmpty, PendingBatch.push,
      collected, keyOf, escrowIds_singleton, hEmpty]
  · simp [PendingBatch.append, PendingBatch.holds, PendingBatch.isEmpty, PendingBatch.push,
      collected, keyOf, escrowIds_singleton, hEmpty]

theorem append_collected {start : Int} (hSome : receipts ≠ []) (hKey : keyOf br = key)
    (hNew : br.localEscrowId ∉ escrowIds receipts) (atUnix : Int) :
    (collected key receipts start).append br atUnix =
      some (collected key (receipts ++ [br]) start) := by
  have hHolds : (collected key receipts start).holds br = false := by
    rw [Bool.eq_false_iff]
    exact fun h => hNew (holds_collected.mp h)
  have hNonempty : (collected key receipts start).isEmpty = false := by
    simpa [PendingBatch.isEmpty, collected] using hSome
  subst hKey
  rw [PendingBatch.append, hHolds, hNonempty]
  have hSeen : (if br.localEscrowId ≠ "" then
      insert br.localEscrowId (escrowIds receipts).toFinset else (escrowIds receipts).toFinset) =
        (escrowIds (receipts ++ [br])).toFinset := by
    rw [escrowIds_append, escrowIds_singleton]
    split
    · rw [List.toFinset_append, Finset.insert_eq, Finset.union_comm]
      rfl
    · rw [List.append_nil]
  simp only [Bool.false_eq_true, if_false, collected, keyOf, ne_eq, not_true, PendingBatch.push,
    ← hSeen, List.map_append, List.sum_append]
  simp

theorem wellFormed_first (br : BatchedReceipt) (atUnix : Int) :
    WellFormed (keyOf br) (collected (keyOf br) [br] atUnix) where
  eq_collected := rfl
  some_receipt := List.cons_ne_nil _ _
  keyed := by
    intro br' hMem
    rw [List.mem_singleton.mp hMem]
  ids_nodup := nodup_escrowIds_singleton br

theorem WellFormed.later {batch : PendingBatch}
    (h : WellFormed key batch) (hKey : keyOf br = key)
    (hNew : br.localEscrowId ∉ escrowIds batch.receipts) :
    WellFormed key (collected key (batch.receipts ++ [br]) batch.startedAtUnix) where
  eq_collected := rfl
  some_receipt := by simp [collected]
  keyed := by
    intro br' hMem
    rcases List.mem_append.mp hMem with hOld | hLast
    · exact h.keyed br' hOld
    · rw [List.mem_singleton.mp hLast, hKey]
  ids_nodup := by
    show (escrowIds (batch.receipts ++ [br])).Nodup
    rw [escrowIds_append, List.nodup_append]
    refine ⟨h.ids_nodup, nodup_escrowIds_singleton br, ?_⟩
    rintro id hOld other hLast rfl
    obtain ⟨-, last, hMem, rfl⟩ := mem_escrowIds.mp hLast
    rw [List.mem_singleton.mp hMem] at hOld
    exact hNew hOld

theorem replay_eq (start : Int)
    (hSome : receipts ≠ []) (hKeyed : ∀ br ∈ receipts, keyOf br = key)
    (hNodup : (escrowIds receipts).Nodup) :
    receipts.foldlM (fun batch br => batch.append br start) ({} : PendingBatch) =
      some (collected key receipts start) := by
  induction receipts using List.reverseRecOn with
  | nil => exact absurd rfl hSome
  | append_singleton receipts br ih =>
      have hKey : keyOf br = key := hKeyed br (by simp)
      rw [List.foldlM_append]
      cases hFirst : receipts with
      | nil => simp [append_empty, hKey]
      | cons first rest =>
          have hEarlier : receipts ≠ [] := by simp [hFirst]
          rw [escrowIds_append, List.nodup_append] at hNodup
          obtain ⟨hNodupBefore, -, hApart⟩ := hNodup
          have hNew : br.localEscrowId ∉ escrowIds receipts := by
            intro hOld
            refine hApart _ hOld br.localEscrowId ?_ rfl
            rw [escrowIds_singleton, if_pos (mem_escrowIds.mp hOld).1]
            exact List.mem_singleton_self _
          have hBefore := ih hEarlier (fun br' hMem => hKeyed br' (by simp [hMem])) hNodupBefore
          rw [← hFirst, hBefore]
          simp [append_collected hEarlier hKey hNew]

/-! ## What the operations do to well-formed batches -/

/-- Every pending batch is well formed. -/
def AllWellFormed (pending : Pending) : Prop := pending.All WellFormed

namespace Pending

variable {pending : Pending} {br : BatchedReceipt}

theorem add_of_holds (now : Int) (hHolds : (pending.batchFor br).holds br = true) :
    pending.add br now = some pending := by
  rw [add, PendingBatch.append, if_pos hHolds]
  cases hGet : pending.get? (keyOf br) with
  | none => simp [batchFor, hGet, PendingBatch.holds] at hHolds
  | some batch => simp [batchFor, hGet, Dict.set_of_get? hGet]

theorem add_of_new (hPending : AllWellFormed pending) (now : Int)
    (hHolds : (pending.batchFor br).holds br = false) :
    ∃ batch, pending.add br now = some (pending.set (keyOf br) batch) ∧
      WellFormed (keyOf br) batch ∧
      batch.receipts = (pending.batchFor br).receipts ++ [br] := by
  cases hGet : pending.get? (keyOf br) with
  | none =>
      have hFor : pending.batchFor br = {} := by simp [batchFor, hGet]
      refine ⟨collected (keyOf br) [br] now, ?_, wellFormed_first br now, ?_⟩
      · rw [add, hFor, append_empty]
        rfl
      · rw [hFor]
        rfl
  | some batch =>
      have hFor : pending.batchFor br = batch := by simp [batchFor, hGet]
      have hBatch := hPending _ _ hGet
      have hNew : br.localEscrowId ∉ escrowIds batch.receipts := by
        intro hOld
        rw [hFor, hBatch.eq_collected, holds_collected.mpr hOld] at hHolds
        cases hHolds
      refine ⟨_, ?_, hBatch.later rfl hNew, ?_⟩
      · rw [add, hFor, hBatch.eq_collected, append_collected hBatch.some_receipt rfl hNew]
        rfl
      · rw [hFor]
        rfl

theorem total_add {X : Type} {φ : List BatchedReceipt → Multiset X}
    (hAppend : ∀ receipts receipts', φ (receipts ++ receipts') = φ receipts + φ receipts')
    {batch : PendingBatch} (hReceipts : batch.receipts = (pending.batchFor br).receipts ++ [br]) :
    (pending.set (keyOf br) batch).total (fun _ batch => φ batch.receipts) =
      pending.total (fun _ batch => φ batch.receipts) + φ [br] := by
  have hNil : φ [] = 0 := by
    have hTwice := hAppend [] []
    rwa [List.append_nil, left_eq_add] at hTwice
  have hPart : pending.part (fun _ batch => φ batch.receipts) (keyOf br) =
      φ (pending.batchFor br).receipts := by
    rw [Dict.part, batchFor]
    cases pending.get? (keyOf br) with
    | none => exact hNil.symm
    | some batch => rfl
  have hMoved := @Dict.total_set _ _ _ _ _ (fun _ batch => φ batch.receipts) pending (keyOf br)
    batch
  rw [hPart, hReceipts, hAppend] at hMoved
  refine add_right_cancel (hMoved.trans ?_)
  abel

theorem restore_eq {key : AccumulatorKey} {batch : PendingBatch} (hBatch : WellFormed key batch) :
    pending.restore key batch.receipts batch.startedAtUnix = some (pending.set key batch) := by
  have hReplay := replay_eq batch.startedAtUnix hBatch.some_receipt hBatch.keyed hBatch.ids_nodup
  have hNonempty : batch.isEmpty = false := by
    simpa [PendingBatch.isEmpty] using hBatch.some_receipt
  rw [← hBatch.eq_collected] at hReplay
  simp [restore, hReplay, hNonempty]

theorem pendingItems_eq (hPending : AllWellFormed pending) :
    pending.pendingItems = pending.entries := by
  rw [pendingItems, List.filter_eq_self]
  rintro ⟨key, batch⟩ hMem
  have hBatch := hPending key batch (Dict.mem_entries_iff.mp hMem)
  simpa [PendingBatch.isEmpty] using hBatch.some_receipt

theorem get?_of_mem_readyBatches {config : AccumulatorConfig} {now : Int} {ready : ReadyBatch}
    (h : ready ∈ pending.readyBatches config now) :
    pending.get? ready.key = some ready.batch := by
  obtain ⟨⟨key, batch⟩, hMem, hReady⟩ := List.mem_filterMap.mp h
  obtain ⟨trigger, -, rfl⟩ := Option.map_eq_some_iff.mp hReady
  exact Dict.mem_entries_iff.mp hMem

theorem nodup_readyBatches (config : AccumulatorConfig) (pending : Pending) (now : Int) :
    ((pending.readyBatches config now).map ReadyBatch.key).Nodup := by
  have hKeys : (pending.readyBatches config now).map ReadyBatch.key =
      (pending.entries.filter fun entry => (checkTriggers config entry.2 now).isSome).map
        Prod.fst := by
    rw [readyBatches, List.map_filterMap]
    induction pending.entries with
    | nil => rfl
    | cons entry rest ih =>
        cases hTrigger : checkTriggers config entry.2 now <;> simpa [hTrigger] using ih
  rw [hKeys]
  exact pending.nodup.sublist (List.filter_sublist.map _)

end Pending
end Prsm.SettlementClient
