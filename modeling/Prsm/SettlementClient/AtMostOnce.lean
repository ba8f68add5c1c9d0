import Prsm.SettlementClient.Coherence

/-!
# An escrow id settles at most once

The ledger stops a receipt whose id was armed for a commit, and a batch stops
one whose id it holds.  Neither looks at the pending batches under other keys, so
one id can wait under two keys and land twice.

If no receipt arrives while its id waits under another key, the pending batches, the batch in the
call and the transactions on the chain share no id (`Separate`), whatever crashes, lost receipts,
reverts and recoveries happen.
-/

namespace Prsm.SettlementClient

open Foundations Evm Settlement

variable {keccak256 : Keccak} {settings : Settings} {w w' : World} {input : Input}
  {ids : Finset String}

/-! ## Where ids are -/

def idsOf (receipts : List BatchedReceipt) : Multiset String := ↑(escrowIds receipts)

@[simp] theorem idsOf_nil : idsOf [] = 0 := rfl

theorem idsOf_append (receipts receipts' : List BatchedReceipt) :
    idsOf (receipts ++ receipts') = idsOf receipts + idsOf receipts' := by
  simp [idsOf, escrowIds_append]

theorem mem_idsOf {receipts : List BatchedReceipt} {id : String} :
    id ∈ idsOf receipts ↔ id ∈ escrowIds receipts :=
  Multiset.mem_coe

def pendingIds (pending : Pending) : Multiset String :=
  pending.total fun _ batch => idsOf batch.receipts

/-- The ids of the transactions that are in flight or have landed. -/
def liveIds (chain : Chain) : Multiset String :=
  (chain.inFlight.total fun _ tx => idsOf tx.receipts) +
    chain.landed.total fun _ batch => idsOf batch.tx.receipts

theorem ne_empty_of_mem_pendingIds {pending : Pending} {id : String}
    (h : id ∈ pendingIds pending) : id ≠ "" := by
  obtain ⟨_, batch, -, hId⟩ := Dict.mem_total_iff.mp h
  exact (mem_escrowIds.mp (mem_idsOf.mp hId)).1

theorem ne_empty_of_mem_liveIds {chain : Chain} {id : String} (h : id ∈ liveIds chain) :
    id ≠ "" := by
  rcases Multiset.mem_add.mp h with hFlight | hLanded
  · obtain ⟨_, tx, -, hId⟩ := Dict.mem_total_iff.mp hFlight
    exact (mem_escrowIds.mp (mem_idsOf.mp hId)).1
  · obtain ⟨_, batch, -, hId⟩ := Dict.mem_total_iff.mp hLanded
    exact (mem_escrowIds.mp (mem_idsOf.mp hId)).1

/-- No id is in two places: the pending batches, receipts that are about to be
sent, and transactions.  The ledger has the ids of the last two and none of the
first. -/
structure Separate (ids : Finset String) (pending : Pending) (unsent : List BatchedReceipt)
    (chain : Chain) (ledger : EscrowLedger) : Prop where
  nodup : (pendingIds pending + (idsOf unsent + liveIds chain)).Nodup
  armed : ∀ id ∈ idsOf unsent + liveIds chain, id ∈ ledger.ids
  unarmed : ∀ id ∈ pendingIds pending, id ∉ ledger.ids
  within : ledger.Within ids
  pending_within : ∀ id ∈ pendingIds pending, id ∈ ids

theorem separate_fresh : Separate ids ∅ [] Chain.fresh EscrowLedger.empty where
  nodup := Multiset.nodup_zero
  armed := by
    intro id h
    exact absurd h (Multiset.notMem_zero id)
  unarmed := by
    intro id h
    exact absurd h (Multiset.notMem_zero id)
  within := by
    intro id h
    cases h
  pending_within := by
    intro id h
    exact absurd h (Multiset.notMem_zero id)

namespace Separate

variable {pending : Pending} {unsent receipts : List BatchedReceipt} {chain : Chain}
  {ledger : EscrowLedger} {key : AccumulatorKey} {batch : PendingBatch}

theorem fewer {pending' : Pending} {rest : Multiset String}
    (h : Separate ids pending unsent chain ledger)
    (hLess : pendingIds pending' + rest = pendingIds pending) :
    Separate ids pending' unsent chain ledger where
  nodup := by
    refine Multiset.nodup_of_le ?_ h.nodup
    rw [← hLess]
    gcongr
    exact Multiset.le_add_right _ _
  armed := h.armed
  unarmed := fun id hId => h.unarmed id (hLess ▸ Multiset.mem_add.mpr (.inl hId))
  within := h.within
  pending_within := fun id hId => h.pending_within id (hLess ▸ Multiset.mem_add.mpr (.inl hId))

theorem erase (h : Separate ids pending unsent chain ledger) (key : AccumulatorKey) :
    Separate ids (pending.erase key) unsent chain ledger :=
  h.fewer (Dict.total_erase _ pending key)

theorem filterKeys (h : Separate ids pending unsent chain ledger) (p : AccumulatorKey → Bool) :
    Separate ids (pending.filterKeys p) unsent chain ledger :=
  h.fewer (Dict.total_filterKeys p)

theorem forget (h : Separate ids pending unsent chain ledger) :
    Separate ids pending [] chain ledger where
  nodup := by
    refine Multiset.nodup_of_le ?_ h.nodup
    rw [idsOf_nil, zero_add]
    gcongr
    exact Multiset.le_add_left _ _
  armed := by
    intro id hId
    rw [idsOf_nil, zero_add] at hId
    exact h.armed id (Multiset.mem_add.mpr (.inr hId))
  unarmed := h.unarmed
  within := h.within
  pending_within := h.pending_within

theorem take {br : BatchedReceipt} (h : Separate ids pending [] chain ledger)
    (hReceipts : batch.receipts = (pending.batchFor br).receipts ++ [br])
    (hPending : br.localEscrowId ∉ pendingIds pending)
    (hLedger : br.localEscrowId ≠ "" → br.localEscrowId ∉ ledger.ids)
    (hIds : br.localEscrowId ≠ "" → br.localEscrowId ∈ ids) :
    Separate ids (pending.set (keyOf br) batch) [] chain ledger := by
  have hTotal : pendingIds (pending.set (keyOf br) batch) = pendingIds pending + idsOf [br] :=
    Pending.total_add idsOf_append hReceipts
  have hOne : ∀ id ∈ idsOf [br], id = br.localEscrowId ∧ br.localEscrowId ≠ "" := by
    intro id hId
    obtain ⟨hSome, only, hOnly, rfl⟩ := mem_escrowIds.mp (mem_idsOf.mp hId)
    rw [List.mem_singleton.mp hOnly] at hSome ⊢
    exact ⟨rfl, hSome⟩
  constructor
  · rw [hTotal, add_right_comm, Multiset.nodup_add]
    -- The new id is in no pending batch and, not being armed, in no transaction.
    refine ⟨h.nodup, ?_, ?_⟩
    · exact Multiset.coe_nodup.mpr (nodup_escrowIds_singleton br)
    · rw [Multiset.disjoint_right]
      intro id hId hOld
      obtain ⟨rfl, hSome⟩ := hOne id hId
      rcases Multiset.mem_add.mp hOld with hOld | hOld
      · exact hPending hOld
      · exact hLedger hSome (h.armed _ hOld)
  · exact h.armed
  · intro id hId
    rw [hTotal] at hId
    rcases Multiset.mem_add.mp hId with hOld | hNew
    · exact h.unarmed id hOld
    · obtain ⟨rfl, hSome⟩ := hOne id hNew
      exact hLedger hSome
  · exact h.within
  · intro id hId
    rw [hTotal] at hId
    rcases Multiset.mem_add.mp hId with hOld | hNew
    · exact h.pending_within id hOld
    · obtain ⟨rfl, hSome⟩ := hOne id hNew
      exact hIds hSome

theorem pendingIds_erase (hGet : pending.get? key = some batch) :
    pendingIds (pending.erase key) + idsOf batch.receipts = pendingIds pending := by
  have hMoved := Dict.total_erase (fun _ batch => idsOf batch.receipts) pending key
  rwa [Dict.part_of_some hGet] at hMoved

theorem write (h : Separate ids pending [] chain ledger)
    (hFew : ids.card ≤ maxCommittedEscrowIds) (hGet : pending.get? key = some batch) :
    Separate ids (pending.erase key) batch.receipts chain (ledger.arm batch.receipts) := by
  have hMoved := pendingIds_erase hGet
  have hNodup := h.nodup
  rw [← hMoved, idsOf_nil, zero_add, add_assoc] at hNodup
  have hIds : ∀ id ∈ escrowIds batch.receipts, id ∈ ids :=
    fun id hId => h.pending_within id (hMoved ▸ Multiset.mem_add.mpr (.inr (mem_idsOf.mpr hId)))
  obtain ⟨hWithin, hArm⟩ := EscrowLedger.arm_spec hFew h.within hIds
  constructor
  · exact hNodup
  · intro id hId
    rw [hArm]
    rcases Multiset.mem_add.mp hId with hNew | hOld
    · exact .inr (mem_idsOf.mp hNew)
    · exact .inl (h.armed id (Multiset.mem_add.mpr (.inr hOld)))
  · intro id hId hArmed
    rcases (hArm id).mp hArmed with hOld | hNew
    · exact h.unarmed id (hMoved ▸ Multiset.mem_add.mpr (.inl hId)) hOld
    · rw [Multiset.nodup_add] at hNodup
      exact Multiset.disjoint_left.mp hNodup.2.2 hId
        (Multiset.mem_add.mpr (.inl (mem_idsOf.mpr hNew)))
  · exact hWithin
  · exact fun id hId => h.pending_within id (hMoved ▸ Multiset.mem_add.mpr (.inl hId))

theorem rearm (h : Separate ids pending unsent chain ledger)
    (hFew : ids.card ≤ maxCommittedEscrowIds)
    (hArmed : ∀ id ∈ escrowIds receipts, id ∈ ledger.ids) :
    Separate ids pending unsent chain (ledger.arm receipts) := by
  obtain ⟨hWithin, hArm⟩ :=
    EscrowLedger.arm_spec hFew h.within fun id hId => h.within id (hArmed id hId)
  have hSame : ∀ id, id ∈ (ledger.arm receipts).ids ↔ id ∈ ledger.ids := by
    intro id
    rw [hArm, or_iff_left_of_imp (hArmed id)]
  exact ⟨h.nodup, fun id hId => (hSame id).mpr (h.armed id hId),
    fun id hId hMem => h.unarmed id hId ((hSame id).mp hMem), hWithin, h.pending_within⟩

theorem unwrite (h : Separate ids (pending.erase key) batch.receipts chain ledger)
    (hGet : pending.get? key = some batch) :
    Separate ids pending [] chain (ledger.unarm batch.receipts) := by
  have hMoved := pendingIds_erase hGet
  have hNodup := h.nodup
  rw [← add_assoc, hMoved] at hNodup
  constructor
  · rwa [idsOf_nil, zero_add]
  · intro id hId
    rw [idsOf_nil, zero_add] at hId
    rw [EscrowLedger.mem_unarm (ne_empty_of_mem_liveIds hId)]
    refine ⟨h.armed id (Multiset.mem_add.mpr (.inr hId)), fun hBatch => ?_⟩
    -- A live id cannot also be in the batch that comes back.
    have hIn : id ∈ pendingIds pending :=
      hMoved ▸ Multiset.mem_add.mpr (.inr (mem_idsOf.mpr hBatch))
    exact Multiset.disjoint_left.mp (Multiset.nodup_add.mp hNodup).2.2 hIn hId
  · intro id hId hArmed
    rw [EscrowLedger.mem_unarm (ne_empty_of_mem_pendingIds hId)] at hArmed
    rw [← hMoved] at hId
    rcases Multiset.mem_add.mp hId with hOther | hBatch
    · exact h.unarmed id hOther hArmed.1
    · exact hArmed.2 (mem_idsOf.mp hBatch)
  · exact fun id hId => h.within id (EscrowLedger.mem_of_mem_unarm hId)
  · intro id hId
    rw [← hMoved] at hId
    rcases Multiset.mem_add.mp hId with hOther | hBatch
    · exact h.pending_within id hOther
    · exact h.within id (h.armed id (Multiset.mem_add.mpr (.inl hBatch)))

theorem of_live {unsent' : List BatchedReceipt} {chain' : Chain}
    (h : Separate ids pending unsent chain ledger)
    (hLive : idsOf unsent' + liveIds chain' = idsOf unsent + liveIds chain) :
    Separate ids pending unsent' chain' ledger where
  nodup := by
    rw [hLive]
    exact h.nodup
  armed := by
    rw [hLive]
    exact h.armed
  unarmed := h.unarmed
  within := h.within
  pending_within := h.pending_within

variable {txHash : String} {tx : CommitTx}

theorem submit {usedHashes : List String}
    (h : Separate ids pending tx.receipts chain ledger)
    (hFree : chain.inFlight.get? txHash = none) :
    Separate ids pending []
      { chain with inFlight := chain.inFlight.set txHash tx, usedHashes := usedHashes } ledger := by
  have hMoved := @Dict.total_set _ _ _ _ _ (fun _ tx => idsOf tx.receipts) chain.inFlight txHash tx
  rw [Dict.part_of_none hFree, add_zero] at hMoved
  apply h.of_live
  rw [idsOf_nil, liveIds, liveIds, hMoved]
  abel

theorem revert (h : Separate ids pending [] chain ledger)
    (hTx : chain.inFlight.get? txHash = some tx) :
    Separate ids pending tx.receipts (chain.revert txHash) ledger := by
  have hMoved := Dict.total_erase (fun _ tx => idsOf tx.receipts) chain.inFlight txHash
  rw [Dict.part_of_some hTx] at hMoved
  apply h.of_live
  rw [idsOf_nil, liveIds, liveIds, ← hMoved, Chain.revert]
  abel

theorem mine {batchId : Bytes32} {commitTimestamp : Nat}
    (h : Separate ids pending unsent chain ledger)
    (hTx : chain.inFlight.get? txHash = some tx) (hFree : chain.landed.get? batchId = none) :
    Separate ids pending unsent
      { chain with
        inFlight := chain.inFlight.erase txHash
        landed := chain.landed.set batchId ⟨txHash, commitTimestamp, tx⟩ } ledger := by
  have hFlight := Dict.total_erase (fun _ tx => idsOf tx.receipts) chain.inFlight txHash
  rw [Dict.part_of_some hTx] at hFlight
  have hLanded := @Dict.total_set _ _ _ _ _ (fun _ batch => idsOf batch.tx.receipts) chain.landed
    batchId ⟨txHash, commitTimestamp, tx⟩
  rw [Dict.part_of_none hFree, add_zero] at hLanded
  apply h.of_live
  rw [liveIds, liveIds, hLanded, ← hFlight]
  abel

end Separate

/-! ## Runs in which no receipt arrives under a second key -/

/-- The receipt that an input delivers. -/
def Input.arriving : Input → Option BatchedReceipt
  | .accumulate br _ => some br
  | _ => none

/-- The id of an arriving receipt is not waiting under another key. -/
def ArrivesUnderOneKey (w : World) (input : Input) : Prop :=
  ∀ br ∈ input.arriving, w.node.client.pending.All fun key batch =>
    br.localEscrowId ∈ escrowIds batch.receipts → key = keyOf br

instance (w : World) (input : Input) : Decidable (ArrivesUnderOneKey w input) :=
  inferInstanceAs (Decidable (∀ br ∈ input.arriving, _))

/-- The ids that arrive in a run, without the empty one. -/
def arrivingIds (inputs : List Input) : Finset String :=
  (escrowIds (inputs.filterMap Input.arriving)).toFinset

/-- The invariant of those runs. -/
structure Settled (keccak256 : Keccak) (ids : Finset String) (w : World) : Prop where
  coherent : Coherent keccak256 w
  separate : Separate ids (apart w.node.client.pending w.task) w.task.unsent w.chain
    w.node.client.committedEscrowIds

/-- Each non-empty escrow id is in at most one batch that landed. -/
def AtMostOnce (w : World) : Prop :=
  ∀ id, id ≠ "" → ∀ batchId batchId' batch batch',
    w.chain.landed.get? batchId = some batch → w.chain.landed.get? batchId' = some batch' →
    id ∈ batch.tx.receipts.map BatchedReceipt.localEscrowId →
    id ∈ batch'.tx.receipts.map BatchedReceipt.localEscrowId → batchId = batchId'

theorem Settled.atMostOnce (h : Settled keccak256 ids w) : AtMostOnce w := by
  intro id hSome batchId batchId' batch batch' hBatch hBatch' hId hId'
  have hLanded : (w.chain.landed.total fun _ batch => idsOf batch.tx.receipts).Nodup := by
    refine Multiset.nodup_of_le ?_ h.separate.nodup
    exact (Multiset.le_add_left _ _).trans
      ((Multiset.le_add_left _ _).trans (Multiset.le_add_left _ _))
  have hMem : ∀ {receipts : List BatchedReceipt},
      id ∈ receipts.map BatchedReceipt.localEscrowId → id ∈ idsOf receipts := by
    intro receipts hReceipts
    obtain ⟨br, hBr, hEq⟩ := List.mem_map.mp hReceipts
    exact mem_idsOf.mpr (mem_escrowIds.mpr ⟨hSome, br, hBr, hEq⟩)
  exact Dict.eq_of_nodup_total hLanded hBatch hBatch' (hMem hId) (hMem hId')

theorem armed_of_submitted {c : Client} {chain : Chain} {ready : ReadyBatch} {txHash : String}
    {pending : Pending} {unsent : List BatchedReceipt} {ledger : EscrowLedger}
    (hSeparate : Separate ids pending unsent chain ledger)
    (hSent : Submitted c chain ready txHash) :
    ∀ id ∈ escrowIds ready.batch.receipts, id ∈ ledger.ids := by
  intro id hId
  refine hSeparate.armed id (Multiset.mem_add.mpr (.inr (Multiset.mem_add.mpr ?_)))
  rcases hSent.live with ⟨tx, hTx, hReceipts⟩ | ⟨batchId, batch, hBatch, -, hReceipts⟩
  · exact .inl (Dict.mem_total_iff.mpr ⟨_, tx, hTx, hReceipts ▸ mem_idsOf.mpr hId⟩)
  · exact .inr (Dict.mem_total_iff.mpr ⟨_, batch, hBatch, hReceipts ▸ mem_idsOf.mpr hId⟩)

theorem separate_step (hFew : ids.card ≤ maxCommittedEscrowIds) (h : Settled keccak256 ids w)
    (hArrives : ArrivesUnderOneKey w input)
    (hIds : ∀ br now, input = .accumulate br now → br.localEscrowId ≠ "" →
      br.localEscrowId ∈ ids)
    (hStep : Step keccak256 settings w input w') :
    Separate ids (apart w'.node.client.pending w'.task) w'.task.unsent w'.chain
      w'.node.client.committedEscrowIds := by
  have hSeparate := h.separate
  cases hStep with
  | moved hMove =>
      obtain ⟨hBefore, hAfter⟩ := hMove.notInCall
      rw [apart_of_notInCall _ hBefore, Task.unsent_of_notInCall hBefore] at hSeparate
      rw [apart_of_notInCall _ hAfter, Task.unsent_of_notInCall hAfter]
      exact hSeparate
  | dropped => exact hSeparate
  | repeated => exact hSeparate
  | @taken br now pending hTask hDrops hHolds hAdd =>
      obtain ⟨batch, hAdd', -, hReceipts⟩ := Pending.add_of_new h.coherent.wellFormed now hHolds
      rw [hAdd] at hAdd'
      cases hAdd'
      rw [hTask] at hSeparate ⊢
      refine Separate.take hSeparate hReceipts ?_ ?_ (hIds br now rfl)
      · intro hOld
        obtain ⟨key, batch, hGet, hId⟩ := Dict.mem_total_iff.mp hOld
        -- The id waits under the receipt's own key, where the batch would hold it.
        obtain rfl := hArrives br rfl key batch hGet (mem_idsOf.mp hId)
        have hBatch := h.coherent.wellFormed _ _ hGet
        have hFor : w.node.client.pending.batchFor br = batch := by
          simp [Pending.batchFor, hGet]
        rw [hFor, hBatch.eq_collected, holds_collected.mpr (mem_idsOf.mp hId)] at hHolds
        cases hHolds
      · intro hSome
        have hNot : br.localEscrowId ∉ w.node.client.committedEscrowIds.ids := by
          simpa [Node.drops, hSome] using hDrops
        exact hNot
  | written hTask hBuild =>
      have hQueued := h.coherent.queued hTask
      rw [hTask] at hSeparate
      exact hSeparate.write hFew (hQueued.held _ List.mem_cons_self)
  | submitted hTask hSubmit =>
      obtain ⟨hFree, rfl⟩ := Chain.submit_eq_some_iff.mp hSubmit
      rw [hTask] at hSeparate
      refine Separate.submit hSeparate ?_
      by_contra hSome
      obtain ⟨tx, hTx⟩ := Option.ne_none_iff_exists'.mp hSome
      exact hFree (h.coherent.records.inFlight _ _ hTx)
  | @replied ready leafHashes root submitted rest outcome reply chain hTask hReply =>
      have hAwaited := h.coherent.awaited hTask
      have hGet := hAwaited.queued.held _ List.mem_cons_self
      rw [hTask] at hSeparate
      cases hReply with
      | landed hFound =>
          exact Separate.rearm hSeparate hFew
            (armed_of_submitted hSeparate (hAwaited.sent _ rfl))
      | sent txHash => exact hSeparate
      -- Popped and armed, the receipts cannot come back, sent or not.
      | unknown => exact hSeparate.forget
      | unsent => exact hSeparate.unwrite hGet
      | reverted hNot =>
          -- The transaction did not land, so it is the one in flight.
          rcases (hAwaited.sent _ rfl).live with ⟨tx, hTx, hReceipts⟩ | ⟨_, batch, hBatch, hHash, -⟩
          · have hReverted := Separate.revert hSeparate hTx
            rw [hReceipts] at hReverted
            exact hReverted.unwrite hGet
          · exact absurd hHash (Chain.committedBatchForTx_eq_none hNot hBatch)
  | @intentAdopted older key intent rest batchId commitTimestamp hTask hFound =>
      rw [hTask] at hSeparate
      exact hSeparate.erase intent.accumulatorKey
  | pendingCommitAdopted hTask hFound =>
      rw [hTask] at hSeparate
      exact hSeparate
  | mined hMine =>
      obtain ⟨tx, hTx, hFree, rfl⟩ := Chain.mine_eq_some hMine
      exact hSeparate.mine hTx hFree
  | restarted hRestart =>
      rw [Node.restart_eq h.coherent.current] at hRestart
      cases hRestart
      show Separate ids w.node.client.unownedPending [] w.chain w.node.client.committedEscrowIds
      rw [h.coherent.unownedPending_eq]
      exact (hSeparate.filterKeys _).forget

theorem mem_arrivingIds {inputs : List Input} {br : BatchedReceipt} {now : Int}
    (hMem : .accumulate br now ∈ inputs) (hSome : br.localEscrowId ≠ "") :
    br.localEscrowId ∈ arrivingIds inputs := by
  rw [arrivingIds, List.mem_toFinset, mem_escrowIds]
  exact ⟨hSome, br, List.mem_filterMap.mpr ⟨_, hMem, rfl⟩, rfl⟩

/-- Let fewer ids arrive in a run than the ledger holds, and none of them while it
is waiting under another key.  Then no id is ever in two batches that landed. -/
theorem atMostOnce_of_arrivesUnderOneKey (inputs : List Input)
    (hFew : (arrivingIds inputs).card < maxCommittedEscrowIds)
    (hArrives : (settlementMachine keccak256 settings).EveryStep ArrivesUnderOneKey World.fresh
      inputs) :
    (settlementMachine keccak256 settings).EveryState AtMostOnce World.fresh inputs := by
  have hSteps := hArrives.and ((settlementMachine keccak256 settings).everyStep_mem World.fresh
    inputs)
  have hStart : Settled keccak256 (arrivingIds inputs) World.fresh :=
    ⟨coherent_fresh, separate_fresh⟩
  have hSettled : (settlementMachine keccak256 settings).EveryState
      (Settled keccak256 (arrivingIds inputs)) World.fresh inputs := by
    refine (settlementMachine keccak256 settings).everyState_of_everyStep _ _ ?_ hStart hSteps
    rintro w input w' hSettled ⟨hOneKey, hMem⟩ hStep
    have hShape := step_of_settlementStep hStep
    refine ⟨coherent_step hSettled.coherent hShape,
      separate_step hFew.le hSettled hOneKey ?_ hShape⟩
    rintro br now rfl hSome
    exact mem_arrivingIds hMem hSome
  exact fun visited hVisited => (hSettled visited hVisited).atMostOnce

/-! ## One id under two slash rates -/

def twoRatesRun : List Input :=
  [.accumulate (smallReceipt "job-1" "escrow-1" 0) 1000,
    .accumulate (smallReceipt "job-1" "escrow-1" 5000) 1001,
    .commitReadyBatches true 1002] ++ landedRound "0x01" 1 ++ landedRound "0x02" 2

/-- Both batches land. -/
theorem landedTwice_twoRatesRun :
    (arrivingIds twoRatesRun).card < maxCommittedEscrowIds ∧
      ¬ (settlementMachine polynomialHash smallSettings).EveryState AtMostOnce World.fresh
        twoRatesRun := by
  refine ⟨by decide +kernel, fun hOnce => ?_⟩
  have hOne : (((settlementMachine polynomialHash smallSettings).run World.fresh
      twoRatesRun).chain.landed.get? 1).map
        (fun batch => batch.tx.receipts.map BatchedReceipt.localEscrowId) =
      some ["escrow-1"] := by
    decide +kernel
  have hTwo : (((settlementMachine polynomialHash smallSettings).run World.fresh
      twoRatesRun).chain.landed.get? 2).map
        (fun batch => batch.tx.receipts.map BatchedReceipt.localEscrowId) =
      some ["escrow-1"] := by
    decide +kernel
  obtain ⟨batch, hBatch, hFirst⟩ := Option.map_eq_some_iff.mp hOne
  obtain ⟨batch', hBatch', hSecond⟩ := Option.map_eq_some_iff.mp hTwo
  have hSame := hOnce.last "escrow-1" (by decide) 1 2 batch batch' hBatch hBatch'
    (by simp [hFirst]) (by simp [hSecond])
  exact absurd hSame (by decide)

def redeliveredRun : List Input :=
  [.accumulate (smallReceipt "job-1" "escrow-1" 0) 1000, .commitReadyBatches true 1002] ++
    landedRound "0x01" 1 ++
      [.nextBatch, .restart, .accumulate (smallReceipt "job-1" "escrow-1" 5000) 1200,
        .commitReadyBatches true 1202, .nextBatch]

theorem atMostOnce_redeliveredRun :
    (settlementMachine polynomialHash smallSettings).EveryState AtMostOnce World.fresh
        redeliveredRun ∧
      ((settlementMachine polynomialHash smallSettings).run World.fresh
        redeliveredRun).chain.landed.entries.length = 1 :=
  ⟨atMostOnce_of_arrivesUnderOneKey redeliveredRun (by decide +kernel) (by decide +kernel),
    by decide +kernel⟩

end Prsm.SettlementClient
