import Prsm.Foundations.StableSort
import Prsm.NoEscrow.IssuedAuthorizations
import Prsm.Settlement.AddressText
import Prsm.SettlementClient.World

/-!
# Scanning the chain for unauthorized batches

`scanForUnauthorizedBatches` reads every batch that names the requester and
reports those that the matcher classifies as unauthorized.  It passes no leaf
hashes, so only a single authorization over the total of the batch counts.

A provider's batch aggregates the receipts of several jobs.  Each job may have
its own authorization, none of which covers the total:
`scan_silent_iff` says exactly which batches pass.
-/

namespace Prsm.NoEscrow

open Foundations Evm Settlement SettlementClient

/-! ## The scan -/

/-- One observation of `BatchCommitted`, with the requester read from storage. -/
structure ObservedBatch where
  batchId : Bytes32
  requesterAddress : String

/-- What `read_batch` returns. -/
structure ChainBatch where
  requester : String
  provider : String
  totalValueFtns : Int
  commitTimestamp : Int
  status : Nat

structure UnauthorizedBatchAlert where
  classification : BatchAuthorizationClassification
  status : Nat
  challengeable : Bool

def statusPending : Nat := 1

/-- The batches that name the requester and can be read. -/
def readMine (lower : String → String) (observed : List ObservedBatch)
    (readBatch : Bytes32 → Option ChainBatch) (myAddress : String) :
    List (Bytes32 × ChainBatch) :=
  (observed.filter fun ob => lower ob.requesterAddress = lower myAddress).filterMap fun ob =>
    (readBatch ob.batchId).map fun row => (ob.batchId, row)

/-- The view that the scan makes of a batch. -/
def scanView (entry : Bytes32 × ChainBatch) : CommittedBatchView where
  batchId := entry.1
  requester := entry.2.requester
  provider := entry.2.provider
  totalValueWei := entry.2.totalValueFtns
  commitTimestamp := entry.2.commitTimestamp
  leafJobIdHashes := none

/-- The alert for an unauthorized batch. -/
def alertOf (mine : List (Bytes32 × ChainBatch)) (c : BatchAuthorizationClassification) :
    UnauthorizedBatchAlert :=
  let statusById := Dict.ofEntries (mine.map fun entry => (entry.1, entry.2.status))
  let status := (statusById.get? c.batchId).getD 0
  { classification := c, status := status, challengeable := status = statusPending }

/-- `scan_for_unauthorized_batches`.  `observed` is `none` where the enumeration
raises, and so is a read that raises. -/
def scanForUnauthorizedBatches (lower : String → String) (keccak256 : Keccak)
    (observed : Option (List ObservedBatch)) (readBatch : Bytes32 → Option ChainBatch)
    (store : IssuedAuthorizationStore) (myAddress : String) : List UnauthorizedBatchAlert :=
  match observed with
  | none => []
  | some observed =>
      let mine := readMine lower observed readBatch myAddress
      let results := matchUnauthorizedBatches lower keccak256 (mine.map scanView) store myAddress
      sortBy (fun alert => !alert.challengeable)
        ((results.filter fun c => c.classification = .unauthorized).map (alertOf mine))

/-! ## Batches of an accumulator -/

/-- The accumulators that adds and pops build from the empty one. -/
inductive Built : Pending → Prop
  | empty : Built ∅
  | add {pending pending' : Pending} (hBuilt : Built pending) {br : BatchedReceipt} {now : Int}
      (hAdd : pending.add br now = some pending') : Built pending'
  | pop {pending : Pending} (hBuilt : Built pending) (key : AccumulatorKey) :
      Built (pending.erase key)

theorem Built.allWellFormed {pending : Pending} (h : Built pending) : AllWellFormed pending := by
  induction h with
  | empty => exact Dict.all_empty WellFormed
  | @add pending pending' _ br now hAdd ih =>
      cases hHolds : (pending.batchFor br).holds br with
      | true =>
          rw [Pending.add_of_holds now hHolds] at hAdd
          cases hAdd
          exact ih
      | false =>
          obtain ⟨batch, hNew, hBatch, -⟩ := Pending.add_of_new ih now hHolds
          rw [hNew] at hAdd
          cases hAdd
          exact ih.set hBatch
  | pop _ key ih => exact ih.erase key

theorem Built.ready_spec {pending : Pending} (h : Built pending) {config : AccumulatorConfig}
    {now : Int} {ready : ReadyBatch} (hReady : ready ∈ pending.readyBatches config now) :
    ready.batch.totalValueFtns = (ready.batch.receipts.map BatchedReceipt.valueFtns).sum ∧
      ∀ br ∈ ready.batch.receipts, br.providerAddress = ready.key.providerAddress ∧
        br.requesterAddress = ready.key.requesterAddress := by
  have hBatch := h.allWellFormed _ _ (Pending.get?_of_mem_readyBatches hReady)
  refine ⟨congrArg PendingBatch.totalValueFtns hBatch.eq_collected, fun br hbr => ?_⟩
  rw [← hBatch.keyed br hbr]
  exact ⟨rfl, rfl⟩

/-- The row of a batch that the client committed. -/
def rowOf (call : CommitCall) (commitTimestamp : Int) (status : Nat) : ChainBatch where
  requester := call.requesterAddress
  provider := call.providerAddress
  totalValueFtns := call.totalValueFtns
  commitTimestamp := commitTimestamp
  status := status

/-- Every receipt was served under one of the issued authorizations: to its
provider, within its ceiling and before its expiry. -/
def ServedUnder (lower : String → String) (issued : List IssuedAuthorization)
    (receipts : List BatchedReceipt) : Prop :=
  ∀ br ∈ receipts, ∃ auth ∈ issued, lower auth.provider = lower br.providerAddress ∧
    lower auth.requester = lower br.requesterAddress ∧ br.valueFtns ≤ auth.maxSpendWei ∧
    br.receipt.executedAtUnix < auth.expiryUnix

/-! ## When the matcher and the scan are silent -/

section Silent

variable {lower : String → String} {keccak256 : Keccak} {store : IssuedAuthorizationStore}
variable {myAddress : String} {readBatch : Bytes32 → Option ChainBatch}

theorem mem_readMine {observed : List ObservedBatch} {id : Bytes32} {row : ChainBatch} :
    (id, row) ∈ readMine lower observed readBatch myAddress ↔
      (∃ ob ∈ observed, ob.batchId = id ∧ lower ob.requesterAddress = lower myAddress) ∧
        readBatch id = some row := by
  simp only [readMine, List.mem_filterMap, List.mem_filter, decide_eq_true_eq,
    Option.map_eq_some_iff, Prod.mk.injEq]
  constructor
  · rintro ⟨ob, ⟨hMem, hMine⟩, row', hRead, rfl, rfl⟩
    exact ⟨⟨ob, hMem, rfl, hMine⟩, hRead⟩
  · rintro ⟨⟨ob, hMem, rfl, hMine⟩, hRead⟩
    exact ⟨ob, ⟨hMem, hMine⟩, row, hRead, rfl, rfl⟩

theorem match_silent_iff {views : List CommittedBatchView}
    {view : CommittedBatchView} (hView : view ∈ views)
    (hMine : lower view.requester = lower myAddress)
    (hUnique : ∀ other ∈ views, other.batchId = view.batchId → other = view) :
    (∀ c ∈ matchUnauthorizedBatches lower keccak256 views store myAddress,
        c.batchId = view.batchId → c.classification = .authorized) ↔
      (∃ hashes, view.leafJobIdHashes = some hashes ∧
          Linked lower keccak256 store view.provider hashes) ∨
        Covered lower store view.provider view.totalValueWei view.commitTimestamp := by
  have hDecided : (classifyBatch lower keccak256 store view).classification = .authorized ↔ _ :=
    (Iff.trans (by
      cases (classifyBatch lower keccak256 store view).classification <;> simp)
      (not_congr classifyBatch_unauthorized_iff)).trans not_not
  rw [← hDecided]
  constructor
  · intro h
    refine h _ (List.mem_map_of_mem (List.mem_filter.mpr ⟨hView, ?_⟩)) rfl
    exact decide_eq_true hMine
  · intro h c hc hId
    obtain ⟨other, hOther, rfl⟩ := List.mem_map.mp hc
    rw [hUnique other (List.mem_of_mem_filter hOther) hId]
    exact h

theorem scan_silent_iff {observed : Option (List ObservedBatch)} {id : Bytes32}
    {row : ChainBatch} (hRead : readBatch id = some row) :
    (∀ alert ∈ scanForUnauthorizedBatches lower keccak256 observed readBatch store myAddress,
        alert.classification.batchId ≠ id) ↔
      ((∃ batches, observed = some batches ∧
          ∃ ob ∈ batches, ob.batchId = id ∧ lower ob.requesterAddress = lower myAddress) →
        lower row.requester = lower myAddress →
        Covered lower store row.provider row.totalValueFtns row.commitTimestamp) := by
  cases observed with
  | none => exact iff_of_true (fun _ h => by cases h) fun ⟨_, h, _⟩ => by cases h
  | some batches =>
      have hAlert : (∃ alert ∈ scanForUnauthorizedBatches lower keccak256 (some batches) readBatch
            store myAddress, alert.classification.batchId = id) ↔
          (∃ ob ∈ batches, ob.batchId = id ∧ lower ob.requesterAddress = lower myAddress) ∧
            lower row.requester = lower myAddress ∧
            ¬ Covered lower store row.provider row.totalValueFtns row.commitTimestamp := by
        have hVerdict := @classifyBatch_unauthorized_iff (scanView (id, row)) lower store keccak256
        have hNoLeaves : ¬ ∃ hashes, (scanView (id, row)).leafJobIdHashes = some hashes ∧
            Linked lower keccak256 store (scanView (id, row)).provider hashes :=
          fun ⟨_, h, _⟩ => by cases h
        rw [or_iff_right hNoLeaves] at hVerdict
        constructor
        · rintro ⟨alert, hAlert, hId⟩
          obtain ⟨c, hc, rfl⟩ := List.mem_map.mp (mem_sortBy.mp hAlert)
          obtain ⟨hMatched, hUnauthorized⟩ := List.mem_filter.mp hc
          obtain ⟨view, hView, rfl⟩ := List.mem_map.mp hMatched
          obtain ⟨hMapped, hMine⟩ := List.mem_filter.mp hView
          obtain ⟨⟨id', row'⟩, hEntry, rfl⟩ := List.mem_map.mp hMapped
          obtain rfl : id' = id := hId
          obtain ⟨hSeen, hRead'⟩ := mem_readMine.mp hEntry
          obtain rfl : row = row' := Option.some.inj (hRead.symm.trans hRead')
          exact ⟨hSeen, of_decide_eq_true hMine, hVerdict.mp (of_decide_eq_true hUnauthorized)⟩
        · rintro ⟨hSeen, hMine, hNot⟩
          refine ⟨alertOf (readMine lower batches readBatch myAddress)
            (classifyBatch lower keccak256 store (scanView (id, row))), mem_sortBy.mpr ?_, rfl⟩
          refine List.mem_map_of_mem (List.mem_filter.mpr ⟨List.mem_map_of_mem
            (List.mem_filter.mpr ⟨List.mem_map_of_mem (mem_readMine.mpr ⟨hSeen, hRead⟩), ?_⟩), ?_⟩)
          · exact decide_eq_true hMine
          · exact decide_eq_true (hVerdict.mpr hNot)
      constructor
      · rintro hSilent ⟨_, hBatches, hSeen⟩ hMine
        cases hBatches
        by_contra hNot
        obtain ⟨alert, hMem, hId⟩ := hAlert.mpr ⟨hSeen, hMine, hNot⟩
        exact hSilent alert hMem hId
      · intro hCovered alert hMem hId
        obtain ⟨hSeen, hMine, hNot⟩ := hAlert.mp ⟨alert, hMem, hId⟩
        exact hNot (hCovered ⟨batches, rfl, hSeen⟩ hMine)

end Silent

/-! ## Batches of several receipts -/

def committedBatchToView (batch : CommittedBatch) (leafJobIdHashes : Option (List Bytes32)) :
    CommittedBatchView where
  batchId := batch.batchId
  requester := batch.requesterAddress
  provider := batch.providerAddress
  totalValueWei := batch.totalValueFtns
  commitTimestamp := batch.commitTimestamp
  leafJobIdHashes := leafJobIdHashes

/-- A batch passes the scan exactly when a single retained authorization to its
provider covers the sum of its receipts and has not expired at the commit.  It
passes the matcher then, and when one of the given leaf hashes is that of a
linked job. -/
theorem aggregated_batch_silent_iff (lower : String → String) (keccak256 : Keccak)
    (config : AccumulatorConfig) (store : IssuedAuthorizationStore) {pending : Pending}
    (hBuilt : Built pending) (now : Int) {ready : ReadyBatch}
    (hReady : ready ∈ pending.readyBatches config now) (leafHashes : List Bytes32)
    (root id : Bytes32) (commitTimestamp status : Nat) (observed : Option (List ObservedBatch))
    (readBatch : Bytes32 → Option ChainBatch) (myAddress : String)
    (hRead : readBatch id =
      some (rowOf (commitCall ready leafHashes root) commitTimestamp status))
    (leafJobIdHashes : Option (List Bytes32)) (views : List CommittedBatchView)
    (hView : committedBatchToView (buildRecord ready leafHashes root id commitTimestamp)
      leafJobIdHashes ∈ views)
    (hMine : lower ready.key.requesterAddress = lower myAddress)
    (hUnique : ∀ view ∈ views, view.batchId = id → view = committedBatchToView
      (buildRecord ready leafHashes root id commitTimestamp) leafJobIdHashes) :
    ((∀ alert ∈ scanForUnauthorizedBatches lower keccak256 observed readBatch store myAddress,
        alert.classification.batchId ≠ id) ↔
      ((∃ batches, observed = some batches ∧
          ∃ ob ∈ batches, ob.batchId = id ∧ lower ob.requesterAddress = lower myAddress) →
        Covered lower store ready.key.providerAddress
          (ready.batch.receipts.map BatchedReceipt.valueFtns).sum commitTimestamp)) ∧
    ((∀ c ∈ matchUnauthorizedBatches lower keccak256 views store myAddress,
        c.batchId = id → c.classification = .authorized) ↔
      (∃ hashes, leafJobIdHashes = some hashes ∧
          Linked lower keccak256 store ready.key.providerAddress hashes) ∨
        Covered lower store ready.key.providerAddress
          (ready.batch.receipts.map BatchedReceipt.valueFtns).sum commitTimestamp) := by
  obtain ⟨hTotal, -⟩ := hBuilt.ready_spec hReady
  rw [← hTotal]
  refine ⟨(scan_silent_iff hRead).trans ?_, match_silent_iff hView hMine hUnique⟩
  exact ⟨fun h hSeen => h hSeen hMine, fun h hSeen _ => h hSeen⟩

def pairConfig : AccumulatorConfig :=
  { SettlementClient.smallSettings.config with
    countThreshold := 2
    countThreshold_pos := by decide }

def jobAuthorization (jobNonce : String) : IssuedAuthorization where
  requester := "0x0000000000000000000000000000000000000005"
  provider := "0x000000000000000000000000000000000000000A"
  maxSpendWei := 10
  jobNonce := jobNonce
  expiryUnix := 2000
  requestHash := ""
  linkedJobId := none
  issuedAt := 800

def pairStore : IssuedAuthorizationStore :=
  ((IssuedAuthorizationStore.empty 100 (by decide)).record (jobAuthorization "0x01")).record
    (jobAuthorization "0x02")

def firstJob : BatchedReceipt := smallReceipt "job-1" "escrow-1" 0

def secondJob : BatchedReceipt := smallReceipt "job-2" "escrow-2" 0

def pendingOf (receipts : List BatchedReceipt) : Pending :=
  ⟨[(keyOf firstJob, collected (keyOf firstJob) receipts 950)], List.nodup_singleton _⟩

def readyOf (receipts : List BatchedReceipt) (trigger : TriggerReason) : ReadyBatch where
  key := keyOf firstJob
  batch := collected (keyOf firstJob) receipts 950
  trigger := trigger

theorem built_firstJob : Built (pendingOf [firstJob]) := by
  refine @Built.add ∅ _ .empty firstJob 950 ?_
  rw [Pending.add, Pending.batchFor, Dict.get?_empty, Option.getD_none, append_empty]
  rfl

theorem built_bothJobs : Built (pendingOf [firstJob, secondJob]) := by
  refine @Built.add _ _ built_firstJob secondJob 960 ?_
  have hNew : secondJob.localEscrowId ∉ escrowIds [firstJob] := by decide
  have hFor : (pendingOf [firstJob]).batchFor secondJob =
      collected (keyOf firstJob) [firstJob] 950 := by
    have hKey : keyOf firstJob = keyOf secondJob := rfl
    rw [Pending.batchFor, Dict.get?, pendingOf, Dict.lookup, if_pos hKey, Option.getD_some]
  have hKey : keyOf secondJob = keyOf firstJob := rfl
  rw [Pending.add, hFor, append_collected (List.cons_ne_nil _ _) hKey hNew]
  refine congrArg some (Dict.ext ?_)
  show Dict.assign (keyOf firstJob) (collected (keyOf firstJob) [firstJob, secondJob] 950)
    [(keyOf firstJob, collected (keyOf firstJob) [firstJob] 950)] = _
  rw [Dict.assign, if_pos rfl]
  rfl

def oneReady : ReadyBatch := readyOf [firstJob] .time

def pairReady : ReadyBatch := readyOf [firstJob, secondJob] .count

def seenBatch : ObservedBatch := ⟨7, "0x0000000000000000000000000000000000000005"⟩

/-- A batch of one job. -/
theorem aggregated_batch_silent_iff_oneJob :
    (∀ alert ∈ scanForUnauthorizedBatches asciiLower (fun _ => 0) (some [seenBatch])
        (fun _ => some (rowOf (commitCall oneReady [] 0) (1000 : Nat) 1)) pairStore
        "0x0000000000000000000000000000000000000005", alert.classification.batchId ≠ 7) ↔
      ((∃ batches, some [seenBatch] = some batches ∧ ∃ ob ∈ batches, ob.batchId = 7 ∧
          asciiLower ob.requesterAddress =
            asciiLower "0x0000000000000000000000000000000000000005") →
        Covered asciiLower pairStore oneReady.key.providerAddress
          (oneReady.batch.receipts.map BatchedReceipt.valueFtns).sum (1000 : Nat)) :=
  (aggregated_batch_silent_iff asciiLower (fun _ => 0) pairConfig pairStore built_firstJob
    4600 (List.mem_singleton_self oneReady) [] 0 7 1000 1 (some [seenBatch]) _
    "0x0000000000000000000000000000000000000005" rfl none
    [committedBatchToView (buildRecord oneReady [] 0 7 1000) none] (List.mem_singleton_self _) rfl
    (fun _ hView _ => List.mem_singleton.mp hView)).1

def pairRow : ChainBatch := rowOf (commitCall pairReady [] 0) (1000 : Nat) 1

theorem servedUnder_pairReady :
    ServedUnder asciiLower pairStore.allAuthorizations pairReady.batch.receipts := by
  intro br hbr
  refine ⟨jobAuthorization "0x01", by decide +kernel, ?_⟩
  rcases List.mem_pair.mp hbr with rfl | rfl
  · decide +kernel
  · decide +kernel

theorem scan_pairRow :
    (scanForUnauthorizedBatches asciiLower (fun _ => 0) (some [seenBatch])
      (fun _ => some pairRow) pairStore "0x0000000000000000000000000000000000000005").map
        (fun alert => alert.classification.batchId) = [7] := by
  decide +kernel

/-- Two jobs of value 10, each under its own authorization of 10, make a batch
of 20, which is reported. -/
theorem honest_batch_reported_twoJobs :
    ¬ ∀ (lower : String → String) (keccak256 : Keccak) (config : AccumulatorConfig)
      (store : IssuedAuthorizationStore) (pending : Pending) (now : Int) (ready : ReadyBatch)
      (leafHashes : List Bytes32) (root id : Bytes32) (commitTimestamp status : Nat)
      (observed : Option (List ObservedBatch)) (readBatch : Bytes32 → Option ChainBatch)
      (myAddress : String),
      Built pending → ready ∈ pending.readyBatches config now →
      readBatch id = some (rowOf (commitCall ready leafHashes root) commitTimestamp status) →
      ServedUnder lower store.allAuthorizations ready.batch.receipts →
      ∀ alert ∈ scanForUnauthorizedBatches lower keccak256 observed readBatch store myAddress,
        alert.classification.batchId ≠ id := by
  intro hClaim
  have hSilent := hClaim asciiLower (fun _ => 0) pairConfig pairStore
    (pendingOf [firstJob, secondJob]) 960 pairReady [] 0 7 1000 1 (some [seenBatch])
    (fun _ => some pairRow) "0x0000000000000000000000000000000000000005" built_bothJobs
    (List.mem_singleton_self pairReady) rfl servedUnder_pairReady
  have hReported : (7 : Bytes32) ∈ (scanForUnauthorizedBatches asciiLower (fun _ => 0)
      (some [seenBatch]) (fun _ => some pairRow) pairStore
      "0x0000000000000000000000000000000000000005").map
        (fun alert => alert.classification.batchId) := by
    rw [scan_pairRow]
    exact List.mem_singleton_self _
  obtain ⟨alert, hMem, hId⟩ := List.mem_map.mp hReported
  exact hSilent alert hMem hId

end Prsm.NoEscrow
