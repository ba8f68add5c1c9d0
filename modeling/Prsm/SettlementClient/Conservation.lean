import Prsm.SettlementClient.Coherence

/-!
# No accepted receipt is lost

A receipt that `accumulate` took in is held by a pending batch, by the intent of
a commit in doubt, by a pending commit, or by a tracked batch.  The last three
name their receipts by leaf hash, so what is held is counted in leaf hashes, with
`none` for a receipt that has no leaf.  While a call of `commit_batch` is awaited
the batch is pending and has its intent; it counts once.

No step holds a receipt twice, but four can lose some: an intent that is written over another one,
two adoptions of the same batch, the recovery of an intent under whose key receipts have arrived
since, and a restart in the same situation.
-/

namespace Prsm.SettlementClient

open Foundations Evm Settlement

variable {keccak256 : Keccak} {settings : Settings} {w w' : World} {input : Input}

/-! ## What is held -/

/-- The leaves of receipts. -/
def leavesOf (keccak256 : Keccak) (receipts : List BatchedReceipt) :
    Multiset (Option Bytes32) :=
  ↑(receipts.map (leafHash keccak256))

/-- The leaves that a record names. -/
def namedLeaves (leafHashes : List Bytes32) : Multiset (Option Bytes32) :=
  ↑(leafHashes.map some)

theorem leavesOf_append (receipts receipts' : List BatchedReceipt) :
    leavesOf keccak256 (receipts ++ receipts') =
      leavesOf keccak256 receipts + leavesOf keccak256 receipts' := by
  simp [leavesOf]

theorem leavesOf_eq_zero_iff {receipts : List BatchedReceipt} :
    leavesOf keccak256 receipts = 0 ↔ receipts = [] := by
  simp [leavesOf]

theorem namedLeaves_eq_zero_iff {leafHashes : List Bytes32} :
    namedLeaves leafHashes = 0 ↔ leafHashes = [] := by
  simp [namedLeaves]

theorem namedLeaves_eq_leavesOf {receipts : List BatchedReceipt} {leafHashes : List Bytes32}
    (h : receipts.mapM (leafHash keccak256) = some leafHashes) :
    namedLeaves leafHashes = leavesOf keccak256 receipts := by
  rw [namedLeaves, ← mapM_eq_some_iff.mp h, leavesOf]

def pendingLeaves (keccak256 : Keccak) (pending : Pending) : Multiset (Option Bytes32) :=
  pending.total fun _ batch => leavesOf keccak256 batch.receipts

def intentLeaves (committing : Dict String CommitIntent) : Multiset (Option Bytes32) :=
  committing.total fun _ intent => namedLeaves intent.leafHashes

def quarantinedLeaves (pendingCommits : Dict String PendingCommit) : Multiset (Option Bytes32) :=
  pendingCommits.total fun _ pc => namedLeaves pc.leafHashes

def trackedLeaves (tracked : Dict Bytes32 CommittedBatch) : Multiset (Option Bytes32) :=
  tracked.total fun _ batch => namedLeaves batch.leafHashes

/-- What pending batches and the client's records hold. -/
def heldBy (keccak256 : Keccak) (pending : Pending) (c : Client) : Multiset (Option Bytes32) :=
  pendingLeaves keccak256 pending + intentLeaves c.committing + quarantinedLeaves c.pendingCommits +
    trackedLeaves c.tracked

/-- What the client holds, a batch in the call counted once. -/
def held (keccak256 : Keccak) (w : World) : Multiset (Option Bytes32) :=
  heldBy keccak256 (apart w.node.client.pending w.task) w.node.client

/-- Every accepted receipt is held exactly once. -/
def Conserved (keccak256 : Keccak) (w : World) : Prop :=
  held keccak256 w = leavesOf keccak256 w.accepted

instance (w : World) : Decidable (Conserved keccak256 w) :=
  inferInstanceAs (Decidable (_ = _))

/-! ## Steps that lose nothing -/

/-- The step does not take one of the four ways to lose a receipt. -/
def LosesNothing (keccak256 : Keccak) (w : World) : Input → Prop
  | .nextBatch =>
      -- No intent is outstanding for the same key and root.
      ∀ ready rest leafHashes root, w.task = .committing (ready :: rest) →
        Node.buildLeavesRoot keccak256 ready = some (leafHashes, root) →
        w.node.client.committing.get? (intentKey ready.key root) = none
  | .nextIntent scan =>
      -- The batch found is not tracked yet, and nothing has arrived under the key.
      ∀ older key intent rest batchId commitTimestamp, scan = some older →
        w.task = .recovering ((key, intent) :: rest) →
        w.chain.findCommittedBatchByRoot older intent.merkleRoot =
          some (batchId, commitTimestamp) →
        w.node.client.tracked.get? batchId = none ∧
          w.node.client.pending.get? intent.accumulatorKey = none
  | .nextPendingCommit lookup =>
      ∀ txHash pc rest batchId commitTimestamp, lookup = true →
        w.task = .reconciling ((txHash, pc) :: rest) →
        w.chain.committedBatchForTx txHash = some (batchId, commitTimestamp) →
        w.node.client.tracked.get? batchId = none
  | .restart =>
      -- The only pending batch under the key of an intent is the one in the call.
      ∀ key ∈ intentKeys w.node.client.committing,
        (apart w.node.client.pending w.task).get? key = none
  | _ => True

section Conditions

variable {batchId : Bytes32} {commitTimestamp : Nat}

theorem losesNothing_nextBatch_iff {ready : ReadyBatch} {rest : List ReadyBatch}
    {leafHashes : List Bytes32} {root : Bytes32} (hTask : w.task = .committing (ready :: rest))
    (hBuild : Node.buildLeavesRoot keccak256 ready = some (leafHashes, root)) :
    LosesNothing keccak256 w .nextBatch ↔
      w.node.client.committing.get? (intentKey ready.key root) = none := by
  constructor
  · exact fun h => h ready rest leafHashes root hTask hBuild
  · intro hFree ready' rest' leafHashes' root' hTask' hBuild'
    rw [hTask] at hTask'
    cases hTask'
    rw [hBuild] at hBuild'
    cases hBuild'
    exact hFree

theorem losesNothing_nextIntent_iff {older : Nat} {key : String} {intent : CommitIntent}
    {rest : List (String × CommitIntent)} (hTask : w.task = .recovering ((key, intent) :: rest))
    (hFound : w.chain.findCommittedBatchByRoot older intent.merkleRoot =
      some (batchId, commitTimestamp)) :
    LosesNothing keccak256 w (.nextIntent (some older)) ↔
      w.node.client.tracked.get? batchId = none ∧
        w.node.client.pending.get? intent.accumulatorKey = none := by
  constructor
  · exact fun h => h older key intent rest batchId commitTimestamp rfl hTask hFound
  · rintro hFree _ key' intent' rest' batchId' commitTimestamp' ⟨rfl⟩ hTask' hFound'
    rw [hTask] at hTask'
    cases hTask'
    rw [hFound] at hFound'
    cases hFound'
    exact hFree

theorem losesNothing_nextPendingCommit_iff {txHash : String} {pc : PendingCommit}
    {rest : List (String × PendingCommit)} (hTask : w.task = .reconciling ((txHash, pc) :: rest))
    (hFound : w.chain.committedBatchForTx txHash = some (batchId, commitTimestamp)) :
    LosesNothing keccak256 w (.nextPendingCommit true) ↔
      w.node.client.tracked.get? batchId = none := by
  constructor
  · exact fun h => h txHash pc rest batchId commitTimestamp rfl hTask hFound
  · intro hFree txHash' pc' rest' batchId' commitTimestamp' _ hTask' hFound'
    rw [hTask] at hTask'
    cases hTask'
    rw [hFound] at hFound'
    cases hFound'
    exact hFree

end Conditions

theorem conserved_iff_of_lost {lost : Multiset (Option Bytes32)}
    (hHeld : held keccak256 w' + lost = held keccak256 w) (hAccepted : w'.accepted = w.accepted)
    (hBefore : Conserved keccak256 w) : Conserved keccak256 w' ↔ lost = 0 := by
  rw [Conserved, hAccepted, ← hBefore, ← hHeld]
  exact left_eq_add

theorem Conserved.congr (hBefore : Conserved keccak256 w)
    (hClient : w'.node.client = w.node.client)
    (hApart : apart w.node.client.pending w'.task = apart w.node.client.pending w.task)
    (hAccepted : w'.accepted = w.accepted) : Conserved keccak256 w' := by
  rw [Conserved, held, hClient, hApart, hAccepted]
  exact hBefore

theorem part_eq_zero_iff {κ α : Type} [DecidableEq κ] {f : κ → α → Multiset (Option Bytes32)}
    {d : Dict κ α} (hSome : d.All fun key value => f key value ≠ 0) (key : κ) :
    d.part f key = 0 ↔ d.get? key = none := by
  cases hGet : d.get? key with
  | none => simp [Dict.part_of_none hGet]
  | some value => simp [Dict.part_of_some hGet, hSome key value hGet]

theorem part_named_eq_zero_iff {κ α : Type} [DecidableEq κ] {leaves : α → List Bytes32}
    {d : Dict κ α} (hSome : d.All fun _ value => leaves value ≠ []) (key : κ) :
    d.part (fun _ value => namedLeaves (leaves value)) key = 0 ↔ d.get? key = none :=
  part_eq_zero_iff (hSome.imp fun _ _ hLeaves => mt namedLeaves_eq_zero_iff.mp hLeaves) key

/-! ## What each step holds

The laws of the dictionaries are equations between multisets.  Read as equations
between the counts of one leaf they are linear, and add up. -/

section Steps

variable {ready : ReadyBatch} {leafHashes : List Bytes32} {root : Bytes32}
  {submitted : Option String} {rest : List ReadyBatch}

theorem Awaited.moved {c : Client} {chain : Chain}
    (h : Awaited keccak256 c chain ready leafHashes root submitted rest) :
    pendingLeaves keccak256 (c.pending.erase ready.key) + namedLeaves leafHashes =
        pendingLeaves keccak256 c.pending ∧
      intentLeaves (c.committing.erase (intentKey ready.key root)) + namedLeaves leafHashes =
        intentLeaves c.committing := by
  have hPending := Dict.total_erase (fun _ batch => leavesOf keccak256 batch.receipts) c.pending
    ready.key
  have hIntent := Dict.total_erase (fun _ intent => namedLeaves intent.leafHashes) c.committing
    (intentKey ready.key root)
  rw [Dict.part_of_some (h.queued.held _ List.mem_cons_self),
    ← namedLeaves_eq_leavesOf (buildLeavesRoot_eq_some h.built).1] at hPending
  rw [Dict.part_of_some h.intent] at hIntent
  exact ⟨hPending, hIntent⟩

theorem held_written (h : Coherent keccak256 w) (hTask : w.task = .committing (ready :: rest))
    (hBuild : Node.buildLeavesRoot keccak256 ready = some (leafHashes, root)) :
    held keccak256
        { w with
          node := w.node.writeIntent ready leafHashes root
          task := .awaiting ready leafHashes root none rest } +
        w.node.client.committing.part (fun _ intent => namedLeaves intent.leafHashes)
          (intentKey ready.key root) =
      held keccak256 w := by
  have hPending := Dict.total_erase (fun _ batch => leavesOf keccak256 batch.receipts)
    w.node.client.pending ready.key
  have hIntent := @Dict.total_set _ _ _ _ _ (fun _ intent => namedLeaves intent.leafHashes)
    w.node.client.committing (intentKey ready.key root) (buildIntent ready leafHashes root)
  rw [Dict.part_of_some ((h.queued hTask).held _ List.mem_cons_self),
    ← namedLeaves_eq_leavesOf (buildLeavesRoot_eq_some hBuild).1] at hPending
  ext leaf
  have hPendingCount := congrArg (Multiset.count leaf) hPending
  have hIntentCount := congrArg (Multiset.count leaf) hIntent
  simp only [held, heldBy, hTask, apart, Task.inCall, pendingLeaves, intentLeaves,
    Node.writeIntent, Node.persist, buildIntent, Multiset.count_add] at *
  omega

theorem held_replied {reply : CommitReply} {chain : Chain} (h : Coherent keccak256 w)
    (hTask : w.task = .awaiting ready leafHashes root submitted rest)
    (hReply : Replies w.chain submitted reply chain) :
    held keccak256
        { w with
          node := w.node.finishCommit ready leafHashes root reply
          chain := chain
          task := .committing rest } =
      held keccak256 w := by
  have hAwaited := h.awaited hTask
  obtain ⟨hPending, hIntent⟩ := hAwaited.moved
  ext leaf
  have hPendingCount := congrArg (Multiset.count leaf) hPending
  have hIntentCount := congrArg (Multiset.count leaf) hIntent
  -- The intent and the pending batch both go, and the leaves they shared come in once.
  cases hReply with
  | @landed txHash batchId commitTimestamp hFound =>
      obtain ⟨batch, hBatch, hHash⟩ := Chain.committedBatchForTx_eq_some hFound
      -- The batch landed during this call, so no record has its id yet.
      have hNew := (hAwaited.sent txHash rfl).untracked batchId batch hBatch hHash
      have hTracked := @Dict.total_set _ _ _ _ _ (fun _ batch => namedLeaves batch.leafHashes)
        w.node.client.tracked batchId (buildRecord ready leafHashes root batchId commitTimestamp)
      rw [Dict.part_of_none hNew] at hTracked
      have hTrackedCount := congrArg (Multiset.count leaf) hTracked
      simp only [held, heldBy, hTask, apart, Task.inCall, trackedLeaves, Node.finishCommit,
        Node.persist, buildRecord, Multiset.count_add, Multiset.count_zero] at *
      omega
  | sent txHash =>
      have hNew := (hAwaited.sent txHash rfl).unheard
      have hCommits := @Dict.total_set _ _ _ _ _ (fun _ pc => namedLeaves pc.leafHashes)
        w.node.client.pendingCommits txHash (buildPendingCommit ready txHash leafHashes root)
      rw [Dict.part_of_none hNew] at hCommits
      have hCommitsCount := congrArg (Multiset.count leaf) hCommits
      simp only [held, heldBy, hTask, apart, Task.inCall, quarantinedLeaves, Node.finishCommit,
        Node.persist, buildPendingCommit, Multiset.count_add, Multiset.count_zero] at *
      omega
  | unknown =>
      simp only [held, heldBy, hTask, apart, Task.inCall, Node.finishCommit, Node.persist]
  | unsent =>
      simp only [held, heldBy, hTask, apart, Task.inCall, Node.finishCommit, Node.persist,
        Multiset.count_add] at *
      omega
  | reverted =>
      simp only [held, heldBy, hTask, apart, Task.inCall, Node.finishCommit, Node.persist,
        Multiset.count_add] at *
      omega

theorem held_intentAdopted {key : String} {intent : CommitIntent}
    {rest : List (String × CommitIntent)} (h : Coherent keccak256 w)
    (hTask : w.task = .recovering ((key, intent) :: rest)) (batchId : Bytes32)
    (commitTimestamp : Nat) :
    held keccak256
        { w with
          node := w.node.adoptIntent key intent batchId commitTimestamp
          task := .recovering rest } +
        (w.node.client.tracked.part (fun _ batch => namedLeaves batch.leafHashes) batchId +
          w.node.client.pending.part (fun _ batch => leavesOf keccak256 batch.receipts)
            intent.accumulatorKey) =
      held keccak256 w := by
  have hPending := Dict.total_erase (fun _ batch => leavesOf keccak256 batch.receipts)
    w.node.client.pending intent.accumulatorKey
  have hIntent := Dict.total_erase (fun _ intent => namedLeaves intent.leafHashes)
    w.node.client.committing key
  have hTracked := @Dict.total_set _ _ _ _ _ (fun _ batch => namedLeaves batch.leafHashes)
    w.node.client.tracked batchId
    { batchId := batchId
      txHash := ""
      providerAddress := intent.providerAddress
      requesterAddress := intent.requesterAddress
      merkleRoot := intent.merkleRoot
      receiptCount := intent.receiptCount
      totalValueFtns := intent.totalValueFtns
      commitTimestamp := commitTimestamp
      leafHashes := intent.leafHashes
      triggerReason := intent.triggerReason }
  rw [Dict.part_of_some ((h.recovering hTask).held _ List.mem_cons_self)] at hIntent
  ext leaf
  have hPendingCount := congrArg (Multiset.count leaf) hPending
  have hIntentCount := congrArg (Multiset.count leaf) hIntent
  have hTrackedCount := congrArg (Multiset.count leaf) hTracked
  simp only [held, heldBy, hTask, apart, Task.inCall, pendingLeaves, intentLeaves, trackedLeaves,
    Node.adoptIntent, Node.persist, Multiset.count_add] at *
  omega

theorem held_pendingCommitAdopted {txHash : String} {pc : PendingCommit}
    {rest : List (String × PendingCommit)} (h : Coherent keccak256 w)
    (hTask : w.task = .reconciling ((txHash, pc) :: rest)) (batchId : Bytes32)
    (commitTimestamp : Nat) :
    held keccak256
        { w with
          node := w.node.adoptPendingCommit txHash pc batchId commitTimestamp
          task := .reconciling rest } +
        w.node.client.tracked.part (fun _ batch => namedLeaves batch.leafHashes) batchId =
      held keccak256 w := by
  have hCommits := Dict.total_erase (fun _ pc => namedLeaves pc.leafHashes)
    w.node.client.pendingCommits txHash
  have hTracked := @Dict.total_set _ _ _ _ _ (fun _ batch => namedLeaves batch.leafHashes)
    w.node.client.tracked batchId
    { batchId := batchId
      txHash := txHash
      providerAddress := pc.providerAddress
      requesterAddress := pc.requesterAddress
      merkleRoot := pc.merkleRoot
      receiptCount := pc.receiptCount
      totalValueFtns := pc.totalValueFtns
      commitTimestamp := commitTimestamp
      leafHashes := pc.leafHashes
      triggerReason := pc.triggerReason }
  rw [Dict.part_of_some ((h.reconciling hTask).held _ List.mem_cons_self)] at hCommits
  ext leaf
  have hCommitsCount := congrArg (Multiset.count leaf) hCommits
  have hTrackedCount := congrArg (Multiset.count leaf) hTracked
  simp only [held, heldBy, hTask, apart, Task.inCall, quarantinedLeaves, trackedLeaves,
    Node.adoptPendingCommit, Node.persist, Multiset.count_add] at *
  omega

theorem held_restarted (h : Coherent keccak256 w) :
    held keccak256
        { w with
          node :=
            { w.node with
              client := { w.node.client with pending := w.node.client.unownedPending } }
          task := .idle } +
        pendingLeaves keccak256 ((apart w.node.client.pending w.task).filterKeys
          fun key => !decide (key ∉ intentKeys w.node.client.committing)) =
      held keccak256 w := by
  have hPending := @Dict.total_filterKeys _ _ _ _
    (fun _ batch => leavesOf keccak256 batch.receipts)
    (apart w.node.client.pending w.task) fun key => key ∉ intentKeys w.node.client.committing
  rw [← h.unownedPending_eq] at hPending
  ext leaf
  have hPendingCount := congrArg (Multiset.count leaf) hPending
  have hIdle : apart w.node.client.unownedPending .idle = w.node.client.unownedPending := rfl
  simp only [held, heldBy, hIdle, pendingLeaves, Multiset.count_add] at *
  omega

end Steps

theorem conserved_taken {br : BatchedReceipt} {now : Int} {pending : Pending}
    (h : Coherent keccak256 w) (hTask : w.task = .idle)
    (hHolds : (w.node.client.pending.batchFor br).holds br = false)
    (hAdd : w.node.client.pending.add br now = some pending) (hBefore : Conserved keccak256 w) :
    Conserved keccak256
      { w with
        node := Node.persist { w.node with client := { w.node.client with pending := pending } }
        accepted := w.accepted ++ [br] } := by
  obtain ⟨batch, hAdd', -, hReceipts⟩ := Pending.add_of_new h.wellFormed now hHolds
  rw [hAdd] at hAdd'
  cases hAdd'
  have hTotal := Pending.total_add (@leavesOf_append keccak256) hReceipts
  ext leaf
  have hTotalCount := congrArg (Multiset.count leaf) hTotal
  have hBeforeCount := congrArg (Multiset.count leaf) hBefore
  simp only [Conserved, held, heldBy, hTask, apart, Task.inCall, pendingLeaves, Node.persist,
    leavesOf_append, Multiset.count_add] at *
  omega

theorem losesNothing_moved {task : Task} (hMove : Moves keccak256 settings w input task) :
    LosesNothing keccak256 w input := by
  cases hMove with
  | commitStarted force now hTask => trivial
  | commitFinished hTask =>
      intro ready rest leafHashes root hTask'
      rw [hTask] at hTask'
      cases hTask'
  | commitAborted hTask hBuild =>
      intro ready rest leafHashes root hTask' hBuild'
      rw [hTask] at hTask'
      cases hTask'
      rw [hBuild] at hBuild'
      cases hBuild'
  | recoveryStarted hTask => trivial
  | recoveryFinished scan hTask =>
      intro older key intent rest batchId commitTimestamp _ hTask'
      rw [hTask] at hTask'
      cases hTask'
  | intentKept hTask hKept =>
      rintro older key intent rest batchId commitTimestamp rfl hTask' hFound
      rw [hTask] at hTask'
      cases hTask'
      rw [Option.bind_some, hFound] at hKept
      cases hKept
  | reconciliationStarted hTask => trivial
  | reconciliationFinished lookup hTask =>
      intro txHash pc rest batchId commitTimestamp _ hTask'
      rw [hTask] at hTask'
      cases hTask'
  | pendingCommitKept hTask hKept =>
      rintro txHash pc rest batchId commitTimestamp rfl hTask' hFound
      rw [hTask] at hTask'
      cases hTask'
      rw [if_pos rfl, hFound] at hKept
      cases hKept

theorem lostByRestart_eq_zero_iff (h : Coherent keccak256 w) :
    pendingLeaves keccak256 ((apart w.node.client.pending w.task).filterKeys
        fun key => !decide (key ∉ intentKeys w.node.client.committing)) = 0 ↔
      LosesNothing keccak256 w .restart := by
  have hPending : (apart w.node.client.pending w.task).All WellFormed := by
    rw [apart]
    split
    · exact h.wellFormed
    · exact Dict.All.erase h.wellFormed _
  rw [pendingLeaves, Dict.total_eq_zero_iff]
  constructor
  · intro hZero key hOwned
    by_contra hSome
    obtain ⟨batch, hGet⟩ := Option.ne_none_iff_exists'.mp hSome
    have hLeaves := hZero key batch (by
      rw [Dict.get?_filterKeys, if_pos (by simpa using hOwned), hGet])
    exact (hPending key batch hGet).some_receipt (leavesOf_eq_zero_iff.mp hLeaves)
  · intro hNone key batch hGet
    obtain ⟨hOwned, hGet⟩ := Dict.get?_of_filterKeys hGet
    rw [hNone key (by simpa using hOwned)] at hGet
    cases hGet

theorem conserved_step_iff (h : Coherent keccak256 w) (hBefore : Conserved keccak256 w)
    (hStep : Step keccak256 settings w input w') :
    Conserved keccak256 w' ↔ LosesNothing keccak256 w input := by
  have hTracked : ∀ batchId,
      w.node.client.tracked.part (fun _ batch => namedLeaves batch.leafHashes) batchId = 0 ↔
        w.node.client.tracked.get? batchId = none :=
    part_named_eq_zero_iff (h.records.tracked.imp fun _ _ hBatch => hBatch.1)
  cases hStep with
  | moved hMove =>
      obtain ⟨hOutside, hOutside'⟩ := hMove.notInCall
      refine iff_of_true (hBefore.congr rfl ?_ rfl) (losesNothing_moved hMove)
      rw [apart_of_notInCall _ hOutside, apart_of_notInCall _ hOutside']
  | dropped => exact iff_of_true hBefore trivial
  | repeated => exact iff_of_true (hBefore.congr rfl rfl rfl) trivial
  | taken hTask hDrops hHolds hAdd =>
      exact iff_of_true (conserved_taken h hTask hHolds hAdd hBefore) trivial
  | @written ready rest leafHashes root hTask hBuild =>
      rw [conserved_iff_of_lost (held_written h hTask hBuild) rfl hBefore,
        part_named_eq_zero_iff h.records.intents, losesNothing_nextBatch_iff hTask hBuild]
  | submitted hTask hSubmit =>
      refine iff_of_true (hBefore.congr rfl ?_ rfl) trivial
      rw [hTask]
      rfl
  | replied outcome hTask hReply =>
      refine iff_of_true ?_ trivial
      rw [Conserved, held_replied h hTask hReply]
      exact hBefore
  | @intentAdopted older key intent rest batchId commitTimestamp hTask hFound =>
      have hPending : w.node.client.pending.All fun _ batch =>
          leavesOf keccak256 batch.receipts ≠ 0 :=
        h.wellFormed.imp fun _ _ hBatch => mt leavesOf_eq_zero_iff.mp hBatch.some_receipt
      rw [conserved_iff_of_lost (held_intentAdopted h hTask batchId commitTimestamp) rfl hBefore,
        add_eq_zero, hTracked, part_eq_zero_iff hPending, losesNothing_nextIntent_iff hTask hFound]
  | @pendingCommitAdopted txHash pc rest batchId commitTimestamp hTask hFound =>
      rw [conserved_iff_of_lost (held_pendingCommitAdopted h hTask batchId commitTimestamp) rfl
        hBefore, hTracked, losesNothing_nextPendingCommit_iff hTask hFound]
  | mined hMine => exact iff_of_true (hBefore.congr rfl rfl rfl) trivial
  | restarted hRestart =>
      rw [Node.restart_eq h.current] at hRestart
      cases hRestart
      rw [conserved_iff_of_lost (held_restarted h) rfl hBefore, lostByRestart_eq_zero_iff h]

/-- A run keeps every accepted receipt in exactly one place, in all its states,
exactly when none of its steps loses one. -/
theorem conserved_iff (keccak256 : Keccak) (settings : Settings) (inputs : List Input) :
    (settlementMachine keccak256 settings).EveryState (Conserved keccak256) World.fresh inputs ↔
      (settlementMachine keccak256 settings).EveryStep (LosesNothing keccak256) World.fresh
        inputs :=
  (settlementMachine keccak256 settings).everyState_iff_everyStep (Coherent keccak256)
    (Conserved keccak256) (LosesNothing keccak256)
    (fun _ _ _ h hStep => coherent_step h (step_of_settlementStep hStep))
    (fun _ _ _ h hBefore hStep => conserved_step_iff h hBefore (step_of_settlementStep hStep))
    coherent_fresh rfl inputs

/-! ## Runs that lose a receipt -/

def doubtfulRound (txHash : String) (batchId : Bytes32) : List Input :=
  [.nextBatch, .submit txHash, .mine txHash batchId 1100, .reply .broadcastFailed]

def lateReceiptRun : List Input :=
  [.accumulate (smallReceipt "job-1" "escrow-1" 0) 1000, .commitReadyBatches true 1001] ++
    doubtfulRound "0x01" 1 ++
      [.nextBatch, .accumulate (smallReceipt "job-2" "escrow-2" 0) 1200]

def recoveredRun : List Input :=
  lateReceiptRun ++ [.recoverCommittingIntents, .nextIntent (some 0), .nextIntent (some 0)]

def equalRootsRun : List Input :=
  [.accumulate (smallReceipt "job-1" "escrow-1" 0) 1000,
    .accumulate (smallReceipt "job-1" "escrow-2" 5000) 1001, .commitReadyBatches true 1002] ++
    doubtfulRound "0x01" 1 ++
      [.nextBatch, .reply .broadcastFailed, .nextBatch, .recoverCommittingIntents,
        .nextIntent (some 0), .nextIntent (some 0), .nextIntent (some 0)]

/-- The receipt that arrived late is gone after the recovery, and after a restart
in its place; of the two intents of the same root one is left. -/
theorem not_conserved_recoveredRun :
    Conserved polynomialHash
        ((settlementMachine polynomialHash smallSettings).run World.fresh lateReceiptRun) ∧
      ¬ Conserved polynomialHash
        ((settlementMachine polynomialHash smallSettings).run World.fresh recoveredRun) ∧
      ¬ Conserved polynomialHash
        ((settlementMachine polynomialHash smallSettings).run World.fresh
          (lateReceiptRun ++ [.restart])) ∧
      ¬ Conserved polynomialHash
        ((settlementMachine polynomialHash smallSettings).run World.fresh equalRootsRun) := by
  refine ⟨?_, ?_, ?_, ?_⟩
  · decide +kernel
  · decide +kernel
  · decide +kernel
  · decide +kernel

end Prsm.SettlementClient
