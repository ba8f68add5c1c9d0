import Prsm.PerStage.Commitment
import Prsm.PerStage.Receiver

/-!
# The ceiling of a per-stage authorization

The signature binds a payee set and a ceiling on its sum, and each share is checked against the
whole set.  Nothing binds how often a share is settled: the job nonce is never used up, and the
receiver knows a delivery by its escrow id alone.
-/

namespace Prsm.PerStage

open Foundations Evm Settlement PaymentAuth

/-- The address that a staged task pays. -/
def StagedSettlementTask.payeeAddress (v : Verifier) (staged : StagedSettlementTask) :
    Option Address :=
  (matchedPayee v.lib staged.task staged.payees).bind fun entry => v.lib.parse entry.1

/-- What the clients took for settlement under a signature. -/
def Network.takenUnder (v : Verifier) (s : Network) (message : PerStageMessage)
    (sigBytes : Bytes) : Int :=
  sumWhere (fun staged => signedTask v staged.task = some (message, sigBytes))
    (fun staged => staged.task.batchedReceipt.valueFtns) s.taken

/-- A client that takes a receipt takes the first one for its payee under its
signature. -/
def Network.FirstShare (v : Verifier) (s : Network) : StageInput → Prop
  | .commit nodeId localEscrowId _ _ =>
      ∀ staged, (s.nodes nodeId).store.staged.get? localEscrowId = some staged →
        clientTakes (s.nodes nodeId).client staged.task.batchedReceipt = true →
          ∀ earlier ∈ s.taken, signedTask v earlier.task = signedTask v staged.task →
            earlier.payeeAddress v ≠ staged.payeeAddress v
  | _ => True

instance (v : Verifier) (s : Network) : (i : StageInput) → Decidable (s.FirstShare v i)
  | .commit nodeId localEscrowId _ _ =>
      inferInstanceAs (Decidable (∀ staged ∈ (s.nodes nodeId).store.staged.get? localEscrowId,
        clientTakes (s.nodes nodeId).client staged.task.batchedReceipt = true →
          ∀ earlier ∈ s.taken, signedTask v earlier.task = signedTask v staged.task →
            earlier.payeeAddress v ≠ staged.payeeAddress v))
  | .deliver .. | .client .. | .discard .. | .prune .. | .restart .. =>
      inferInstanceAs (Decidable True)

/-- The payee sets that are delivered in a run. -/
def deliveredPayees (is : List StageInput) : Set (List (String × Int)) :=
  { payees | ∃ nodeId task nowUnix stagedAt saved,
    .deliver nodeId task payees nowUnix stagedAt saved ∈ is }

/-- The encodings of those sets that are hashed. -/
def hashedEncodings (v : Verifier) (is : List StageInput) : Set Bytes :=
  { bytes | ∃ payees ∈ deliveredPayees is, committedBytes v.lib payees = some bytes }

/-! ## One signature, one payee set -/

theorem members_eq_of_authorized {v : Verifier} {encodings : Set Bytes}
    (hHash : Set.InjOn v.keccak256 encodings) {message : PerStageMessage}
    {task task' : PerStageSettlementTask} {payees payees' : List (String × Int)}
    {entry entry' : String × Int} (h : Authorized v task payees message entry)
    (h' : Authorized v task' payees' message entry')
    (hIn : ∀ bytes, committedBytes v.lib payees = some bytes → bytes ∈ encodings)
    (hIn' : ∀ bytes, committedBytes v.lib payees' = some bytes → bytes ∈ encodings) :
    ∃ members, PayeeSet v.lib payees members ∧ PayeeSet v.lib payees' members := by
  obtain ⟨digest, hDigest, hBound⟩ := h.committed
  obtain ⟨digest', hDigest', hBound'⟩ := h'.committed
  obtain ⟨members, bytes, hSet, hBytes, rfl⟩ := exists_payeeSet hDigest
  obtain ⟨members', bytes', hSet', hBytes', rfl⟩ := exists_payeeSet hDigest'
  have hDigests : v.keccak256 bytes = v.keccak256 bytes' :=
    Fin.ext (abiWord_injective (v.keccak256 bytes).isLt (v.keccak256 bytes').isLt
      (hBound.trans hBound'.symm))
  have hSame : bytes = bytes' := hHash (hIn bytes hBytes) (hIn' bytes' hBytes') hDigests
  have hMembers : members = members' := by
    refine hSet.eq_of_committedBytes hSet' ?_
    rw [hBytes, hBytes', hSame]
  exact ⟨members, hSet, hMembers ▸ hSet'⟩

theorem Authorized.mem_members {v : Verifier} {task : PerStageSettlementTask}
    {payees : List (String × Int)} {message : PerStageMessage} {entry : String × Int}
    (h : Authorized v task payees message entry) {members : List (Address × Int)}
    (hSet : PayeeSet v.lib payees members) :
    ∃ addr, v.lib.parse entry.1 = some addr ∧
      (addr, task.batchedReceipt.valueFtns) ∈ members := by
  obtain ⟨addr, hAddr, hMem⟩ := hSet.mem_of_mem entry (List.mem_of_find?_eq_some h.matched)
  exact ⟨addr, hAddr, h.settled ▸ hMem⟩

/-! ## Staged tasks -/

section Stores

variable {delivered : Set (List (String × Int))} {store : PerStageReceiverStore}

/-- The tasks of a store carry delivered payee sets. -/
structure PerStageReceiverStore.Delivered (delivered : Set (List (String × Int)))
    (store : PerStageReceiverStore) : Prop where
  staged : store.staged.All fun _ staged => staged.payees ∈ delivered
  disk : ∀ tasks ∈ store.disk, tasks.All fun _ staged => staged.payees ∈ delivered

namespace PerStageReceiverStore.Delivered

theorem persist (h : store.Delivered delivered) {staged : StagedTasks}
    (hStaged : staged.All fun _ staged => staged.payees ∈ delivered) (saved : Bool) :
    (PerStageReceiverStore.persist { store with staged := staged } saved).Delivered delivered := by
  cases saved with
  | false => exact ⟨hStaged, h.disk⟩
  | true =>
      refine ⟨hStaged, fun tasks hTasks => ?_⟩
      cases hTasks
      exact hStaged

theorem stage (h : store.Delivered delivered) {store' : PerStageReceiverStore} {maxEntries : Nat}
    {record : StagedSettlementTask} {saved : Bool} (hRecord : record.payees ∈ delivered)
    (hStage : store.stage maxEntries record saved = some store') : store'.Delivered delivered := by
  unfold PerStageReceiverStore.stage at hStage
  split at hStage
  · cases hStage
  · cases hStage
    refine h.persist (Dict.all_iff.mpr fun entry hEntry => ?_) saved
    have hAll : ((store.staged.erase record.localEscrowId).set record.localEscrowId record).All
        fun _ staged => staged.payees ∈ delivered :=
      (h.staged.erase record.localEscrowId).set hRecord
    exact Dict.all_iff.mp hAll entry (List.mem_of_mem_drop hEntry)

theorem discard (h : store.Delivered delivered) (localEscrowId : String) (saved : Bool) :
    (store.discard localEscrowId saved).Delivered delivered := by
  unfold PerStageReceiverStore.discard
  split
  · exact h
  · exact h.persist (h.staged.erase localEscrowId) saved

theorem prune (h : store.Delivered delivered) (cutoff : ℚ) (saved : Bool) :
    (store.prune cutoff saved).Delivered delivered := by
  unfold PerStageReceiverStore.prune
  split
  · refine h.persist (Dict.all_iff.mpr fun entry hEntry => ?_) saved
    exact Dict.all_iff.mp h.staged entry (List.mem_filter.mp hEntry).1
  · exact h

theorem restart (h : store.Delivered delivered) (readable : Bool) :
    (store.restart readable).Delivered delivered := by
  unfold PerStageReceiverStore.restart
  split
  case h_1 tasks hTasks =>
    refine ⟨Dict.all_ofEntries fun entry hEntry => ?_, h.disk⟩
    obtain ⟨old, hOld, hKept⟩ := List.mem_filterMap.mp hEntry
    split at hKept
    · cases hKept
    · cases hKept
      exact Dict.all_iff.mp (h.disk tasks hTasks) old hOld
  case h_2 => exact ⟨Dict.all_empty _, h.disk⟩

end PerStageReceiverStore.Delivered

end Stores

/-- Staged and taken tasks carry delivered payee sets.  Taken ones were
authorized, and no two under one signature pay the same address. -/
structure Network.Sound (v : Verifier) (delivered : Set (List (String × Int))) (s : Network) :
    Prop where
  stores : ∀ nodeId, (s.nodes nodeId).store.Delivered delivered
  taken : ∀ staged ∈ s.taken, staged.payees ∈ delivered ∧ ∃ message sigBytes entry,
    signedTask v staged.task = some (message, sigBytes) ∧
      Authorized v staged.task staged.payees message entry
  distinct : s.taken.Pairwise fun a b =>
    signedTask v a.task = signedTask v b.task → a.payeeAddress v ≠ b.payeeAddress v

theorem Network.Sound.takenUnder_le {v : Verifier} {is : List StageInput} {s : Network}
    (h : s.Sound v (deliveredPayees is)) (hHash : Set.InjOn v.keccak256 (hashedEncodings v is))
    (message : PerStageMessage) (sigBytes : Bytes) :
    s.takenUnder v message sigBytes ≤ message.totalMaxSpendWei.val := by
  let under := s.taken.filter fun staged => signedTask v staged.task = some (message, sigBytes)
  have hUnder : ∀ staged ∈ under, signedTask v staged.task = some (message, sigBytes) ∧
      staged.payees ∈ deliveredPayees is ∧
        ∃ entry, Authorized v staged.task staged.payees message entry := by
    intro staged hStaged
    obtain ⟨hMem, hSigned⟩ := List.mem_filter.mp hStaged
    have hSigned : signedTask v staged.task = some (message, sigBytes) :=
      of_decide_eq_true hSigned
    obtain ⟨hDelivered, message', sigBytes', entry, hSigned', hAuthorized⟩ := h.taken staged hMem
    cases hSigned.symm.trans hSigned'
    exact ⟨hSigned, hDelivered, entry, hAuthorized⟩
  show (under.map fun staged => staged.task.batchedReceipt.valueFtns).sum ≤ _
  cases hEmpty : under with
  | nil => exact Int.natCast_nonneg _
  | cons first rest =>
      rw [← hEmpty]
      have hFirst : first ∈ under := hEmpty ▸ List.mem_cons_self
      obtain ⟨-, hFirstIn, firstEntry, hFirstAuthorized⟩ := hUnder first hFirst
      have hHashed : ∀ payees ∈ deliveredPayees is, ∀ bytes,
          committedBytes v.lib payees = some bytes → bytes ∈ hashedEncodings v is :=
        fun payees hPayees bytes hBytes => ⟨payees, hPayees, hBytes⟩
      obtain ⟨members, hSet, -⟩ := members_eq_of_authorized hHash hFirstAuthorized
        hFirstAuthorized (hHashed _ hFirstIn) (hHashed _ hFirstIn)
      have hPaid : ∀ staged ∈ under, ∃ addr, staged.payeeAddress v = some addr ∧
          (addr, staged.task.batchedReceipt.valueFtns) ∈ members := by
        intro staged hStaged
        obtain ⟨-, hIn, entry, hAuthorized⟩ := hUnder staged hStaged
        obtain ⟨members', hSet', hOwn⟩ := members_eq_of_authorized hHash hFirstAuthorized
          hAuthorized (hHashed _ hFirstIn) (hHashed _ hIn)
        have hMembers : members = members' :=
          hSet.eq_of_committedBytes hSet' rfl
        obtain ⟨addr, hParse, hMem⟩ := hAuthorized.mem_members (hMembers ▸ hOwn)
        refine ⟨addr, ?_, hMem⟩
        rw [StagedSettlementTask.payeeAddress, hAuthorized.matched, Option.bind_some, hParse]
      let paid := fun staged : StagedSettlementTask =>
        ((staged.payeeAddress v).getD 0, staged.task.batchedReceipt.valueFtns)
      have hNodup : (under.map paid).Nodup := by
        refine List.pairwise_map.mpr ((h.distinct.filter _).imp_of_mem ?_)
        intro a b ha hb hApart hSame
        obtain ⟨addrA, hA, -⟩ := hPaid a ha
        obtain ⟨addrB, hB, -⟩ := hPaid b hb
        have hAddr : (a.payeeAddress v).getD 0 = (b.payeeAddress v).getD 0 :=
          congrArg Prod.fst hSame
        rw [hA, hB, Option.getD_some, Option.getD_some] at hAddr
        exact hApart ((hUnder a ha).1.trans (hUnder b hb).1.symm) (by rw [hA, hB, hAddr])
      have hMem : ∀ staged ∈ under, paid staged ∈ members := by
        intro staged hStaged
        obtain ⟨addr, hAddr, hMem⟩ := hPaid staged hStaged
        show ((staged.payeeAddress v).getD 0, _) ∈ members
        rw [hAddr]
        exact hMem
      calc (under.map fun staged => (paid staged).2).sum ≤ (members.map Prod.snd).sum :=
            sum_map_le_of_nodup hNodup hMem fun entry hEntry => (hSet.range entry hEntry).1
        _ = (first.payees.map Prod.snd).sum := hSet.sum_eq
        _ ≤ message.totalMaxSpendWei.val := hFirstAuthorized.sum_le

section Steps

variable {v : Verifier} {settings : String → StageSettings} {s s' : Network}
  {delivered : Set (List (String × Int))}

theorem Network.sound_fresh (v : Verifier) (delivered : Set (List (String × Int))) :
    Network.fresh.Sound v delivered where
  stores _ := ⟨Dict.all_empty _, fun _ h => by cases h⟩
  taken _ h := by cases h
  distinct := .nil

namespace Network.Sound

theorem setStore (h : s.Sound v delivered) (nodeId : String) {store : PerStageReceiverStore}
    (hStore : store.Delivered delivered) : (s.setStore nodeId store).Sound v delivered := by
  refine ⟨fun other => ?_, h.taken, h.distinct⟩
  rcases eq_or_ne other nodeId with rfl | hOther
  · rw [s.store_setStore_self]
    exact hStore
  · rw [s.nodes_setStore_of_ne store hOther]
    exact h.stores other

theorem setClient (h : s.Sound v delivered) (nodeId : String) (client : SettlementClient.World) :
    (s.setClient nodeId client).Sound v delivered := by
  refine ⟨fun other => ?_, h.taken, h.distinct⟩
  rw [s.store_setClient client]
  exact h.stores other

theorem take (h : s.Sound v delivered) {nodeId localEscrowId : String}
    {staged : StagedSettlementTask} {nowUnix : Int}
    (hStaged : (s.nodes nodeId).store.staged.get? localEscrowId = some staged)
    (hGate : verifyRoutedSettlementTask v staged.task staged.payees nowUnix = .ok .authorized)
    (hFirst : ∀ earlier ∈ s.taken, signedTask v earlier.task = signedTask v staged.task →
      earlier.payeeAddress v ≠ staged.payeeAddress v) :
    { s with taken := s.taken ++ [staged] : Network }.Sound v delivered where
  stores := h.stores
  taken := by
    intro later hLater
    rcases List.mem_append.mp hLater with hOld | hNew
    · exact h.taken later hOld
    · cases List.mem_singleton.mp hNew
      exact ⟨(h.stores nodeId).staged localEscrowId staged hStaged, authorized_spec hGate⟩
  distinct := by
    refine List.pairwise_append.mpr ⟨h.distinct, List.pairwise_singleton _ _, ?_⟩
    intro earlier hEarlier later hLater
    cases List.mem_singleton.mp hLater
    exact hFirst earlier hEarlier

end Network.Sound

theorem stage_of_accepted {settings : StageSettings} {store store' : PerStageReceiverStore}
    {task : PerStageSettlementTask} {payees : List (String × Int)} {nowUnix stagedAt : Int}
    {saved : Bool} {localEscrowId : String}
    (h : ingestRoutedTask v settings store task payees nowUnix stagedAt saved =
      (store', .accepted localEscrowId)) :
    store.stage settings.maxEntries ⟨task, payees, stagedAt⟩ saved = some store' := by
  unfold ingestRoutedTask at h
  split at h
  · cases h
  split at h
  · cases h
  · split at h
    · cases h
    case h_2 staged hStaged =>
      cases h
      exact hStaged
  · cases h

theorem authorized_of_commitStagedTask {settings : StageSettings}
    {client client' : SettlementClient.World} {staged : StagedSettlementTask} {nowUnix now : Int}
    (h : commitStagedTask v settings client staged nowUnix now = some client') :
    verifyRoutedSettlementTask v staged.task staged.payees nowUnix = .ok .authorized ∧
      SettlementClient.settlementStep v.keccak256 settings.client client
        (.accumulate staged.task.batchedReceipt now) = some client' := by
  unfold commitStagedTask at h
  split at h
  case h_1 hGate => exact ⟨hGate, h⟩
  case h_2 => cases h

theorem stageStep_sound {is : List StageInput} {i : StageInput}
    (h : s.Sound v (deliveredPayees is)) (hMem : i ∈ is) (hFirst : s.FirstShare v i)
    (hStep : stageStep v settings s i = some s') : s'.Sound v (deliveredPayees is) := by
  cases i with
  | deliver nodeId task payees nowUnix stagedAt saved =>
      simp only [stageStep] at hStep
      split at hStep
      case h_1 store localEscrowId hAccepted =>
        cases hStep
        have hPayees : payees ∈ deliveredPayees is :=
          ⟨nodeId, task, nowUnix, stagedAt, saved, hMem⟩
        exact h.setStore nodeId ((h.stores nodeId).stage hPayees (stage_of_accepted hAccepted))
      case h_2 => cases hStep
  | commit nodeId localEscrowId nowUnix now =>
      obtain ⟨staged, hStaged, hStep⟩ := Option.bind_eq_some_iff.mp hStep
      obtain ⟨client, hClient, hStep⟩ := Option.bind_eq_some_iff.mp hStep
      cases hStep
      obtain ⟨hGate, -⟩ := authorized_of_commitStagedTask hClient
      cases hTakes : clientTakes (s.nodes nodeId).client staged.task.batchedReceipt with
      | false => exact h.setClient nodeId client
      | true =>
          have hTaken := h.take hStaged hGate (hFirst staged hStaged hTakes)
          exact hTaken.setClient nodeId client
  | client nodeId input =>
      cases input
      case accumulate => cases hStep
      all_goals
        obtain ⟨client, -, hStep⟩ := Option.bind_eq_some_iff.mp hStep
        cases hStep
        exact h.setClient nodeId client
  | discard nodeId localEscrowId saved =>
      cases hStep
      exact h.setStore nodeId ((h.stores nodeId).discard localEscrowId saved)
  | prune nodeId cutoff saved =>
      cases hStep
      exact h.setStore nodeId ((h.stores nodeId).prune cutoff saved)
  | restart nodeId readable =>
      obtain ⟨client, -, hStep⟩ := Option.bind_eq_some_iff.mp hStep
      cases hStep
      exact (h.setStore nodeId ((h.stores nodeId).restart readable)).setClient nodeId client

end Steps

/-- What the clients take under a signature is at most its ceiling, in every
state of a run in which each of them takes the first share for its payee, unless
two of the delivered payee sets collide under the hash. -/
theorem cap_respected (v : Verifier) (settings : String → StageSettings) (is : List StageInput)
    (hHash : Set.InjOn v.keccak256 (hashedEncodings v is))
    (hFirst : (stageMachine v settings).EveryStep (Network.FirstShare v) .fresh is) :
    (stageMachine v settings).EveryState
      (fun s => ∀ message sigBytes,
        s.takenUnder v message sigBytes ≤ message.totalMaxSpendWei.val) .fresh is := by
  have hSound : (stageMachine v settings).EveryState (Network.Sound v (deliveredPayees is))
      .fresh is := by
    refine Machine.everyState_of_everyStep _ _ _ ?_ (Network.sound_fresh v _)
      (hFirst.and (Machine.everyStep_mem _ _ _))
    rintro s i s' hSound ⟨hFirst, hMem⟩ hStep
    exact stageStep_sound hSound hMem hFirst hStep
  intro visited hVisited message sigBytes
  exact (hSound visited hVisited).takenUnder_le hHash message sigBytes

/-! ## One signature for two jobs -/

/-- A verifier over a library that recovers the requester's account, with the
hash of `sixtyForty`. -/
def sharesVerifier : Verifier where
  lib := asciiLibrary
  signing :=
    { encodeAddress := parseHexAddress
      recover := fun _ _ _ => some "0x7E5F4552091A69125d5DfCb7b8C2659029395Bdf" }
  keccak256 := fun _ => 0x026c0d980b9d9647adab5cc336c6c9185f91d501f4a4e6155846fcb8273b4077
  chainId := 8453

def sixtyForty : List (String × Int) :=
  [("0x0000000000000000000000000000000000000005", 60),
    ("0x0000000000000000000000000000000000000006", 40)]

def hundredAuthorization : RoutedAuthorization where
  payload := some
    { requester := some "0x7E5F4552091A69125d5DfCb7b8C2659029395Bdf"
      payeeSetHash := .bytes
        (abiWord 0x026c0d980b9d9647adab5cc336c6c9185f91d501f4a4e6155846fcb8273b4077)
      totalMaxSpendWei := some 100
      jobNonce := .bytes (List.replicate 32 0x11)
      expiryUnix := some 2000
      requestHash := .bytes (List.replicate 32 0x22) }
  signature := some (.bytes
    (abiWord 0x5cbdf0646e5db4eaa398f365f2ea7a0e3d419b7e0330e39ce92bddedcac4f9bc ++
      abiWord 0x4f9a713beeffbabf5a6fffa52235f0410f062c66dea5a454604aff79310f7ec9 ++ [27]))

def shareTask (nodeId jobId localEscrowId : String) (payee : String × Int) :
    PerStageSettlementTask where
  nodeId := nodeId
  shareWei := payee.2
  batchedReceipt :=
    { SettlementClient.smallReceipt jobId localEscrowId 0 with
      providerAddress := payee.1
      valueFtns := payee.2 }
  paymentAuthorization := some hundredAuthorization

def twoStages (nodeId : String) : StageSettings where
  myNodeId := some nodeId
  maxEntries := 10
  maxEntries_pos := by decide
  client :=
    { SettlementClient.smallSettings with
      providerAddress :=
        if nodeId = "n1" then "0x0000000000000000000000000000000000000005"
        else "0x0000000000000000000000000000000000000006" }

def deliverAndCommit (nodeId jobId localEscrowId : String) (payee : String × Int) :
    List StageInput :=
  [.deliver nodeId (shareTask nodeId jobId localEscrowId payee) sixtyForty 1000 1000 true,
    .commit nodeId localEscrowId 1100 1100]

theorem injOn_deliverAndCommit (v : Verifier) (nodeId jobId localEscrowId : String)
    (payee : String × Int) (nodeId' jobId' localEscrowId' : String) (payee' : String × Int) :
    Set.InjOn v.keccak256 (hashedEncodings v (deliverAndCommit nodeId jobId localEscrowId payee ++
      deliverAndCommit nodeId' jobId' localEscrowId' payee')) := by
  have hOne : ∀ payees ∈ deliveredPayees (deliverAndCommit nodeId jobId localEscrowId payee ++
      deliverAndCommit nodeId' jobId' localEscrowId' payee'), payees = sixtyForty := by
    rintro payees ⟨nodeId, task, nowUnix, stagedAt, saved, hMem⟩
    simp only [deliverAndCommit, List.cons_append, List.nil_append, List.mem_cons,
      List.not_mem_nil, or_false] at hMem
    rcases hMem with h | h | h | h <;> cases h <;> rfl
  refine Set.Subsingleton.injOn ?_ _
  rintro bytes ⟨one, hIn, hBytes⟩ bytes' ⟨other, hIn', hBytes'⟩
  rw [hOne one hIn] at hBytes
  rw [hOne other hIn'] at hBytes'
  exact Option.some.inj (hBytes.symm.trans hBytes')

def bothShares : List StageInput :=
  deliverAndCommit "n1" "job-1" "job-1::stage::n1"
      ("0x0000000000000000000000000000000000000005", 60) ++
    deliverAndCommit "n2" "job-1" "job-1::stage::n2"
      ("0x0000000000000000000000000000000000000006", 40)

theorem cap_respected_bothShares :
    (stageMachine sharesVerifier twoStages).EveryState
        (fun s => ∀ message sigBytes,
          s.takenUnder sharesVerifier message sigBytes ≤ message.totalMaxSpendWei.val)
        .fresh bothShares ∧
      ((stageMachine sharesVerifier twoStages).run .fresh bothShares).taken.map
        (fun staged => staged.task.batchedReceipt.valueFtns) = [60, 40] := by
  refine ⟨cap_respected sharesVerifier twoStages bothShares
    (injOn_deliverAndCommit ..) ?_, by decide +kernel⟩
  simp only [bothShares, deliverAndCommit, List.cons_append, List.nil_append,
    Machine.everyStep_cons, Machine.everyStep_nil, and_true]
  decide +kernel

def sameShareTwice : List StageInput :=
  deliverAndCommit "n1" "job-1" "job-1::stage::n1"
      ("0x0000000000000000000000000000000000000005", 60) ++
    deliverAndCommit "n1" "job-2" "job-2::stage::n1"
      ("0x0000000000000000000000000000000000000005", 60)

def twiceSettled : PerStageSettlementTask :=
  shareTask "n1" "job-1" "job-1::stage::n1" ("0x0000000000000000000000000000000000000005", 60)

theorem cap_exceeded_sameShareTwice :
    ¬ ∀ (v : Verifier) (settings : String → StageSettings) (is : List StageInput),
      Set.InjOn v.keccak256 (hashedEncodings v is) →
        (stageMachine v settings).EveryState
          (fun s => ∀ message sigBytes,
            s.takenUnder v message sigBytes ≤ message.totalMaxSpendWei.val) .fresh is := by
  intro hClaim
  have hCap := (hClaim sharesVerifier twoStages sameShareTwice (injOn_deliverAndCommit ..)).last
  have hSigned : (signedTask sharesVerifier twiceSettled).isSome = true := by decide +kernel
  have hTwice : ∀ signed ∈ signedTask sharesVerifier twiceSettled,
      signed.1.totalMaxSpendWei.val < ((stageMachine sharesVerifier twoStages).run .fresh
        sameShareTwice).takenUnder sharesVerifier signed.1 signed.2 := by
    decide +kernel
  obtain ⟨signed, hSigned⟩ := Option.isSome_iff_exists.mp hSigned
  exact absurd (hCap signed.1 signed.2) (not_le.mpr (hTwice signed hSigned))

end Prsm.PerStage
