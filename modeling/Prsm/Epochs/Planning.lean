import Mathlib.Data.Prod.Lex
import Mathlib.Data.String.Basic
import Prsm.Foundations.Apportionment
import Prsm.Foundations.Dict
import Prsm.Foundations.StableSort
import Prsm.RewardPool.Operations
import Prsm.Settlement.AddressText
import Prsm.Settlement.Merkle

/-!
# Planning a reward epoch

`build_emission_epoch` adds up what each provider settled in the finalized
batches that no earlier epoch consumed, and splits the pot in proportion.
`build_reward_epoch` turns the entries into a Merkle tree with one proof per
account.

Accounts are kept as text, as in the source; `codec` stands for the address
functions and `lower` for `str.lower`.
-/

namespace Prsm.Epochs

open Foundations Foundations.Apportionment Evm Settlement

/-- One observation of `BatchFinalized`. -/
structure FinalizedBatch where
  batchId : String
  provider : String
  finalValueWei : Int
  finalizeTimestamp : Int

structure RewardEntry where
  account : String
  amountWei : Int
  deriving DecidableEq

structure EmissionEpochPlan where
  epochId : Int
  potWei : Int
  entries : List RewardEntry
  consumedBatchIds : List String
  skippedAlreadyConsumed : List String
  contributionWei : Dict String Int
  deriving DecidableEq

structure RewardEpoch where
  epochId : Int
  merkleRoot : Bytes32
  totalAmountWei : Int
  entries : List RewardEntry
  leafHashes : List Bytes32
  /-- The proof of each account, under its checksummed form. -/
  proofs : List (String × List Bytes32)
  deriving DecidableEq

/-! ## The split of the pot -/

/-- The accounts by remainder, the largest first; ties go by the account. -/
def ranking (pot : Nat) (live : List (String × Nat)) : List String :=
  (sortBy (fun r => toLex (-(r.1 : Int), r.2))
    (live.map fun (acct, w) => (pot * w % weightOf live, acct))).map Prod.snd

/-- One round of the loop of `allocate_pro_rata`. -/
def allocateRound (pot : Nat) (live : List (String × Nat)) : List (String × Nat) :=
  apportion pot live (ranking pot live)

/-- The accounts that a round leaves without a share. -/
def zeroShares (base : List (String × Nat)) : List String :=
  (base.filter fun entry => entry.2 = 0).map Prod.fst

/-- The loop, for at most the given number of rounds.  `none` is a failure of
its assertion.  A round that does not return drops an account, so as many rounds
as there are accounts complete the loop. -/
def allocateLoop (pot : Nat) : Nat → List (String × Nat) → Option (List (String × Nat))
  | 0, _ => some []
  | rounds + 1, live =>
      let base := allocateRound pot live
      if zeroShares base = [] then
        if weightOf base = pot then some base else none
      else
        let rest := live.filter fun entry => entry.1 ∉ zeroShares base
        if rest = [] then some [] else allocateLoop pot rounds rest

/-- `allocate_pro_rata`, with `none` where it raises. -/
def allocateProRata (weights : Dict String Int) (potWei : Int) : Option (List (String × Nat)) :=
  if potWei < 0 then none
  else
    let live := (weights.entries.filter fun entry => 0 < entry.2).map fun entry =>
      (entry.1, entry.2.toNat)
    if live = [] ∨ potWei = 0 then some [] else allocateLoop potWei.toNat live.length live

/-! ## The scan of the batches -/

section Planning

variable (codec : AddressCodec) (lower : String → String)

/-- `int(account, 16)` of a checksummed address. -/
def accountNumber (account : String) : Nat :=
  ((codec.parse account).map Fin.val).getD 0

/-- The variables of the loop of `build_emission_epoch`. -/
structure Scan where
  contribution : Dict String Int
  newlyConsumed : List String
  skipped : List String
  seenThisRun : List String

def Scan.start : Scan := ⟨∅, [], [], []⟩

/-- The optional bounds on the time of finalization, the first inclusive and the
second exclusive. -/
def inWindow (windowStart windowEnd : Option Int) (b : FinalizedBatch) : Bool :=
  windowStart.all (· ≤ b.finalizeTimestamp) && windowEnd.all (b.finalizeTimestamp < ·)

/-- A batch that some epoch has already paid, or that came before in this run. -/
def Scan.skip (scan : Scan) (b : FinalizedBatch) : Scan :=
  { scan with skipped := scan.skipped ++ [b.batchId] }

/-- A batch that this epoch consumes. -/
def Scan.consume (scan : Scan) (b : FinalizedBatch) : Scan :=
  { scan with
    seenThisRun := lower b.batchId :: scan.seenThisRun
    newlyConsumed := scan.newlyConsumed ++ [b.batchId] }

/-- `contribution[acct] = contribution.get(acct, 0) + value`. -/
def Scan.credit (scan : Scan) (acct : String) (value : Int) : Scan :=
  { scan with
    contribution := scan.contribution.set acct ((scan.contribution.get? acct).getD 0 + value) }

/-- One batch of the loop; `none` where the provider is not an address. -/
def scanBatch (consumed : List String) (windowStart windowEnd : Option Int) (scan : Scan)
    (b : FinalizedBatch) : Option Scan :=
  if inWindow windowStart windowEnd b = false then some scan
  else if lower b.batchId ∈ consumed ∨ lower b.batchId ∈ scan.seenThisRun then some (scan.skip b)
  else if b.finalValueWei ≤ 0 then some (scan.consume lower b)
  else
    (codec.toChecksumAddress b.provider).map fun acct =>
      (scan.consume lower b).credit acct b.finalValueWei

/-- `build_emission_epoch`, with `none` where it raises. -/
def buildEmissionEpoch (epochId : Int) (batches : List FinalizedBatch) (potWei : Int)
    (consumedBatchIds : List String) (windowStart windowEnd : Option Int) :
    Option EmissionEpochPlan := do
  let scan ← batches.foldlM
    (scanBatch codec lower (consumedBatchIds.map lower) windowStart windowEnd) Scan.start
  guard (scan.contribution.entries ≠ [])
  let allocation ← allocateProRata scan.contribution potWei
  guard (allocation ≠ [])
  some
    { epochId := epochId
      potWei := potWei
      entries := (sortBy (fun entry => accountNumber codec entry.1) allocation).map fun entry =>
        ⟨entry.1, entry.2⟩
      consumedBatchIds := scan.newlyConsumed
      skippedAlreadyConsumed := scan.skipped
      contributionWei := scan.contribution }

end Planning

/-! ## The tree -/

section Building

variable (codec : AddressCodec) (keccak256 : Keccak)

/-- `reward_leaf_hash`, with `none` where it raises. -/
def rewardLeafHash (epochId : Int) (account : String) (amountWei : Int) : Option Bytes32 := do
  guard (0 ≤ epochId ∧ epochId < 2 ^ 256)
  guard (0 ≤ amountWei ∧ amountWei < 2 ^ 256)
  let address ← codec.parse account
  let inner := keccak256 (abiEncode [epochId.toNat, address.val, amountWei.toNat])
  some (keccak256 (abiWord inner))

/-- The loop that checks and normalizes the entries. -/
def normalizeEntries : List String → List RewardEntry → Option (List RewardEntry)
  | _, [] => some []
  | seen, e :: rest => do
      let acct ← codec.toChecksumAddress e.account
      guard (0 < e.amountWei)
      guard (e.amountWei < 2 ^ 256)
      guard (acct ∉ seen)
      let normalized ← normalizeEntries (acct :: seen) rest
      some (⟨acct, e.amountWei⟩ :: normalized)

/-- `build_reward_epoch`, with `none` where it raises. -/
def buildRewardEpoch (epochId : Int) (entries : List RewardEntry) : Option RewardEpoch := do
  guard (entries ≠ [])
  let normalized ← normalizeEntries codec [] entries
  let sorted := sortBy (fun e => accountNumber codec e.account) normalized
  let leaves ← sorted.mapM fun e => rewardLeafHash codec keccak256 epochId e.account e.amountWei
  let root ← buildMerkleRoot keccak256 leaves
  let proofs ← sorted.zipIdx.mapM fun (e, i) =>
    (buildMerkleProof keccak256 leaves i).map fun proof => (e.account, proof)
  some
    { epochId := epochId
      merkleRoot := root
      totalAmountWei := (sorted.map RewardEntry.amountWei).sum
      entries := sorted
      leafHashes := leaves
      proofs := proofs }

def planToRewardEpoch (plan : EmissionEpochPlan) : Option RewardEpoch :=
  buildRewardEpoch codec keccak256 plan.epochId plan.entries

end Building

/-! ## What the split gives -/

/-- A finished split of the pot: every part is positive, and together they are
the pot. -/
structure Splits (pot : Nat) (weights allocation : List (String × Nat)) : Prop where
  keys_sublist : (allocation.map Prod.fst).Sublist (weights.map Prod.fst)
  positive : ∀ entry ∈ allocation, 0 < entry.2
  sum_eq : weightOf allocation = pot

theorem mem_zeroShares {base : List (String × Nat)} {acct : String} :
    acct ∈ zeroShares base ↔ ∃ entry ∈ base, entry.2 = 0 ∧ entry.1 = acct := by
  simp [zeroShares, and_assoc]
variable {live : List (String × Nat)}

theorem weightOf_allocateRound {pot : Nat}
    (hNodup : (live.map Prod.fst).Nodup) (hWeight : 0 < weightOf live) :
    weightOf (allocateRound pot live) = pot := by
  refine weightOf_apportion hNodup hWeight ?_ ?_
  · intro acct hAcct
    obtain ⟨r, hr, rfl⟩ := List.mem_map.mp hAcct
    obtain ⟨entry, hEntry, rfl⟩ := List.mem_map.mp (mem_sortBy.mp hr)
    exact List.mem_map_of_mem hEntry
  · rw [ranking, List.length_map, sortBy, List.length_insertionSort, List.length_map]

theorem weightOf_pos {entries : List (String × Nat)} (hSome : entries ≠ [])
    (hPositive : ∀ entry ∈ entries, 0 < entry.2) : 0 < weightOf entries := by
  obtain ⟨entry, rest, rfl⟩ := List.exists_cons_of_ne_nil hSome
  have hEntry := hPositive entry List.mem_cons_self
  rw [weightOf_cons]
  omega

theorem rest_ne_nil {pot : Nat} (hPot : 0 < pot)
    (hNodup : (live.map Prod.fst).Nodup) (hWeight : 0 < weightOf live) :
    (live.filter fun entry => entry.1 ∉ zeroShares (allocateRound pot live)) ≠ [] := by
  intro hNone
  have hKeys := keys_apportion pot live (ranking pot live)
  have hNodupBase : ((allocateRound pot live).map Prod.fst).Nodup := hKeys ▸ hNodup
  have hZero : ∀ x ∈ (allocateRound pot live).map Prod.snd, x = 0 := by
    intro x hx
    obtain ⟨entry, hEntry, rfl⟩ := List.mem_map.mp hx
    have hKey : entry.1 ∈ live.map Prod.fst := by
      rw [← hKeys]
      exact List.mem_map_of_mem hEntry
    obtain ⟨source, hSource, hSame⟩ := List.mem_map.mp hKey
    have hDropped := List.filter_eq_nil_iff.mp hNone source hSource
    obtain ⟨other, hOther, hShare, hOtherKey⟩ := mem_zeroShares.mp (by simpa using hDropped)
    -- keys are distinct, so this is the entry itself
    have hEq : other = entry :=
      List.inj_on_of_nodup_map hNodupBase hOther hEntry (hOtherKey.trans hSame)
    rw [← hEq, hShare]
  have hSum := @weightOf_allocateRound live pot hNodup hWeight
  have hNothing : weightOf (allocateRound pot live) = 0 := List.sum_eq_zero hZero
  omega

theorem allocateLoop_spec {pot rounds : Nat} (hPot : 0 < pot)
    (hSome : live ≠ []) (hNodup : (live.map Prod.fst).Nodup)
    (hPositive : ∀ entry ∈ live, 0 < entry.2) (hRounds : live.length ≤ rounds) :
    ∃ allocation, allocateLoop pot rounds live = some allocation ∧ Splits pot live allocation := by
  induction rounds generalizing live with
  | zero =>
      have hLength := List.length_pos_iff.mpr hSome
      omega
  | succ rounds ih =>
      have hWeight := weightOf_pos hSome hPositive
      have hSum := @weightOf_allocateRound live pot hNodup hWeight
      have hKeys := keys_apportion pot live (ranking pot live)
      rw [allocateLoop]
      by_cases hDone : zeroShares (allocateRound pot live) = []
      · refine ⟨allocateRound pot live, ?_, ?_, ?_, hSum⟩
        · show (if zeroShares (allocateRound pot live) = [] then _ else _) = _
          rw [if_pos hDone, if_pos hSum]
        · exact hKeys ▸ List.Sublist.refl _
        · intro entry hEntry
          by_contra hZero
          have hMem : entry.1 ∈ zeroShares (allocateRound pot live) :=
            mem_zeroShares.mpr ⟨entry, hEntry, by omega, rfl⟩
          rw [hDone] at hMem
          cases hMem
      · have hRest := rest_ne_nil hPot hNodup hWeight
        -- an account without a share is dropped, so the rest is shorter
        have hShorter : (live.filter fun entry =>
            entry.1 ∉ zeroShares (allocateRound pot live)).length < live.length := by
          obtain ⟨acct, hAcct⟩ := List.exists_mem_of_ne_nil _ hDone
          obtain ⟨entry, hEntry, -, hKey⟩ := mem_zeroShares.mp hAcct
          have hLive : acct ∈ live.map Prod.fst := by
            rw [← hKeys, ← hKey]
            exact List.mem_map_of_mem hEntry
          obtain ⟨source, hSource, rfl⟩ := List.mem_map.mp hLive
          exact List.length_filter_lt_length_iff_exists.mpr ⟨source, hSource, by simpa using hAcct⟩
        obtain ⟨allocation, hAllocation, hSplit⟩ := ih hRest
          (hNodup.sublist (List.filter_sublist.map _))
          (fun entry hEntry => hPositive entry (List.mem_of_mem_filter hEntry)) (by omega)
        refine ⟨allocation, ?_, ?_, hSplit.positive, hSplit.sum_eq⟩
        · show (if zeroShares (allocateRound pot live) = [] then _ else _) = _
          rw [if_neg hDone, if_neg hRest, hAllocation]
        · exact hSplit.keys_sublist.trans (List.filter_sublist.map _)

theorem allocateProRata_spec (weights : Dict String Int) {potWei : Int} (hPot : 0 ≤ potWei) :
    ∃ allocation, allocateProRata weights potWei = some allocation ∧
      (allocation.map Prod.fst).Sublist (weights.entries.map Prod.fst) ∧
      (∀ entry ∈ allocation, 0 < entry.2) ∧
      (allocation ≠ [] → (weightOf allocation : Int) = potWei) := by
  rw [allocateProRata, if_neg (by omega)]
  by_cases hEmpty : ((weights.entries.filter fun entry => 0 < entry.2).map fun entry =>
      (entry.1, entry.2.toNat)) = [] ∨ potWei = 0
  · exact ⟨[], if_pos hEmpty, List.nil_sublist _, by simp, fun h => absurd rfl h⟩
  · obtain ⟨hSome, hNonzero⟩ := not_or.mp hEmpty
    have hKeys : (((weights.entries.filter fun entry => 0 < entry.2).map fun entry =>
        (entry.1, entry.2.toNat)).map Prod.fst).Sublist (weights.entries.map Prod.fst) := by
      rw [List.map_map]
      exact List.filter_sublist.map Prod.fst
    obtain ⟨allocation, hAllocation, hSplit⟩ := @allocateLoop_spec _ potWei.toNat _ (by omega)
      hSome (weights.nodup.sublist hKeys) (by
        intro entry hEntry
        obtain ⟨source, hSource, rfl⟩ := List.mem_map.mp hEntry
        have hPos : 0 < source.2 := by simpa using (List.mem_filter.mp hSource).2
        show 0 < source.2.toNat
        omega) (le_refl _)
    refine ⟨allocation, (if_neg hEmpty).trans hAllocation, hSplit.keys_sublist.trans hKeys,
      hSplit.positive, fun _ => ?_⟩
    rw [hSplit.sum_eq, Int.toNat_of_nonneg hPot]

/-! ## What a plan contains -/

section Plans

variable {codec : AddressCodec} {lower : String → String} {keccak256 : Keccak}

/-- An account in checksummed form. -/
def Checksummed (codec : AddressCodec) (account : String) : Prop :=
  ∃ address, account = codec.checksum address

theorem checksummed_of_toChecksumAddress {text account : String}
    (h : codec.toChecksumAddress text = some account) : Checksummed codec account := by
  obtain ⟨address, -, rfl⟩ := Option.map_eq_some_iff.mp h
  exact ⟨address, rfl⟩

/-- What one batch can do to the scan. -/
inductive ScanMove (codec : AddressCodec) (lower : String → String) (consumed : List String)
    (scan : Scan) (b : FinalizedBatch) : Scan → Prop
  | ignored : ScanMove codec lower consumed scan b scan
  | skipped (hKnown : lower b.batchId ∈ consumed ∨ lower b.batchId ∈ scan.seenThisRun) :
      ScanMove codec lower consumed scan b (scan.skip b)
  | valueless (hFresh : ¬ (lower b.batchId ∈ consumed ∨ lower b.batchId ∈ scan.seenThisRun))
      (hValue : b.finalValueWei ≤ 0) : ScanMove codec lower consumed scan b (scan.consume lower b)
  | credited (hFresh : ¬ (lower b.batchId ∈ consumed ∨ lower b.batchId ∈ scan.seenThisRun))
      (hValue : 0 < b.finalValueWei) {acct : String}
      (hAcct : codec.toChecksumAddress b.provider = some acct) :
      ScanMove codec lower consumed scan b ((scan.consume lower b).credit acct b.finalValueWei)

variable {consumed : List String} {windowStart windowEnd : Option Int} {scan scan' : Scan}
  {b : FinalizedBatch} {batches : List FinalizedBatch} {epochId : Int} {plan : EmissionEpochPlan}
  {entries : List RewardEntry} {epoch : RewardEpoch}

theorem scanBatch_move
    (h : scanBatch codec lower consumed windowStart windowEnd scan b = some scan') :
    ScanMove codec lower consumed scan b scan' := by
  unfold scanBatch at h
  split at h
  · cases h
    exact .ignored
  case isFalse =>
      split at h
      case isTrue hKnown =>
          cases h
          exact .skipped hKnown
      case isFalse hFresh =>
          split at h
          case isTrue hValue =>
              cases h
              exact .valueless hFresh hValue
          case isFalse hValue =>
              obtain ⟨acct, hAcct, rfl⟩ := Option.map_eq_some_iff.mp h
              exact .credited hFresh (Int.not_le.mp hValue) hAcct

theorem ScanMove.checksummed
    (h : ScanMove codec lower consumed scan b scan')
    (hScan : scan.contribution.All fun account _ => Checksummed codec account) :
    scan'.contribution.All fun account _ => Checksummed codec account := by
  cases h with
  | ignored | skipped | valueless => exact hScan
  | credited hFresh hValue hAcct => exact hScan.set (checksummed_of_toChecksumAddress hAcct)

/-- A batch that an epoch consumes is one that no earlier epoch has consumed.
If it has a value, the epoch counts it for its provider. -/
structure Attributed (codec : AddressCodec) (lower : String → String)
    (batches : List FinalizedBatch) (consumed : List String) (contribution : Dict String Int)
    (id : String) : Prop where
  fresh : lower id ∉ consumed
  counted : ∃ b ∈ batches, b.batchId = id ∧ (0 < b.finalValueWei →
    ∃ acct, codec.toChecksumAddress b.provider = some acct ∧
      acct ∈ contribution.entries.map Prod.fst)

theorem Attributed.credit
    {id : String} (h : Attributed codec lower batches consumed scan.contribution id)
    (acct : String) (value : Int) :
    Attributed codec lower batches consumed (scan.credit acct value).contribution id := by
  obtain ⟨b, hb, hId, hCounted⟩ := h.counted
  refine ⟨h.fresh, b, hb, hId, fun hValue => ?_⟩
  obtain ⟨account, hAccount, hMem⟩ := hCounted hValue
  exact ⟨account, hAccount, Dict.mem_keys_set.mpr (.inl hMem)⟩

theorem ScanMove.attributed (h : ScanMove codec lower consumed scan b scan')
    (hb : b ∈ batches)
    (hScan : ∀ id ∈ scan.newlyConsumed,
      Attributed codec lower batches consumed scan.contribution id) :
    ∀ id ∈ scan'.newlyConsumed,
      Attributed codec lower batches consumed scan'.contribution id := by
  cases h with
  | ignored | skipped => exact hScan
  | valueless hFresh hValue =>
      intro id hId
      rcases List.mem_append.mp hId with hOld | hNew
      · exact hScan id hOld
      · obtain rfl := List.mem_singleton.mp hNew
        exact ⟨fun hKnown => hFresh (.inl hKnown), b, hb, rfl, fun hPos => by omega⟩
  | credited hFresh hValue hAcct =>
      intro id hId
      rcases List.mem_append.mp hId with hOld | hNew
      · exact (hScan id hOld).credit _ _
      · obtain rfl := List.mem_singleton.mp hNew
        refine ⟨fun hKnown => hFresh (.inl hKnown), b, hb, rfl, fun _ => ⟨_, hAcct, ?_⟩⟩
        exact Dict.mem_keys_set.mpr (.inr rfl)

theorem buildEmissionEpoch_consumed {potWei : Int}
    {consumedBatchIds : List String}
    (h : buildEmissionEpoch codec lower epochId batches potWei consumedBatchIds windowStart
      windowEnd = some plan) :
    plan.consumedBatchIds ≠ [] ∧ ∀ id ∈ plan.consumedBatchIds,
      Attributed codec lower batches (consumedBatchIds.map lower) plan.contributionWei id := by
  obtain ⟨scan, hScan, h⟩ := Option.bind_eq_some_iff.mp h
  obtain ⟨_, hGuard, h⟩ := Option.bind_eq_some_iff.mp h
  have hSome : scan.contribution.entries ≠ [] := guard_eq_some_iff.mp hGuard
  obtain ⟨allocation, -, h⟩ := Option.bind_eq_some_iff.mp h
  obtain ⟨_, -, h⟩ := Option.bind_eq_some_iff.mp h
  cases h
  constructor
  · refine foldlM_invariant (fun scan : Scan =>
      scan.contribution.entries ≠ [] → scan.newlyConsumed ≠ []) ?_ (fun h => absurd rfl h) hScan
      hSome
    intro scan b scan' hBefore hStep
    cases scanBatch_move hStep with
    | ignored | skipped => exact hBefore
    | valueless | credited => exact fun _ => List.concat_ne_nil _ _
  · exact foldlM_invariant_of_mem (fun scan : Scan => ∀ id ∈ scan.newlyConsumed,
      Attributed codec lower batches (consumedBatchIds.map lower) scan.contribution id)
      (fun _ b hb _ hBefore hStep => (scanBatch_move hStep).attributed hb hBefore)
      (by simp [Scan.start])
      hScan

/-- The entries of a plan: distinct checksummed accounts with positive amounts
that add up to the pot. -/
structure PlanSpec (codec : AddressCodec) (plan : EmissionEpochPlan) : Prop where
  some_entry : plan.entries ≠ []
  checksummed : ∀ e ∈ plan.entries, Checksummed codec e.account
  nodup : (plan.entries.map RewardEntry.account).Nodup
  positive : ∀ e ∈ plan.entries, 0 < e.amountWei
  sum_eq : (plan.entries.map RewardEntry.amountWei).sum = plan.potWei

theorem sum_natCast_weights (entries : List (String × Nat)) :
    (entries.map fun entry => (entry.2 : Int)).sum = (weightOf entries : Int) := by
  induction entries with
  | nil => rfl
  | cons entry rest ih =>
      rw [List.map_cons, List.sum_cons, ih, weightOf_cons, Int.natCast_add]

theorem buildEmissionEpoch_spec {potWei : Int}
    {consumedBatchIds : List String}
    (h : buildEmissionEpoch codec lower epochId batches potWei consumedBatchIds windowStart
      windowEnd = some plan) :
    plan.epochId = epochId ∧ plan.potWei = potWei ∧ PlanSpec codec plan := by
  obtain ⟨scan, hScan, h⟩ := Option.bind_eq_some_iff.mp h
  obtain ⟨-, -, h⟩ := Option.bind_eq_some_iff.mp h
  obtain ⟨allocation, hAllocation, h⟩ := Option.bind_eq_some_iff.mp h
  obtain ⟨_, hGuard, h⟩ := Option.bind_eq_some_iff.mp h
  have hSome : allocation ≠ [] := guard_eq_some_iff.mp hGuard
  cases h
  have hPot : 0 ≤ potWei := by
    by_contra hNegative
    rw [allocateProRata, if_pos (by omega)] at hAllocation
    cases hAllocation
  obtain ⟨_, hSame, hKeys, hPositive, hSum⟩ := allocateProRata_spec scan.contribution hPot
  obtain rfl := Option.some.inj (hAllocation.symm.trans hSame)
  have hChecksummed : scan.contribution.All fun account _ => Checksummed codec account :=
    foldlM_invariant (fun scan : Scan => scan.contribution.All fun account _ =>
      Checksummed codec account) (fun _ _ _ hScan h => (scanBatch_move h).checksummed hScan)
      (Dict.all_empty _) hScan
  have hPerm := List.perm_insertionSort
    (fun a b : String × Nat => accountNumber codec a.1 ≤ accountNumber codec b.1) allocation
  refine ⟨rfl, rfl, ?_, ?_, ?_, ?_, ?_⟩
  · intro hNil
    have hSorted := List.map_eq_nil_iff.mp hNil
    exact hSome (List.perm_nil.mp (hSorted ▸ hPerm.symm))
  · intro e he
    obtain ⟨entry, hEntry, rfl⟩ := List.mem_map.mp he
    have hKey := hKeys.subset (List.mem_map_of_mem (f := Prod.fst) (mem_sortBy.mp hEntry))
    obtain ⟨source, hSource, hEq⟩ := List.mem_map.mp hKey
    show Checksummed codec entry.1
    rw [← hEq]
    exact Dict.all_iff.mp hChecksummed _ hSource
  · rw [List.map_map]
    exact ((hPerm.map Prod.fst).nodup_iff).mpr (scan.contribution.nodup.sublist hKeys)
  · intro e he
    obtain ⟨entry, hEntry, rfl⟩ := List.mem_map.mp he
    exact Int.natCast_pos.mpr (hPositive entry (mem_sortBy.mp hEntry))
  · rw [← hSum hSome, ← sum_natCast_weights, List.map_map]
    exact (hPerm.map fun entry : String × Nat => (entry.2 : Int)).sum_eq

/-! ## What a built epoch contains -/

/-- One row of the tree: an address and the amount it earned. -/
abbrev Row := Address × Uint 256

/-- The entry that a row stands for. -/
def entryOf (codec : AddressCodec) (row : Row) : RewardEntry :=
  ⟨codec.checksum row.1, row.2.val⟩

/-- The epoch is the tree over the rows, in the encoding of the pool. -/
structure Built (codec : AddressCodec) (keccak256 : Keccak) (epoch : RewardEpoch)
    (id : Uint 256) (rows : List Row) : Prop where
  epochId_eq : epoch.epochId = id.val
  entries_eq : epoch.entries = rows.map (entryOf codec)
  nodup : (rows.map Prod.fst).Nodup
  positive : ∀ row ∈ rows, row.2 ≠ 0
  total_eq : epoch.totalAmountWei = ((rows.map fun row => row.2.val).sum : Nat)
  leafHashes_eq : epoch.leafHashes = rows.map fun row =>
    RewardPool.leafHash keccak256 id row.1 row.2.val
  root_eq : buildMerkleRoot keccak256 epoch.leafHashes = some epoch.merkleRoot
  proof_valid : ∀ account proof, (account, proof) ∈ epoch.proofs → ∃ row ∈ rows,
    account = codec.checksum row.1 ∧ MerkleProof.verify keccak256 proof epoch.merkleRoot
      (RewardPool.leafHash keccak256 id row.1 row.2.val) = true
  proof_exists : ∀ row ∈ rows, ∃ proof, (codec.checksum row.1, proof) ∈ epoch.proofs

theorem normalizeEntries_spec {seen : List String} {normalized : List RewardEntry}
    (h : normalizeEntries codec seen entries = some normalized) :
    (∀ e ∈ normalized, (∃ row : Row, e = entryOf codec row ∧ row.2 ≠ 0) ∧ e.account ∉ seen) ∧
      (normalized.map RewardEntry.account).Nodup := by
  induction entries generalizing seen normalized with
  | nil =>
      cases h
      exact ⟨by simp, List.nodup_nil⟩
  | cons e rest ih =>
      obtain ⟨acct, hAcct, h⟩ := Option.bind_eq_some_iff.mp h
      obtain ⟨_, hPos, h⟩ := Option.bind_eq_some_iff.mp h
      obtain ⟨_, hLt, h⟩ := Option.bind_eq_some_iff.mp h
      obtain ⟨_, hFresh, h⟩ := Option.bind_eq_some_iff.mp h
      obtain ⟨tail, hTail, h⟩ := Option.bind_eq_some_iff.mp h
      cases h
      obtain ⟨hRest, hNodup⟩ := ih hTail
      have hPos : 0 < e.amountWei := guard_eq_some_iff.mp hPos
      have hLt : e.amountWei < 2 ^ 256 := guard_eq_some_iff.mp hLt
      obtain ⟨address, rfl⟩ := checksummed_of_toChecksumAddress hAcct
      refine ⟨?_, ?_⟩
      · intro x hx
        rcases List.mem_cons.mp hx with rfl | hx
        · have hNat : e.amountWei.toNat < 2 ^ 256 := by
            have hCast : ((e.amountWei.toNat : Nat) : Int) < ((2 ^ 256 : Nat) : Int) := by
              rw [Int.toNat_of_nonneg hPos.le]
              exact_mod_cast hLt
            exact_mod_cast hCast
          refine ⟨⟨(address, ⟨e.amountWei.toNat, hNat⟩), ?_, ?_⟩, guard_eq_some_iff.mp hFresh⟩
          · exact congrArg (RewardEntry.mk _) (Int.toNat_of_nonneg hPos.le).symm
          · intro hZero
            have hVal : e.amountWei.toNat = 0 := congrArg Fin.val hZero
            omega
        · exact ⟨(hRest x hx).1, fun hMem => (hRest x hx).2 (List.mem_cons_of_mem _ hMem)⟩
      · refine List.nodup_cons.mpr ⟨?_, hNodup⟩
        intro hMem
        obtain ⟨x, hx, hEq⟩ := List.mem_map.mp hMem
        exact (hRest x hx).2 (List.mem_cons.mpr (Or.inl hEq))

theorem rewardLeafHash_entryOf {leaf : Bytes32} {row : Row}
    (h : rewardLeafHash codec keccak256 epochId (codec.checksum row.1) (row.2.val : Int)
      = some leaf) :
    ∃ id : Uint 256, epochId = id.val ∧
      leaf = RewardPool.leafHash keccak256 id row.1 row.2.val := by
  obtain ⟨_, hId, h⟩ := Option.bind_eq_some_iff.mp h
  obtain ⟨_, -, h⟩ := Option.bind_eq_some_iff.mp h
  obtain ⟨address, hAddress, h⟩ := Option.bind_eq_some_iff.mp h
  obtain ⟨hNonneg, hLt⟩ : 0 ≤ epochId ∧ epochId < 2 ^ 256 := guard_eq_some_iff.mp hId
  obtain rfl : row.1 = address := Option.some.inj ((codec.parse_checksum row.1).symm.trans hAddress)
  have hNat : epochId.toNat < 2 ^ 256 := by
    have hCast : ((epochId.toNat : Nat) : Int) < ((2 ^ 256 : Nat) : Int) := by
      rw [Int.toNat_of_nonneg hNonneg]
      exact_mod_cast hLt
    exact_mod_cast hCast
  refine ⟨⟨epochId.toNat, hNat⟩, (Int.toNat_of_nonneg hNonneg).symm, ?_⟩
  cases h
  rfl

theorem buildRewardEpoch_built
    (h : buildRewardEpoch codec keccak256 epochId entries = some epoch) :
    ∃ id rows, Built codec keccak256 epoch id rows := by
  obtain ⟨_, -, h⟩ := Option.bind_eq_some_iff.mp h
  obtain ⟨normalized, hNormalized, h⟩ := Option.bind_eq_some_iff.mp h
  obtain ⟨leaves, hLeaves, h⟩ := Option.bind_eq_some_iff.mp h
  obtain ⟨root, hRoot, h⟩ := Option.bind_eq_some_iff.mp h
  obtain ⟨proofs, hProofs, h⟩ := Option.bind_eq_some_iff.mp h
  obtain ⟨hRows, hNodup⟩ := normalizeEntries_spec hNormalized
  obtain ⟨rows, hSorted, hPositive⟩ : ∃ rows : List Row,
      sortBy (fun e => accountNumber codec e.account) normalized = rows.map (entryOf codec) ∧
        ∀ row ∈ rows, row.2 ≠ 0 :=
    exists_eq_map fun e he => (hRows e (mem_sortBy.mp he)).1
  have hPerm : (rows.map (entryOf codec)).Perm normalized :=
    hSorted ▸ List.perm_insertionSort _ normalized
  simp only [hSorted] at hLeaves hProofs h
  -- all rows agree on the epoch's number
  obtain ⟨id, hId⟩ : ∃ id : Uint 256, epochId = id.val := by
    have hSome : leaves ≠ [] := (buildMerkleRoot_isSome_iff leaves).mp (by rw [hRoot]; rfl)
    obtain ⟨leaf, hLeaf⟩ := List.exists_mem_of_ne_nil leaves hSome
    obtain ⟨e, he, hHash⟩ := (mem_mapM_iff hLeaves).mp hLeaf
    obtain ⟨row, -, rfl⟩ := List.mem_map.mp he
    obtain ⟨id, hId, -⟩ := rewardLeafHash_entryOf hHash
    exact ⟨id, hId⟩
  have hHashes : leaves = rows.map fun row =>
      RewardPool.leafHash keccak256 id row.1 row.2.val := by
    have hEach : ∀ e ∈ rows.map (entryOf codec), ∃ leaf ∈ leaves,
        rewardLeafHash codec keccak256 epochId e.account e.amountWei = some leaf :=
      fun e he => exists_of_mapM hLeaves he
    rw [List.mapM_map] at hLeaves
    refine Option.some.inj (hLeaves.symm.trans (mapM_eq_some_map fun row hRow => ?_))
    obtain ⟨leaf, -, hLeaf⟩ := hEach _ (List.mem_map_of_mem hRow)
    obtain ⟨id', hId', rfl⟩ := rewardLeafHash_entryOf hLeaf
    have hSame : id' = id := Fin.ext (Int.ofNat_inj.mp (hId'.symm.trans hId))
    rw [← hSame]
    exact hLeaf
  have hAt : ∀ e i, (e, i) ∈ (rows.map (entryOf codec)).zipIdx → ∃ row ∈ rows,
      e = entryOf codec row ∧ ∃ proof, buildMerkleProof keccak256 leaves i = some proof ∧
        MerkleProof.verify keccak256 proof root
          (RewardPool.leafHash keccak256 id row.1 row.2.val) = true := by
    intro e i hMem
    have hGet := List.mem_zipIdx_iff_getElem?.mp hMem
    rw [List.getElem?_map, Option.map_eq_some_iff] at hGet
    obtain ⟨row, hRow, rfl⟩ := hGet
    have hLeaf : leaves[i]? = some (RewardPool.leafHash keccak256 id row.1 row.2.val) := by
      rw [hHashes, List.getElem?_map, hRow]
      rfl
    obtain ⟨proof, hProof, -, hVerify⟩ := verify_buildMerkleProof hLeaf hRoot
    exact ⟨row, List.mem_of_getElem? hRow, rfl, proof, hProof, hVerify⟩
  cases h
  refine ⟨id, rows, hId, rfl, ?_, hPositive, ?_, hHashes, hRoot, ?_, ?_⟩
  · have hAccounts : ((rows.map Prod.fst).map codec.checksum).Nodup := by
      rw [List.map_map]
      have hEntries : (rows.map (entryOf codec)).map RewardEntry.account =
          rows.map (codec.checksum ∘ Prod.fst) := by
        rw [List.map_map]
        rfl
      rw [← hEntries]
      exact ((hPerm.map RewardEntry.account).nodup_iff).mpr hNodup
    exact hAccounts.of_map _
  · show ((rows.map (entryOf codec)).map RewardEntry.amountWei).sum = _
    rw [List.map_map, Nat.cast_list_sum, List.map_map]
    rfl
  · intro account proof hMem
    obtain ⟨⟨e, i⟩, hIdx, hEq⟩ := (mem_mapM_iff hProofs).mp hMem
    obtain ⟨row, hRow, rfl, proof', hProof', hVerify⟩ := hAt e i hIdx
    rw [hProof', Option.map_some, Option.some.injEq, Prod.mk.injEq] at hEq
    obtain ⟨rfl, rfl⟩ := hEq
    exact ⟨row, hRow, rfl, hVerify⟩
  · intro row hRow
    obtain ⟨i, hi⟩ := List.mem_iff_getElem?.mp hRow
    have hIdx : (entryOf codec row, i) ∈ (rows.map (entryOf codec)).zipIdx := by
      rw [List.mem_zipIdx_iff_getElem?, List.getElem?_map, hi]
      rfl
    obtain ⟨⟨account, proof⟩, hMem, hEq⟩ := exists_of_mapM hProofs hIdx
    obtain ⟨proof', -, hPair⟩ := Option.map_eq_some_iff.mp hEq
    obtain ⟨rfl, rfl⟩ := Prod.mk.inj hPair
    exact ⟨_, hMem⟩

theorem normalizeEntries_amounts {seen : List String} {normalized : List RewardEntry}
    (h : normalizeEntries codec seen entries = some normalized) :
    normalized.map RewardEntry.amountWei = entries.map RewardEntry.amountWei := by
  induction entries generalizing seen normalized with
  | nil =>
      cases h
      rfl
  | cons e rest ih =>
      obtain ⟨acct, -, h⟩ := Option.bind_eq_some_iff.mp h
      obtain ⟨_, -, h⟩ := Option.bind_eq_some_iff.mp h
      obtain ⟨_, -, h⟩ := Option.bind_eq_some_iff.mp h
      obtain ⟨_, -, h⟩ := Option.bind_eq_some_iff.mp h
      obtain ⟨tail, hTail, h⟩ := Option.bind_eq_some_iff.mp h
      cases h
      exact congrArg (e.amountWei :: ·) (ih hTail)

theorem buildRewardEpoch_total
    (h : buildRewardEpoch codec keccak256 epochId entries = some epoch) :
    epoch.totalAmountWei = (entries.map RewardEntry.amountWei).sum := by
  obtain ⟨_, -, h⟩ := Option.bind_eq_some_iff.mp h
  obtain ⟨normalized, hNormalized, h⟩ := Option.bind_eq_some_iff.mp h
  obtain ⟨leaves, -, h⟩ := Option.bind_eq_some_iff.mp h
  obtain ⟨root, -, h⟩ := Option.bind_eq_some_iff.mp h
  obtain ⟨proofs, -, h⟩ := Option.bind_eq_some_iff.mp h
  cases h
  rw [← normalizeEntries_amounts hNormalized]
  exact ((List.perm_insertionSort _ normalized).map RewardEntry.amountWei).sum_eq

theorem planToRewardEpoch_total
    (hPlan : PlanSpec codec plan) (h : planToRewardEpoch codec keccak256 plan = some epoch) :
    epoch.totalAmountWei = plan.potWei :=
  (buildRewardEpoch_total h).trans hPlan.sum_eq

end Plans

end Prsm.Epochs
