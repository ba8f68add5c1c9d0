import Prsm.PerStage.Authorization
import Prsm.PerStage.Split

/-!
# Routing per-stage settlement tasks

The orchestrator turns a split into one task for each node and derives from the
tasks the payee set that every node checks its own share against.  The
requester signs the commitment to the set that `buildPerStagePayeeSet` computes;
`split_matches_payee_set` says that it is the set of the tasks, and that it has
a commitment unless two nodes are paid to one wallet.
-/

namespace Prsm.PerStage

open Foundations Foundations.Apportionment Evm Settlement PaymentAuth

/-- The routed authorization: an object with a payload and a signature. -/
structure RoutedAuthorization where
  payload : Option PerStagePayload
  signature : Option HexField
  deriving DecidableEq

structure PerStageSettlementTask where
  nodeId : String
  shareWei : Int
  batchedReceipt : BatchedReceipt
  paymentAuthorization : Option RoutedAuthorization
  deriving DecidableEq

/-- The task of one node of a split. -/
def settlementTask (perStageAuthorization : Option RoutedAuthorization) (s : StageSettlementShare) :
    PerStageSettlementTask where
  nodeId := s.nodeId
  shareWei := s.shareWei
  batchedReceipt := s.batchedReceipt
  paymentAuthorization := perStageAuthorization

def buildPerStageSettlementTasks (lib : AddressLibrary) (sha256 : Bytes → Bytes)
    (receipt : InferenceReceipt) (totalValueWei : Int) (requesterAddress : String)
    (perStageAuthorization : Option RoutedAuthorization) (walletMap : Option WalletMap)
    (tierSlashRateBps : Int) (consensusGroupId : Bytes32) :
    Except SplitError (Option (List PerStageSettlementTask)) :=
  match receipt.perStageSettlementSignatures with
  | none => .ok none
  | some nodeSignatures =>
      if nodeSignatures.entries = [] then .ok none
      else do
        let shares ← splitReceiptToPerNodeBatchedReceipts lib sha256 receipt totalValueWei
          nodeSignatures requesterAddress walletMap tierSlashRateBps consensusGroupId
        .ok (shares.map fun shares => shares.map (settlementTask perStageAuthorization))

def payeeSetFromTasks (tasks : List PerStageSettlementTask) : List (String × Int) :=
  tasks.map fun t => (t.batchedReceipt.providerAddress, t.shareWei)

def verifyRoutedSettlementTask (v : Verifier) (task : PerStageSettlementTask)
    (payees : List (String × Int)) (nowUnix : Int) : Except RecoverError Verdict :=
  match task.paymentAuthorization with
  | some { payload := some payload, signature := some signature } =>
      if task.batchedReceipt.valueFtns ≠ task.shareWei then
        .ok (.settledValueMismatch task.batchedReceipt.valueFtns task.shareWei)
      else
        match verifyPerStageAuthorization v payload signature payees
          task.batchedReceipt.providerAddress task.shareWei nowUnix with
        | .error .invalidSignatureFormat => .ok .malformedSignature
        | outcome => outcome
  | _ => .ok .noAuthorization

/-! ## The split and the payee set -/

/-- The address of the wallet of a node. -/
def walletAddress (lib : AddressLibrary) (walletMap : WalletMap) (nodeId : String) :
    Option Address :=
  (resolveNodeEthPayee lib (some walletMap) nodeId).bind lib.parse

theorem isAddress_of_resolve {lib : AddressLibrary} {walletMap : Option WalletMap}
    {nodeId payee : String} (h : resolveNodeEthPayee lib walletMap nodeId = some payee) :
    lib.isAddress payee = true := by
  obtain ⟨resolve, -, h⟩ := Option.bind_eq_some_iff.mp h
  obtain ⟨resolved, -, h⟩ := Option.bind_eq_some_iff.mp h
  obtain ⟨_, -, h⟩ := Option.bind_eq_some_iff.mp h
  obtain ⟨_, hAddress, h⟩ := Option.bind_eq_some_iff.mp h
  cases h
  exact guard_eq_some_iff.mp hAddress

theorem sharesOf_bounds {total : Nat} {distinct : List (String × Int)}
    (hTotal : distinct.length ≤ total) {share : Int} (h : share ∈ sharesOf total distinct) :
    0 < share ∧ (total / distinct.length : Nat) ≤ share ∧
      share ≤ (total / distinct.length : Nat) + 1 := by
  obtain ⟨n, hn, rfl⟩ := List.mem_map.mp h
  obtain ⟨hLow, hHigh⟩ := equalShares_bounds hn
  have hLength : 0 < distinct.length := by
    rw [← length_equalShares total distinct.length]
    exact List.length_pos_of_mem hn
  have hBase : 0 < total / distinct.length := Nat.div_pos hTotal hLength
  norm_cast
  omega

theorem commitment_iff {lib : AddressLibrary} (keccak256 : Keccak) {total : Nat}
    {walletMap : WalletMap} {distinct : List (String × Int)} {payees : List String}
    (hSome : distinct ≠ []) (hTotal : distinct.length ≤ total ∧ total < 2 ^ 128)
    (hNodup : (distinct.map Prod.fst).Nodup)
    (hPayees : (distinct.map Prod.fst).mapM (resolveNodeEthPayee lib (some walletMap)) =
      some payees) :
    (∃ digest, computePayeeSetHash lib keccak256 (payees.zip (sharesOf total distinct)) =
        .ok digest) ↔
      ∀ a ∈ distinct.map Prod.fst, ∀ b ∈ distinct.map Prod.fst,
        walletAddress lib walletMap a = walletAddress lib walletMap b → a = b := by
  have hLength : payees.length = distinct.length := by
    rw [length_of_mapM hPayees, List.length_map]
  have hValid : ∀ p ∈ payees.zip (sharesOf total distinct), lib.isAddress p.1 = true := by
    intro p hp
    obtain ⟨nodeId, -, hResolve⟩ := (mem_mapM_iff hPayees).mp (List.of_mem_zip hp).1
    exact isAddress_of_resolve hResolve
  have hRange : ∀ p ∈ payees.zip (sharesOf total distinct), 0 ≤ p.2 ∧ p.2 ≤ 2 ^ 256 - 1 := by
    intro p hp
    obtain ⟨hPos, -, hHigh⟩ := sharesOf_bounds hTotal.1 (List.of_mem_zip hp).2
    have hBase : total / distinct.length ≤ total := Nat.div_le_self _ _
    omega
  have hNonempty : payees.zip (sharesOf total distinct) ≠ [] := by
    rw [← List.length_pos_iff_ne_nil, List.length_zip, hLength, length_sharesOf, Nat.min_self]
    exact List.length_pos_of_ne_nil hSome
  have hParsed : (payees.zip (sharesOf total distinct)).map (fun p => lib.parse p.1) =
      (distinct.map Prod.fst).map (walletAddress lib walletMap) := by
    have hFirst : (payees.zip (sharesOf total distinct)).map Prod.fst = payees :=
      List.map_fst_zip (by simp [hLength])
    have hBoth := congrArg (List.map fun payee => Option.bind payee lib.parse)
      (mapM_eq_some_iff.mp hPayees)
    have hSplit : (payees.zip (sharesOf total distinct)).map (fun p => lib.parse p.1) =
        ((payees.zip (sharesOf total distinct)).map Prod.fst).map lib.parse := by
      rw [List.map_map]
      rfl
    rw [hSplit, hFirst]
    simp only [List.map_map] at hBoth ⊢
    exact hBoth.symm
  rw [computePayeeSetHash_ok_iff keccak256 hNonempty hValid hRange, hParsed,
    List.nodup_map_iff_inj_on hNodup]

/-- The requester signs the set that the tasks carry, and the set has a
commitment exactly when no two nodes are paid to one wallet. -/
theorem split_matches_payee_set (lib : AddressLibrary) (sha256 : Bytes → Bytes)
    (keccak256 : Keccak) (receipt : InferenceReceipt) (positions : Positions)
    (nodeSignatures : Dict String NodeSignatureMaterial) (total : Nat) (requesterAddress : String)
    (auth : Option RoutedAuthorization) (walletMap : WalletMap) (tierSlashRateBps : Int)
    (consensusGroupId : Bytes32)
    (hTopology : receipt.topologyAssignment = some positions)
    (hTwo : 2 ≤ (nodeNames positions).card)
    (hTotal : (nodeNames positions).card ≤ total ∧ total < 2 ^ 128)
    (hSignatures : receipt.perStageSettlementSignatures = some nodeSignatures)
    (hBound : ∀ nodeId ∈ nodeNames positions, materialBound sha256 nodeSignatures nodeId = true)
    (hWallets : ∀ nodeId ∈ nodeNames positions,
      (resolveNodeEthPayee lib (some walletMap) nodeId).isSome)
    (hRequest : receipt.requestId ≠ "")
    (hTier : 0 ≤ tierSlashRateBps ∧ tierSlashRateBps ≤ 10000) :
    ∃ payees tasks,
      buildPerStagePayeeSet lib receipt total (some walletMap) = .ok (some payees) ∧
      buildPerStageSettlementTasks lib sha256 receipt total requesterAddress auth (some walletMap)
        tierSlashRateBps consensusGroupId = .ok (some tasks) ∧
      payees = payeeSetFromTasks tasks ∧
      (payees.map Prod.snd).sum = total ∧
      (∀ p ∈ payees, 0 < p.2 ∧ ∀ q ∈ payees, p.2 ≤ q.2 + 1) ∧
      ((∃ digest, computePayeeSetHash lib keccak256 payees = .ok digest) ↔
        Set.InjOn (walletAddress lib walletMap) (nodeNames positions)) := by
  obtain ⟨distinct, hDistinct, hNodup, hNames⟩ := distinctNodeIdsWithStage_spec hTwo
  have hMem : ∀ {nodeId}, nodeId ∈ distinct.map Prod.fst ↔ nodeId ∈ nodeNames positions := by
    intro nodeId
    rw [← hNames, List.mem_toFinset]
  have hCard : (nodeNames positions).card = distinct.length := by
    rw [← hNames, List.toFinset_card_of_nodup hNodup, List.length_map]
  rw [hCard] at hTwo hTotal
  have hSome : distinct ≠ [] := by
    rintro rfl
    exact absurd hTwo (by decide)
  rw [← hTopology] at hDistinct
  obtain ⟨payees, hPayees⟩ : ∃ payees,
      (distinct.map Prod.fst).mapM (resolveNodeEthPayee lib (some walletMap)) = some payees := by
    refine ⟨_, mapM_eq_some_map (g := fun nodeId =>
      (resolveNodeEthPayee lib (some walletMap) nodeId).getD "") fun nodeId hNode => ?_⟩
    obtain ⟨payee, hPayee⟩ := Option.isSome_iff_exists.mp (hWallets nodeId (hMem.mp hNode))
    rw [hPayee]
    rfl
  have hLength : payees.length = distinct.length := by
    rw [length_of_mapM hPayees, List.length_map]
  obtain ⟨out, hOut, hAddresses, hShares⟩ := splitReceipt_eq requesterAddress consensusGroupId
    hTotal.2 hSome hNodup hDistinct (fun nodeId hNode => hBound nodeId (hMem.mp hNode)) hRequest
    hPayees hTier
  have hSigned : nodeSignatures.entries ≠ [] := by
    obtain ⟨first, hFirst⟩ := List.exists_mem_of_ne_nil _ (List.map_eq_nil_iff.not.mpr hSome)
    obtain ⟨mat, hMat⟩ := exists_material (hBound first (hMem.mp hFirst))
    exact List.ne_nil_of_mem (Dict.mem_entries_iff.mpr (item_eq_ok_iff.mp hMat))
  refine ⟨payees.zip (sharesOf total distinct), out.map (settlementTask auth),
    buildPerStagePayeeSet_eq hTotal.2 hSome hNodup hDistinct hPayees, ?_, ?_, ?_, ?_, ?_⟩
  · rw [buildPerStageSettlementTasks, hSignatures]
    simp only [hSigned, if_false, hOut, ok_bind, Option.map_some]
  · rw [payeeSetFromTasks, List.map_map, ← hAddresses, ← hShares, List.zip_map']
    rfl
  · rw [List.map_snd_zip (by simp [hLength]), sum_sharesOf hSome]
  · intro p hp
    obtain ⟨hPos, -, hHigh⟩ := sharesOf_bounds hTotal.1 (List.of_mem_zip hp).2
    refine ⟨hPos, fun q hq => ?_⟩
    obtain ⟨-, hLow, -⟩ := sharesOf_bounds hTotal.1 (List.of_mem_zip hq).2
    omega
  · rw [commitment_iff keccak256 hSome hTotal hNodup hPayees]
    constructor
    · exact fun h a ha b hb => h a (hMem.mpr ha) b (hMem.mpr hb)
    · exact fun h a ha b hb => h (hMem.mp ha) (hMem.mp hb)

/-! ## Two nodes -/

def firstNode : String := "6e340b9cffb37a989ca544e6bb780a2c"

def secondNode : String := "4bf5122f344554c53bde2ebb8cd2b7e3"

def twoNodesSha256 (bytes : Bytes) : Bytes :=
  let digest :=
    if bytes = [0] then "6e340b9cffb37a989ca544e6bb780a2c78901d3fb33738768511a30617afa01d"
    else "4bf5122f344554c53bde2ebb8cd2b7e3d1600ad631c385a5d7cce23c7785459a"
  (fromhex digest).getD []

def twoPositions : Positions := ⟨[((1, 0), secondNode), ((0, 0), firstNode)], by decide⟩

def nodeMaterial (pubkeyB64 : String) (stageIndex : Int) : NodeSignatureMaterial where
  pubkeyB64 := pubkeyB64
  signature := "c2ln"
  stageIndex := stageIndex
  outputHash := "00"
  executedAtUnix := 1000
  teeAttestation := none

def twoSignatures : Dict String NodeSignatureMaterial :=
  Dict.ofEntries [(firstNode, nodeMaterial "AA==" 0), (secondNode, nodeMaterial "AQ==" 1)]

def twoNodes : InferenceReceipt where
  requestId := "infer-1"
  topologyAssignment := some twoPositions
  perStageSettlementSignatures := some twoSignatures

def twoWallets (first second : Address) : WalletMap :=
  computeWalletMap
    (Dict.ofEntries [(firstNode, hexAddress first), (secondNode, hexAddress second)])

/-- The hash of the payee set of `twoNodes`: 3 to account 5 and 2 to account 6. -/
def twoNodesKeccak : Keccak :=
  fun _ => 0x109fd8d7b87321ab7a96086a07d0ed4d07303e37953f11e15cbc5d3619ef0c75

theorem split_matches_payee_set_twoNodes :
    ∃ payees tasks,
      buildPerStagePayeeSet hexLibrary twoNodes 5 (some (twoWallets 5 6)) = .ok (some payees) ∧
      buildPerStageSettlementTasks hexLibrary twoNodesSha256 twoNodes 5 (hexAddress 9) none
        (some (twoWallets 5 6)) 0 0 = .ok (some tasks) ∧
      payees = payeeSetFromTasks tasks ∧
      (payees.map Prod.snd).sum = 5 ∧
      (∀ p ∈ payees, 0 < p.2 ∧ ∀ q ∈ payees, p.2 ≤ q.2 + 1) ∧
      ((∃ digest, computePayeeSetHash hexLibrary twoNodesKeccak payees = .ok digest) ↔
        Set.InjOn (walletAddress hexLibrary (twoWallets 5 6)) (nodeNames twoPositions)) :=
  split_matches_payee_set hexLibrary twoNodesSha256 twoNodesKeccak twoNodes twoPositions
    twoSignatures 5 (hexAddress 9) none (twoWallets 5 6) 0 0 rfl (by decide +kernel)
    (by decide +kernel) rfl (by decide +kernel) (by decide +kernel) (by decide +kernel) (by decide)

/-- Two nodes paid to one wallet have a payee set without a commitment.  A
receipt without a request id is not split, and a slash rate over 100% raises. -/
theorem split_without_commitment_sharedWallet :
    2 ≤ (nodeNames twoPositions).card ∧
    (∀ nodeId ∈ nodeNames twoPositions, materialBound twoNodesSha256 twoSignatures nodeId = true ∧
      (resolveNodeEthPayee hexLibrary (some (twoWallets 5 5)) nodeId).isSome) ∧
    buildPerStagePayeeSet hexLibrary twoNodes 5 (some (twoWallets 5 5)) =
      .ok (some [(hexAddress 5, 3), (hexAddress 5, 2)]) ∧
    computePayeeSetHash hexLibrary twoNodesKeccak [(hexAddress 5, 3), (hexAddress 5, 2)] =
      .error (.duplicatePayee (hexAddress 5)) ∧
    buildPerStageSettlementTasks hexLibrary twoNodesSha256 { twoNodes with requestId := "" } 5
      (hexAddress 9) none (some (twoWallets 5 6)) 0 0 = .ok none ∧
    buildPerStageSettlementTasks hexLibrary twoNodesSha256 twoNodes 5 (hexAddress 9) none
      (some (twoWallets 5 6)) 10001 0 = .error (.tierSlashRateBps 10001) := by
  refine ⟨?_, ?_, ?_, ?_, ?_, ?_⟩ <;> decide +kernel

end Prsm.PerStage
