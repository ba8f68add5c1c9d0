import Mathlib.Data.Prod.Lex
import Prsm.Foundations.Apportionment
import Prsm.Foundations.Dict
import Prsm.Foundations.Lists
import Prsm.Foundations.StableSort
import Prsm.Settlement.AddressText

/-!
# Splitting a multi-stage settlement over its nodes

`split_receipt_to_per_node_batched_receipts` gives every node of a topology its
share of the settled total, with the node's own signature on the leaf.
`build_per_stage_payee_set` computes the wallets and shares that the requester
signs.  The two walk the topology separately; they agree because both are a map
over the same `distinct` nodes.

A function that raises returns `Except`; one that declines returns `none`.
-/

namespace Prsm.PerStage

open Foundations Foundations.Apportionment Evm Settlement

structure NodeSignatureMaterial where
  pubkeyB64 : String
  signature : String
  stageIndex : Int
  outputHash : String
  executedAtUnix : Int
  teeAttestation : Option String

/-- The `positions` of a `TopologyAssignment`. -/
abbrev Positions := Dict (Int × Int) String

/-- The fields of an `InferenceReceipt` that the split reads. -/
structure InferenceReceipt where
  requestId : String
  topologyAssignment : Option Positions
  perStageSettlementSignatures : Option (Dict String NodeSignatureMaterial)

structure StageSettlementShare where
  nodeId : String
  shareWei : Int
  batchedReceipt : BatchedReceipt

/-- `ComputeWalletMap.resolve`, or that of another object; `none` where it
raises or returns something other than a string. -/
abbrev WalletMap := String → Option String

def computeWalletMap (mapping : Dict String String) : WalletMap :=
  fun recipientId => some ((mapping.get? recipientId).getD recipientId)

/-- What the split raises. -/
inductive SplitError
  | totalNegative (totalValueWei : Int)
  | totalOutOfRange (totalValueWei : Int)
  | noNodeIds
  | conservation
  | tierSlashRateBps (tierSlashRateBps : Int)
  | keyError (key : String)
  deriving DecidableEq

/-- `d[key]`. -/
def item {α : Type} (d : Dict String α) (key : String) : Except SplitError α :=
  match d.get? key with
  | none => .error (.keyError key)
  | some value => .ok value

/-! ## The nodes and their shares -/

/-- The walk over the sorted positions, with the nodes `seen` so far. -/
def distinctFrom (seen : List String) : List ((Int × Int) × String) → List (String × Int)
  | [] => []
  | (key, nodeId) :: rest =>
      if nodeId = "" ∨ nodeId ∈ seen then distinctFrom seen rest
      else (nodeId, key.1) :: distinctFrom (nodeId :: seen) rest

def distinctNodeIdsWithStage (topology : Option Positions) : Option (List (String × Int)) :=
  match topology with
  | none => none
  | some positions =>
      let distinct := distinctFrom [] (sortBy (fun entry => toLex entry.1) positions.entries)
      if distinct.length < 2 then none else some distinct

def computePerStageShares (totalValueWei : Int) (nodeIds : List String) :
    Except SplitError (List (String × Int)) :=
  if totalValueWei < 0 then .error (.totalNegative totalValueWei)
  else if 2 ^ 128 - 1 < totalValueWei then .error (.totalOutOfRange totalValueWei)
  else if nodeIds = [] then .error .noNodeIds
  else
    let base := totalValueWei / nodeIds.length
    let remainder := totalValueWei % nodeIds.length
    let shares := nodeIds.zipIdx.map fun (nodeId, i) =>
      (nodeId, base + if (i : Int) < remainder then 1 else 0)
    if (shares.map Prod.snd).sum = totalValueWei then .ok shares else .error .conservation

def resolveNodeEthPayee (lib : AddressLibrary) (walletMap : Option WalletMap) (nodeId : String) :
    Option String := do
  let resolve ← walletMap
  let resolved ← resolve nodeId
  guard (resolved ≠ nodeId)
  guard (lib.isAddress resolved = true)
  some resolved

def buildPerStagePayeeSet (lib : AddressLibrary) (receipt : InferenceReceipt)
    (totalValueWei : Int) (walletMap : Option WalletMap) :
    Except SplitError (Option (List (String × Int))) :=
  match distinctNodeIdsWithStage receipt.topologyAssignment with
  | none => .ok none
  | some distinct => do
      let shares ← computePerStageShares totalValueWei (distinct.map Prod.fst)
      match (distinct.map Prod.fst).mapM (resolveNodeEthPayee lib walletMap) with
      | none => .ok none
      | some payees => do
          let shareWei ← (distinct.map Prod.fst).mapM (item (Dict.ofEntries shares))
          .ok (some (payees.zip shareWei))

/-- The checks on one node's signature material: it is there, it is complete,
and the public key hashes to the node's id. -/
def materialBound (sha256 : Bytes → Bytes) (nodeSignatures : Dict String NodeSignatureMaterial)
    (nodeId : String) : Bool :=
  match nodeSignatures.get? nodeId with
  | none => false
  | some mat =>
      if mat.pubkeyB64 = "" ∨ mat.signature = "" then false
      else
        match b64decode mat.pubkeyB64 with
        | none => false
        | some pubBytes => String.ofList ((hexChars (sha256 pubBytes)).take 32) = nodeId

/-- `per_stage_leaf_job_id` of a request id that is not empty. -/
def perStageLeafJobId (requestId : String) : String := "parallax-job-" ++ requestId

/-- The constructor of `BatchedReceipt`, which checks the slash rate.  A group
id has 32 bytes by its type. -/
def newBatchedReceipt (br : BatchedReceipt) : Except SplitError BatchedReceipt :=
  if 0 ≤ br.tierSlashRateBps ∧ br.tierSlashRateBps ≤ 10000 then .ok br
  else .error (.tierSlashRateBps br.tierSlashRateBps)

/-- `payee_by_node`: the wallet of each node, or the requester as a placeholder
where there is no wallet map. -/
def payeeByNode (lib : AddressLibrary) (requesterAddress : String) (walletMap : Option WalletMap)
    (nodeIds : List String) : Option (Dict String String) :=
  match walletMap with
  | none => some (Dict.ofEntries (nodeIds.map fun nodeId => (nodeId, requesterAddress)))
  | some _ =>
      (nodeIds.mapM (resolveNodeEthPayee lib walletMap)).map fun payees =>
        Dict.ofEntries (nodeIds.zip payees)

/-- What the rounds of the splitter's loop share. -/
structure SplitContext where
  jobId : String
  requesterAddress : String
  tierSlashRateBps : Int
  consensusGroupId : Bytes32
  nodeSignatures : Dict String NodeSignatureMaterial
  shareByNode : Dict String Int
  payeeByNode : Dict String String

def splitContext (receipt : InferenceReceipt) (requesterAddress : String) (tierSlashRateBps : Int)
    (consensusGroupId : Bytes32) (nodeSignatures : Dict String NodeSignatureMaterial)
    (shares : List (String × Int)) (payees : Dict String String) : SplitContext where
  jobId := perStageLeafJobId receipt.requestId
  requesterAddress := requesterAddress
  tierSlashRateBps := tierSlashRateBps
  consensusGroupId := consensusGroupId
  nodeSignatures := nodeSignatures
  shareByNode := Dict.ofEntries shares
  payeeByNode := payees

/-- One round of the loop of the splitter. -/
def stageShare (ctx : SplitContext) (nodeId : String) : Except SplitError StageSettlementShare := do
  let mat ← item ctx.nodeSignatures nodeId
  let shareWei ← item ctx.shareByNode nodeId
  let providerAddress ← item ctx.payeeByNode nodeId
  let batched ← newBatchedReceipt
    { receipt :=
        { jobId := ctx.jobId
          shardIndex := mat.stageIndex
          providerId := nodeId
          providerPubkeyB64 := mat.pubkeyB64
          outputHash := mat.outputHash
          executedAtUnix := mat.executedAtUnix
          signature := mat.signature
          teeAttestation := mat.teeAttestation }
      requesterAddress := ctx.requesterAddress
      providerAddress := providerAddress
      valueFtns := shareWei
      localEscrowId := ctx.jobId ++ "::stage::" ++ nodeId
      tierSlashRateBps := ctx.tierSlashRateBps
      consensusGroupId := ctx.consensusGroupId }
  .ok { nodeId := nodeId, shareWei := shareWei, batchedReceipt := batched }

def splitReceiptToPerNodeBatchedReceipts (lib : AddressLibrary) (sha256 : Bytes → Bytes)
    (receipt : InferenceReceipt) (totalValueWei : Int)
    (nodeSignatures : Dict String NodeSignatureMaterial) (requesterAddress : String)
    (walletMap : Option WalletMap) (tierSlashRateBps : Int) (consensusGroupId : Bytes32) :
    Except SplitError (Option (List StageSettlementShare)) :=
  match distinctNodeIdsWithStage receipt.topologyAssignment with
  | none => .ok none
  | some distinct =>
      if ¬ (distinct.map Prod.fst).all (materialBound sha256 nodeSignatures) then .ok none
      else if receipt.requestId = "" then .ok none
      else
        match payeeByNode lib requesterAddress walletMap (distinct.map Prod.fst) with
        | none => .ok none
        | some payees => do
            let shares ← computePerStageShares totalValueWei (distinct.map Prod.fst)
            let out ← (distinct.map Prod.fst).mapM (stageShare (splitContext receipt
              requesterAddress tierSlashRateBps consensusGroupId nodeSignatures shares payees))
            if (out.map StageSettlementShare.shareWei).sum = totalValueWei then .ok (some out)
            else .error .conservation

/-! ## The nodes of a topology -/

/-- The nodes that a topology names. -/
def nodeNames (positions : Positions) : Finset String :=
  ((positions.entries.map Prod.snd).filter fun nodeId => nodeId ≠ "").toFinset

theorem mem_nodeNames {positions : Positions} {nodeId : String} :
    nodeId ∈ nodeNames positions ↔ nodeId ∈ positions.entries.map Prod.snd ∧ nodeId ≠ "" := by
  rw [nodeNames, List.mem_toFinset, List.mem_filter, decide_eq_true_iff]

theorem distinctFrom_spec (entries : List ((Int × Int) × String)) (seen : List String) :
    ((distinctFrom seen entries).map Prod.fst).Nodup ∧
      ∀ nodeId, nodeId ∈ (distinctFrom seen entries).map Prod.fst ↔
        (nodeId ∈ entries.map Prod.snd ∧ nodeId ≠ "") ∧ nodeId ∉ seen := by
  induction entries generalizing seen with
  | nil => exact ⟨List.nodup_nil, fun nodeId => by simp [distinctFrom]⟩
  | cons entry rest ih =>
      obtain ⟨key, name⟩ := entry
      by_cases hSkip : name = "" ∨ name ∈ seen
      · rw [distinctFrom, if_pos hSkip]
        refine ⟨(ih seen).1, fun nodeId => ((ih seen).2 nodeId).trans ?_⟩
        rw [List.map_cons, List.mem_cons]
        constructor
        · rintro ⟨⟨hMem, hName⟩, hSeen⟩
          exact ⟨⟨.inr hMem, hName⟩, hSeen⟩
        · rintro ⟨⟨rfl | hMem, hName⟩, hSeen⟩
          · exact absurd hSkip (not_or.mpr ⟨hName, hSeen⟩)
          · exact ⟨⟨hMem, hName⟩, hSeen⟩
      · obtain ⟨hName, hSeen⟩ := not_or.mp hSkip
        obtain ⟨hNodup, hMem⟩ := ih (name :: seen)
        rw [distinctFrom, if_neg hSkip, List.map_cons, List.nodup_cons]
        refine ⟨⟨fun h => ((hMem name).mp h).2 List.mem_cons_self, hNodup⟩, fun nodeId => ?_⟩
        rw [List.mem_cons, hMem, List.map_cons, List.mem_cons, List.mem_cons]
        constructor
        · rintro (rfl | ⟨⟨hIn, hNonempty⟩, hNew⟩)
          · exact ⟨⟨.inl rfl, hName⟩, hSeen⟩
          · exact ⟨⟨.inr hIn, hNonempty⟩, fun h => hNew (.inr h)⟩
        · rintro ⟨⟨rfl | hIn, hNonempty⟩, hNew⟩
          · exact .inl rfl
          · by_cases hEq : nodeId = name
            · exact .inl hEq
            · exact .inr ⟨⟨hIn, hNonempty⟩, fun h => h.elim hEq hNew⟩

theorem distinctNodeIdsWithStage_spec {positions : Positions}
    (hTwo : 2 ≤ (nodeNames positions).card) :
    ∃ distinct, distinctNodeIdsWithStage (some positions) = some distinct ∧
      (distinct.map Prod.fst).Nodup ∧ (distinct.map Prod.fst).toFinset = nodeNames positions := by
  obtain ⟨hNodup, hMem⟩ :=
    distinctFrom_spec (sortBy (fun entry => toLex entry.1) positions.entries) []
  have hNames : ((distinctFrom [] (sortBy (fun entry => toLex entry.1) positions.entries)).map
      Prod.fst).toFinset = nodeNames positions := by
    ext nodeId
    have hSorted : (sortBy (fun entry : (Int × Int) × String => toLex entry.1)
        positions.entries).Perm positions.entries := List.perm_insertionSort _ _
    rw [List.mem_toFinset, hMem, mem_nodeNames, (hSorted.map Prod.snd).mem_iff]
    simp
  refine ⟨_, ?_, hNodup, hNames⟩
  rw [← hNames, List.toFinset_card_of_nodup hNodup, List.length_map] at hTwo
  exact if_neg (by omega)

/-! ## The shares -/

theorem computePerStageShares_eq {total : Nat} (hTotal : total < 2 ^ 128) {nodeIds : List String}
    (hNodes : nodeIds ≠ []) :
    computePerStageShares total nodeIds =
      .ok (nodeIds.zip ((equalShares total nodeIds.length).map Nat.cast)) := by
  have hRange : ¬ (2 : Int) ^ 128 - 1 < total := by
    have hCast : (total : Int) < 2 ^ 128 := by exact_mod_cast hTotal
    omega
  have hShares : (nodeIds.zipIdx.map fun (nodeId, i) => (nodeId, (total : Int) / nodeIds.length +
      if (i : Int) < (total : Int) % nodeIds.length then 1 else 0)) =
      nodeIds.zip ((equalShares total nodeIds.length).map Nat.cast) := by
    refine List.ext_getElem (by simp) fun i h _ => ?_
    have hi : i < nodeIds.length := by simpa using h
    have hCast : ((i : Int) < (total : Int) % nodeIds.length) ↔ i < total % nodeIds.length := by
      norm_cast
    simp only [List.getElem_map, List.getElem_zipIdx, List.getElem_zip, equalShares,
      List.getElem_range, Nat.zero_add, hCast]
    push_cast
    rfl
  have hSum : ((nodeIds.zip ((equalShares total nodeIds.length).map Nat.cast)).map
      Prod.snd).sum = (total : Int) := by
    rw [List.map_snd_zip (by simp), ← Nat.cast_list_sum,
      sum_equalShares total (List.length_pos_of_ne_nil hNodes)]
  rw [computePerStageShares, if_neg (by omega), if_neg hRange, if_neg hNodes]
  simp only [hShares]
  rw [if_pos hSum]

theorem item_eq_ok_iff {α : Type} {d : Dict String α} {key : String} {value : α} :
    item d key = .ok value ↔ d.get? key = some value := by
  rw [item]
  cases d.get? key with
  | none => exact iff_of_false (fun h => by cases h) (fun h => by cases h)
  | some v =>
      exact ⟨fun h => congrArg some (Except.ok.inj h), fun h => congrArg _ (Option.some.inj h)⟩

theorem exists_item {α : Type} {keys : List String} {values : List α} (hNodup : keys.Nodup)
    (hLength : keys.length = values.length) {key : String} (hKey : key ∈ keys) :
    ∃ value, item (Dict.ofEntries (keys.zip values)) key = .ok value := by
  have hMap := Dict.map_get?_ofEntries_zip hNodup hLength
  have hMem : (Dict.ofEntries (keys.zip values)).get? key ∈ values.map some := by
    rw [← hMap]
    exact List.mem_map_of_mem hKey
  obtain ⟨value, -, hValue⟩ := List.mem_map.mp hMem
  exact ⟨value, item_eq_ok_iff.mpr hValue.symm⟩

theorem map_of_items {α β : Type} {keys : List String} {values : List α} {ys : List β}
    {read : β → α} (hNodup : keys.Nodup) (hLength : keys.length = values.length)
    (h : List.Forall₂ (fun key y => item (Dict.ofEntries (keys.zip values)) key = .ok (read y))
      keys ys) : ys.map read = values := by
  have hRead : keys.map (Dict.ofEntries (keys.zip values)).get? = ys.map fun y => some (read y) :=
    map_eq_map_of_forall₂ (h.imp fun _ _ hItem => item_eq_ok_iff.mp hItem)
  rw [Dict.map_get?_ofEntries_zip hNodup hLength] at hRead
  have hSome : (ys.map read).map some = values.map some := by
    rw [List.map_map]
    exact hRead.symm
  exact List.map_injective_iff.mpr (Option.some_injective α) hSome

/-! ## Both splits in terms of the wallets and the shares -/

section Splits

variable {lib : AddressLibrary} {receipt : InferenceReceipt} {total : Nat} {walletMap : WalletMap}
  {distinct : List (String × Int)} {payees : List String}

/-- The shares of the nodes of a split. -/
def sharesOf (total : Nat) (distinct : List (String × Int)) : List Int :=
  (equalShares total distinct.length).map Nat.cast

@[simp] theorem length_sharesOf (total : Nat) (distinct : List (String × Int)) :
    (sharesOf total distinct).length = distinct.length := by
  rw [sharesOf, List.length_map, length_equalShares]

theorem sum_sharesOf (hDistinct : distinct ≠ []) : (sharesOf total distinct).sum = total := by
  rw [sharesOf, ← Nat.cast_list_sum, sum_equalShares total (List.length_pos_of_ne_nil hDistinct)]

theorem computePerStageShares_distinct (hTotal : total < 2 ^ 128) (hDistinct : distinct ≠ []) :
    computePerStageShares total (distinct.map Prod.fst) =
      .ok ((distinct.map Prod.fst).zip (sharesOf total distinct)) := by
  rw [computePerStageShares_eq hTotal (by simpa using hDistinct), List.length_map]
  rfl

theorem buildPerStagePayeeSet_eq (hTotal : total < 2 ^ 128) (hDistinct : distinct ≠ [])
    (hNodup : (distinct.map Prod.fst).Nodup)
    (hTopology : distinctNodeIdsWithStage receipt.topologyAssignment = some distinct)
    (hWallets : (distinct.map Prod.fst).mapM (resolveNodeEthPayee lib (some walletMap)) =
      some payees) :
    buildPerStagePayeeSet lib receipt total (some walletMap) =
      .ok (some (payees.zip (sharesOf total distinct))) := by
  have hLength : (distinct.map Prod.fst).length = (sharesOf total distinct).length := by simp
  obtain ⟨shareWei, hItems, hEach⟩ := exists_mapM_ok fun nodeId hNode =>
    (exists_item hNodup hLength hNode).imp fun share hShare => ⟨hShare, hShare⟩
  have hShares : shareWei.map id = sharesOf total distinct := map_of_items hNodup hLength hEach
  rw [List.map_id] at hShares
  rw [buildPerStagePayeeSet, hTopology]
  simp only [computePerStageShares_distinct hTotal hDistinct, hWallets, ok_bind, hItems, hShares]
variable {nodeSignatures : Dict String NodeSignatureMaterial}

theorem exists_material {sha256 : Bytes → Bytes} {nodeId : String}
    (h : materialBound sha256 nodeSignatures nodeId = true) :
    ∃ mat, item nodeSignatures nodeId = .ok mat := by
  rw [materialBound] at h
  split at h
  · cases h
  case h_2 mat hMat => exact ⟨mat, item_eq_ok_iff.mpr hMat⟩

theorem stageShare_spec {ctx : SplitContext} {nodeId : String} {mat : NodeSignatureMaterial}
    {share : Int} {payee : String} (hMat : item ctx.nodeSignatures nodeId = .ok mat)
    (hShare : item ctx.shareByNode nodeId = .ok share)
    (hPayee : item ctx.payeeByNode nodeId = .ok payee)
    (hTier : 0 ≤ ctx.tierSlashRateBps ∧ ctx.tierSlashRateBps ≤ 10000) :
    ∃ s, stageShare ctx nodeId = .ok s ∧ s.shareWei = share ∧
      s.batchedReceipt.providerAddress = payee ∧ s.batchedReceipt.valueFtns = share := by
  have hRate : ∀ br : BatchedReceipt, br.tierSlashRateBps = ctx.tierSlashRateBps →
      newBatchedReceipt br = .ok br := by
    intro br hRate
    rw [newBatchedReceipt, hRate, if_pos hTier]
  rw [stageShare, hMat, hShare, hPayee, ok_bind, ok_bind, ok_bind, hRate _ rfl, ok_bind]
  exact ⟨_, rfl, rfl, rfl, rfl⟩

theorem splitReceipt_eq {sha256 : Bytes → Bytes} (requesterAddress : String)
    {tierSlashRateBps : Int} (consensusGroupId : Bytes32)
    (hTotal : total < 2 ^ 128) (hDistinct : distinct ≠ [])
    (hNodup : (distinct.map Prod.fst).Nodup)
    (hTopology : distinctNodeIdsWithStage receipt.topologyAssignment = some distinct)
    (hBound : ∀ nodeId ∈ distinct.map Prod.fst, materialBound sha256 nodeSignatures nodeId = true)
    (hRequest : receipt.requestId ≠ "")
    (hWallets : (distinct.map Prod.fst).mapM (resolveNodeEthPayee lib (some walletMap)) =
      some payees)
    (hTier : 0 ≤ tierSlashRateBps ∧ tierSlashRateBps ≤ 10000) :
    ∃ out, splitReceiptToPerNodeBatchedReceipts lib sha256 receipt total nodeSignatures
        requesterAddress (some walletMap) tierSlashRateBps consensusGroupId = .ok (some out) ∧
      out.map (fun s => s.batchedReceipt.providerAddress) = payees ∧
      out.map StageSettlementShare.shareWei = sharesOf total distinct := by
  have hShareLength : (distinct.map Prod.fst).length = (sharesOf total distinct).length := by simp
  have hPayeeLength : (distinct.map Prod.fst).length = payees.length :=
    (length_of_mapM hWallets).symm
  have hRounds : ∀ nodeId ∈ distinct.map Prod.fst, ∃ s,
      stageShare (splitContext receipt requesterAddress tierSlashRateBps consensusGroupId
        nodeSignatures ((distinct.map Prod.fst).zip (sharesOf total distinct))
        (Dict.ofEntries ((distinct.map Prod.fst).zip payees))) nodeId = .ok s ∧
      item (Dict.ofEntries ((distinct.map Prod.fst).zip (sharesOf total distinct))) nodeId =
        .ok s.shareWei ∧
      item (Dict.ofEntries ((distinct.map Prod.fst).zip payees)) nodeId =
        .ok s.batchedReceipt.providerAddress := by
    intro nodeId hNode
    obtain ⟨mat, hMat⟩ := exists_material (hBound nodeId hNode)
    obtain ⟨share, hShare⟩ := exists_item hNodup hShareLength hNode
    obtain ⟨payee, hPayee⟩ := exists_item hNodup hPayeeLength hNode
    obtain ⟨s, hs, hShareWei, hAddress, -⟩ := @stageShare_spec (splitContext receipt
      requesterAddress tierSlashRateBps consensusGroupId nodeSignatures _ _) nodeId mat share payee
      hMat hShare hPayee hTier
    exact ⟨s, hs, hShareWei ▸ hShare, hAddress ▸ hPayee⟩
  obtain ⟨out, hOut, hEach⟩ := exists_mapM_ok hRounds
  have hShares : out.map StageSettlementShare.shareWei = sharesOf total distinct :=
    map_of_items hNodup hShareLength (hEach.imp fun _ _ h => h.1)
  refine ⟨out, ?_, map_of_items hNodup hPayeeLength (hEach.imp fun _ _ h => h.2), hShares⟩
  have hAll : (distinct.map Prod.fst).all (materialBound sha256 nodeSignatures) = true :=
    List.all_eq_true.mpr hBound
  rw [splitReceiptToPerNodeBatchedReceipts, hTopology]
  simp only [hAll, hRequest, payeeByNode, hWallets, Option.map_some,
    computePerStageShares_distinct hTotal hDistinct, not_true_eq_false, if_false, ok_bind, hOut]
  exact if_pos (hShares ▸ sum_sharesOf hDistinct)

end Splits

end Prsm.PerStage
