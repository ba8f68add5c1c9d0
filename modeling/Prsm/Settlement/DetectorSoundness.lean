import Prsm.Settlement.MismatchDetector

/-!
# When the detector is sound

The findings of a slot depend on its sides only up to their order, except for
the choice of the majority output.  So the detector is deterministic where that
choice is forced, and where it is not some backer of the majority that was not
chosen is reported.
-/

namespace Prsm.Settlement

open Foundations Evm

variable {keccak256 : Keccak} {batches batches' : List DetectorBatch} {slot : Registry.Slot}

/-! ## The sides of a slot -/

theorem mem_batchSides {batch : DetectorBatch} {side : Side} :
    (slot, side) ∈ batchSides keccak256 batch ↔
      slot.consensusGroupId ≠ 0 ∧ batch.batchId = side.batchId ∧
        batch.providerAddress = side.provider ∧
        batch.consensusGroupId = slot.consensusGroupId ∧
        batch.receipts[side.leafIndex]? = some side.receipt ∧
        ∃ leaf, batchedReceiptToLeaf keccak256 side.receipt = some leaf ∧
          leaf.jobIdHash = slot.jobIdHash ∧ leaf.shardIndex = slot.shardIndex ∧
          leaf.outputHash = side.outputHash := by
  unfold batchSides
  split
  case isTrue hZero =>
    constructor
    · intro h
      cases h
    · rintro ⟨hGroup, -, -, hSame, -⟩
      exact absurd (hSame.symm.trans hZero) hGroup
  case isFalse hGroup =>
    simp only [List.mem_filterMap, Prod.exists, List.mem_zipIdx_iff_getElem?,
      Option.map_eq_some_iff]
    constructor
    · rintro ⟨br, leafIndex, hAt, leaf, hLeaf, hEq⟩
      obtain ⟨rfl, rfl⟩ := Prod.mk.inj hEq
      exact ⟨hGroup, rfl, rfl, rfl, hAt, leaf, hLeaf, rfl, rfl, rfl⟩
    · obtain ⟨batchId, provider, receipt, leafIndex, outputHash⟩ := side
      obtain ⟨consensusGroupId, jobIdHash, shardIndex⟩ := slot
      rintro ⟨-, rfl, rfl, rfl, hAt, leaf, hLeaf, rfl, rfl, rfl⟩
      exact ⟨receipt, leafIndex, hAt, leaf, hLeaf, rfl⟩

theorem mem_slotSides {side : Side} :
    side ∈ slotSides keccak256 batches slot ↔
      slot.consensusGroupId ≠ 0 ∧ CommittedSide keccak256 batches slot side := by
  rw [slotSides, mem_valuesAt, allSides, List.mem_flatMap]
  constructor
  · rintro ⟨batch, hBatch, hSide⟩
    obtain ⟨hGroup, hRest⟩ := mem_batchSides.mp hSide
    exact ⟨hGroup, batch, hBatch, hRest⟩
  · rintro ⟨hGroup, batch, hBatch, hRest⟩
    exact ⟨batch, hBatch, mem_batchSides.mpr ⟨hGroup, hRest⟩⟩

section Verified

variable {side other : Side}

theorem provider_eq_of_batchId (hVerified : Verified batches)
    (hSide : side ∈ slotSides keccak256 batches slot)
    (hOther : other ∈ slotSides keccak256 batches slot) (hBatch : side.batchId = other.batchId) :
    side.provider = other.provider := by
  obtain ⟨-, a, ha, hId, hProvider, -⟩ := mem_slotSides.mp hSide
  obtain ⟨-, b, hb, hId', hProvider', -⟩ := mem_slotSides.mp hOther
  obtain rfl : a = b := hVerified a ha b hb (hId.trans (hBatch.trans hId'.symm))
  exact hProvider.symm.trans hProvider'

theorem side_eq_of_leaf (hVerified : Verified batches)
    (hSide : side ∈ slotSides keccak256 batches slot)
    (hOther : other ∈ slotSides keccak256 batches slot) (hBatch : side.batchId = other.batchId)
    (hIndex : side.leafIndex = other.leafIndex) : side = other := by
  have hProvider := provider_eq_of_batchId hVerified hSide hOther hBatch
  obtain ⟨-, a, ha, hId, -, -, hAt, leaf, hLeaf, -, -, hOutput⟩ := mem_slotSides.mp hSide
  obtain ⟨-, b, hb, hId', -, -, hAt', leaf', hLeaf', -, -, hOutput'⟩ := mem_slotSides.mp hOther
  obtain rfl : a = b := hVerified a ha b hb (hId.trans (hBatch.trans hId'.symm))
  rw [hIndex, hAt'] at hAt
  have hReceipt : side.receipt = other.receipt := (Option.some.inj hAt).symm
  rw [hReceipt, hLeaf'] at hLeaf
  obtain rfl : leaf' = leaf := Option.some.inj hLeaf
  cases side
  cases other
  simp only at hBatch hIndex hProvider hReceipt hOutput hOutput'
  subst hBatch hIndex hProvider hReceipt hOutput hOutput'
  rfl

end Verified

/-! ## The tally -/

section Tally

variable {sides sides' : List Side} {output : Bytes32}

theorem providerCount_perm (h : sides.Perm sides') :
    providerCount sides = providerCount sides' := by
  unfold providerCount
  rw [List.toFinset_eq_of_perm _ _ (h.map Side.provider)]

theorem backing_perm (h : sides.Perm sides') : backing sides = backing sides' := by
  funext output
  exact providerCount_perm (h.filter _)

theorem isMajority_perm (h : sides.Perm sides') :
    IsMajority sides output ↔ IsMajority sides' output := by
  unfold IsMajority
  rw [providerCount_perm h, backing_perm h]

theorem providersByOutput_values {group : Bytes32 × List String}
    (h : group ∈ providersByOutput sides) : group.2.toFinset.card = backing sides group.1 := by
  have hValues := (groupByKey_groups _).values_eq group h
  rw [hValues]
  simp only [valuesAt, List.filter_map, List.map_map]
  rfl

theorem mem_providersByOutput_keys :
    output ∈ (providersByOutput sides).map Prod.fst ↔ ∃ side ∈ sides, side.outputHash = output := by
  rw [providersByOutput, (groupByKey_groups _).mem_keys]
  constructor
  · intro hSome
    obtain ⟨provider, hProvider⟩ := List.exists_mem_of_ne_nil _ hSome
    obtain ⟨side, hSide, hEq⟩ := List.mem_map.mp (mem_valuesAt.mp hProvider)
    exact ⟨side, hSide, congrArg Prod.fst hEq⟩
  · rintro ⟨side, hSide, rfl⟩
    have hProvider : (side.outputHash, side.provider) ∈
        sides.map fun side => (side.outputHash, side.provider) :=
      List.mem_map_of_mem hSide
    exact List.ne_nil_of_mem (mem_valuesAt.mpr hProvider)

theorem providersByOutput_length :
    (providersByOutput sides).length = (sides.map Side.outputHash).toFinset.card := by
  have hNodup : ((providersByOutput sides).map Prod.fst).Nodup := (groupByKey_groups _).nodup
  have hLength : ((providersByOutput sides).map Prod.fst).length =
      (providersByOutput sides).length :=
    List.length_map _
  rw [← hLength, ← List.toFinset_card_of_nodup hNodup]
  congr 1
  ext output
  rw [List.mem_toFinset, List.mem_toFinset, mem_providersByOutput_keys, List.mem_map]

theorem isMajority_of_majorityOutput (h : majorityOutput sides = some output) :
    IsMajority sides output := by
  obtain ⟨group, hFind, rfl⟩ := Option.map_eq_some_iff.mp h
  have hBacked := List.find?_some hFind
  rw [decide_eq_true_iff, providersByOutput_values (List.mem_of_find?_eq_some hFind)] at hBacked
  exact hBacked

theorem exists_side_of_isMajority (h : IsMajority sides output) :
    ∃ side ∈ sides, side.outputHash = output := by
  by_contra hNone
  have hEmpty : (sides.filter fun side => side.outputHash = output) = [] := by
    rw [List.filter_eq_nil_iff]
    intro side hSide hOutput
    exact hNone ⟨side, hSide, of_decide_eq_true hOutput⟩
  rw [IsMajority, backing, hEmpty] at h
  exact absurd h (Nat.not_lt_zero _)

theorem exists_majorityOutput (h : IsMajority sides output) :
    ∃ chosen, majorityOutput sides = some chosen := by
  obtain ⟨group, hGroup, rfl⟩ :=
    List.mem_map.mp (mem_providersByOutput_keys.mpr (exists_side_of_isMajority h))
  have hSome : ((providersByOutput sides).find? fun group =>
      providerCount sides < group.2.toFinset.card * 2).isSome := by
    rw [List.find?_isSome]
    refine ⟨group, hGroup, ?_⟩
    rw [decide_eq_true_iff, providersByOutput_values hGroup]
    exact h
  obtain ⟨chosen, hChosen⟩ := Option.isSome_iff_exists.mp hSome
  exact ⟨chosen.1, by rw [majorityOutput, hChosen]; rfl⟩

theorem majorityOutput_perm (h : sides.Perm sides')
    (hUnique : ∀ a b, IsMajority sides a → IsMajority sides b → a = b) :
    majorityOutput sides = majorityOutput sides' := by
  cases hLeft : majorityOutput sides with
  | none =>
      cases hRight : majorityOutput sides' with
      | none => rfl
      | some output =>
          have hMajority := (isMajority_perm h).mpr (isMajority_of_majorityOutput hRight)
          obtain ⟨chosen, hChosen⟩ := exists_majorityOutput hMajority
          rw [hLeft] at hChosen
          cases hChosen
  | some output =>
      have hMajority := isMajority_of_majorityOutput hLeft
      obtain ⟨chosen, hChosen⟩ := exists_majorityOutput ((isMajority_perm h).mp hMajority)
      have hOther := (isMajority_perm h).mpr (isMajority_of_majorityOutput hChosen)
      rw [hChosen, hUnique output chosen hMajority hOther]

end Tally

/-! ## The findings of a slot -/

section SlotFindings

variable {sides sides' : List Side} {f : ConsensusMismatchFinding}

theorem mem_of_mem_orderedPairs {α : Type} {l : List α} {a b : α} (h : (a, b) ∈ orderedPairs l) :
    a ∈ l ∧ b ∈ l := by
  induction l with
  | nil => cases h
  | cons c l ih =>
      rw [orderedPairs, List.mem_append] at h
      rcases h with hFirst | hRest
      · obtain ⟨d, hd, hEq⟩ := List.mem_map.mp hFirst
        obtain ⟨rfl, rfl⟩ := Prod.mk.inj hEq
        exact ⟨List.mem_cons_self, List.mem_cons_of_mem _ hd⟩
      · obtain ⟨ha, hb⟩ := ih hRest
        exact ⟨List.mem_cons_of_mem _ ha, List.mem_cons_of_mem _ hb⟩

/-- The two sides disagree across providers and batches. -/
structure Disagree (minority majority : Side) : Prop where
  batch_ne : minority.batchId ≠ majority.batchId
  provider_ne : minority.provider ≠ majority.provider
  output_ne : minority.outputHash ≠ majority.outputHash

theorem mem_slotFindings (h : f ∈ slotFindings slot sides) :
    ∃ minority ∈ sides, ∃ majority ∈ sides, ∃ ambiguous,
      f = makeFinding slot minority majority ambiguous (backing sides) ∧
        Disagree minority majority ∧
        (ambiguous = false → majorityOutput sides = some majority.outputHash) := by
  unfold slotFindings at h
  split at h
  · cases h
  split at h
  · cases h
  split at h
  case h_1 output hOutput =>
    simp only [majorityFindings, List.mem_filterMap] at h
    obtain ⟨side, hSide, h⟩ := h
    split at h
    · cases h
    case isFalse hOther =>
      obtain ⟨m, hFind, rfl⟩ := Option.map_eq_some_iff.mp h
      obtain ⟨hMem, hBacks⟩ := List.mem_filter.mp (List.mem_of_find?_eq_some hFind)
      have hApart : m.provider ≠ side.provider ∧ m.batchId ≠ side.batchId := by
        simpa using List.find?_some hFind
      have hBacks : m.outputHash = output := of_decide_eq_true hBacks
      refine ⟨side, mem_sortBy.mp hSide, m, mem_sortBy.mp hMem, false, rfl,
        ⟨hApart.2.symm, hApart.1.symm, ?_⟩, fun _ => by rw [hOutput, hBacks]⟩
      rw [hBacks]
      exact hOther
  case h_2 =>
    simp only [ambiguousFindings, List.mem_filterMap, Prod.exists] at h
    obtain ⟨lo, hi, hPair, h⟩ := h
    obtain ⟨hLo, hHi⟩ := mem_of_mem_orderedPairs hPair
    split at h
    · cases h
    case isFalse hBatch =>
      split at h
      · cases h
      case isFalse hProvider =>
        split at h
        · cases h
        case isFalse hOutput =>
          exact ⟨lo, mem_sortBy.mp hLo, hi, mem_sortBy.mp hHi, true, (Option.some.inj h).symm,
            ⟨hBatch, hProvider, hOutput⟩, Bool.noConfusion⟩

theorem slot_of_mem_slotFindings (h : f ∈ slotFindings slot sides) : f.slot = slot := by
  obtain ⟨_, _, _, _, _, rfl, -⟩ := mem_slotFindings h
  rfl

theorem two_le_providerCount {side other : Side} (hSide : side ∈ sides) (hOther : other ∈ sides)
    (hProvider : side.provider ≠ other.provider) : 2 ≤ providerCount sides := by
  refine Finset.one_lt_card.mpr ⟨side.provider, ?_, other.provider, ?_, hProvider⟩
  · exact List.mem_toFinset.mpr (List.mem_map_of_mem hSide)
  · exact List.mem_toFinset.mpr (List.mem_map_of_mem hOther)

theorem slotFindings_of_alone (hAlone : providerCount sides < 2) :
    slotFindings slot sides = [] := by
  rw [List.eq_nil_iff_forall_not_mem]
  intro f hf
  obtain ⟨minority, hMinority, majority, hMajority, -, -, hDisagree, -⟩ := mem_slotFindings hf
  have hTwo := two_le_providerCount hMinority hMajority hDisagree.provider_ne
  omega

theorem slotFindings_perm (h : sides.Perm sides')
    (hKey : ∀ side ∈ sides, ∀ other ∈ sides, side.batchId = other.batchId →
      side.leafIndex = other.leafIndex → side = other)
    (hUnique : 2 ≤ providerCount sides →
      ∀ a b, IsMajority sides a → IsMajority sides b → a = b) :
    slotFindings slot sides = slotFindings slot sides' := by
  by_cases hAlone : providerCount sides < 2
  · rw [slotFindings_of_alone hAlone,
      slotFindings_of_alone (by rwa [← providerCount_perm h])]
  · -- All but the choice of the majority is symmetric in the sides.
    have hOrdered : orderedSides sides = orderedSides sides' := by
      apply sortBy_eq_of_perm _ h
      intro side hSide other hOther hEq
      have hPlace := Prod.mk.inj (toLex_inj.mp hEq)
      have hRest := Prod.mk.inj (toLex_inj.mp hPlace.2)
      exact hKey side hSide other hOther hPlace.1 hRest.2
    have hOutputs : (providersByOutput sides).length = (providersByOutput sides').length := by
      rw [providersByOutput_length, providersByOutput_length,
        List.toFinset_eq_of_perm _ _ (h.map Side.outputHash)]
    have hMajority := majorityOutput_perm h (hUnique (not_lt.mp hAlone))
    unfold slotFindings
    rw [h.length_eq, hOutputs, hMajority, hOrdered, backing_perm h]

theorem exists_finding {side backer : Side} {output : Bytes32}
    (hChosen : majorityOutput sides = some output) (hSide : side ∈ sides)
    (hBacker : backer ∈ sides) (hOutput : backer.outputHash = output)
    (hDisagree : Disagree side backer) :
    ∃ f ∈ slotFindings slot sides, f.ambiguous = false ∧ f.minority = side := by
  have hLength : ¬ sides.length < 2 := by
    have hTwo := two_le_providerCount hSide hBacker hDisagree.provider_ne
    have hAtMost : providerCount sides ≤ sides.length :=
      (List.toFinset_card_le _).trans (List.length_map _).le
    omega
  have hOutputs : ¬ (providersByOutput sides).length < 2 := by
    rw [providersByOutput_length, not_lt]
    refine Finset.one_lt_card.mpr ⟨side.outputHash, ?_, backer.outputHash, ?_, hDisagree.output_ne⟩
    · exact List.mem_toFinset.mpr (List.mem_map_of_mem hSide)
    · exact List.mem_toFinset.mpr (List.mem_map_of_mem hBacker)
  have hOther : side.outputHash ≠ output := by
    rw [← hOutput]
    exact hDisagree.output_ne
  have hFind : (((orderedSides sides).filter fun side => side.outputHash = output).find? fun m =>
      m.provider ≠ side.provider ∧ m.batchId ≠ side.batchId).isSome := by
    rw [List.find?_isSome]
    refine ⟨backer, List.mem_filter.mpr ⟨mem_sortBy.mpr hBacker, decide_eq_true hOutput⟩, ?_⟩
    exact decide_eq_true ⟨hDisagree.provider_ne.symm, hDisagree.batch_ne.symm⟩
  obtain ⟨m, hm⟩ := Option.isSome_iff_exists.mp hFind
  refine ⟨makeFinding slot side m false (backing sides), ?_, rfl, rfl⟩
  simp only [slotFindings, hLength, hOutputs, hChosen, if_false, majorityFindings,
    List.mem_filterMap]
  refine ⟨side, mem_sortBy.mpr hSide, ?_⟩
  rw [if_neg hOther, hm]
  rfl

end SlotFindings

/-! ## The detector -/

theorem mem_detectConsensusMismatches {f : ConsensusMismatchFinding} :
    f ∈ detectConsensusMismatches keccak256 batches ↔
      f ∈ slotFindings f.slot (slotSides keccak256 batches f.slot) := by
  have hGroups := groupByKey_groups (allSides keccak256 batches)
  rw [detectConsensusMismatches, mem_sortBy, List.mem_flatMap]
  constructor
  · rintro ⟨group, hGroup, hf⟩
    rw [slot_of_mem_slotFindings hf, slotSides, ← hGroups.values_eq group hGroup]
    exact hf
  · intro hf
    obtain ⟨minority, hMinority, -⟩ := mem_slotFindings hf
    have hKey : f.slot ∈ (groupByKey (allSides keccak256 batches)).map Prod.fst :=
      (hGroups.mem_keys f.slot).mpr (List.ne_nil_of_mem hMinority)
    obtain ⟨group, hGroup, hSlot⟩ := List.mem_map.mp hKey
    refine ⟨group, hGroup, ?_⟩
    rw [hGroups.values_eq group hGroup, hSlot]
    exact hf

/-- The slot that a sort key begins with. -/
def slotOfKey (key : Bytes32 ×ₗ Bytes32 ×ₗ Uint 32 ×ₗ Bool ×ₗ Bytes32 ×ₗ Bytes32) :
    Registry.Slot where
  consensusGroupId := (ofLex key).1
  jobIdHash := (ofLex (ofLex key).2).1
  shardIndex := (ofLex (ofLex (ofLex key).2).2).1

theorem detectConsensusMismatches_congr
    (h : ∀ slot, slotFindings slot (slotSides keccak256 batches slot) =
      slotFindings slot (slotSides keccak256 batches' slot)) :
    detectConsensusMismatches keccak256 batches = detectConsensusMismatches keccak256 batches' := by
  apply sortBy_eq_of_filter_eq
  intro key
  -- The sort key begins with the slot, so findings with one key come from one slot.
  have hSlot : ∀ other, other ≠ slotOfKey key → ∀ sides, ∀ f ∈ slotFindings other sides,
      decide (f.sortKey = key) = false := by
    intro other hOther sides f hf
    rw [decide_eq_false_iff_not]
    rintro rfl
    exact hOther (slot_of_mem_slotFindings hf).symm
  have hEmpty : slotFindings (slotOfKey key) [] = [] := rfl
  rw [(groupByKey_groups (allSides keccak256 batches)).filter_flatMap slotFindings (slotOfKey key)
      _ hEmpty hSlot,
    (groupByKey_groups (allSides keccak256 batches')).filter_flatMap slotFindings (slotOfKey key)
      _ hEmpty hSlot]
  exact congrArg (List.filter _) (h (slotOfKey key))

theorem slotSides_perm (h : batches'.Perm batches) :
    (slotSides keccak256 batches slot).Perm (slotSides keccak256 batches' slot) :=
  valuesAt_perm (h.symm.flatMap_right _) slot

theorem detectConsensusMismatches_perm (hVerified : Verified batches)
    (hUnique : UniqueMajority keccak256 batches) (h : batches'.Perm batches) :
    detectConsensusMismatches keccak256 batches' = detectConsensusMismatches keccak256 batches := by
  refine (detectConsensusMismatches_congr fun slot => ?_).symm
  apply slotFindings_perm (slotSides_perm h)
  · intro side hSide other hOther hBatch hIndex
    exact side_eq_of_leaf hVerified hSide hOther hBatch hIndex
  · exact hUnique slot

theorem fieldChecks_of_mem {f : ConsensusMismatchFinding}
    (h : f ∈ detectConsensusMismatches keccak256 batches) : FieldChecks keccak256 batches f := by
  obtain ⟨minority, hMinority, majority, hMajority, ambiguous, hf, hDisagree, -⟩ :=
    mem_slotFindings (mem_detectConsensusMismatches.mp h)
  obtain ⟨hGroup, hMinority⟩ := mem_slotSides.mp hMinority
  obtain ⟨-, hMajority⟩ := mem_slotSides.mp hMajority
  have hMinorityEq : f.minority = minority := by rw [hf]; rfl
  have hMajorityEq : f.majority = majority := by rw [hf]; rfl
  subst hMinorityEq hMajorityEq
  exact ⟨hMinority, hMajority, hDisagree.batch_ne, hDisagree.provider_ne, hGroup,
    hDisagree.output_ne⟩

theorem minority_of_mem (hUnique : UniqueMajority keccak256 batches)
    {f : ConsensusMismatchFinding} (h : f ∈ detectConsensusMismatches keccak256 batches)
    (hClear : f.ambiguous = false) :
    ¬ IsMajority (slotSides keccak256 batches f.slot) f.minority.outputHash := by
  obtain ⟨minority, hMinority, majority, hMajority, ambiguous, hf, hDisagree, hChosen⟩ :=
    mem_slotFindings (mem_detectConsensusMismatches.mp h)
  have hTwo := two_le_providerCount hMinority hMajority hDisagree.provider_ne
  have hMinorityEq : f.minority = minority := by rw [hf]; rfl
  have hAmbiguous : ambiguous = false := by rw [← hClear, hf]; rfl
  rw [hMinorityEq]
  intro hAlso
  exact hDisagree.output_ne (hUnique f.slot hTwo _ _ hAlso
    (isMajority_of_majorityOutput (hChosen hAmbiguous)))

theorem exists_other_backer {sides : List Side} {output : Bytes32} (provider : String)
    (h : 2 ≤ backing sides output) :
    ∃ side ∈ sides, side.outputHash = output ∧ side.provider ≠ provider := by
  unfold backing providerCount at h
  obtain ⟨p, hp, q, hq, hNe⟩ := Finset.one_lt_card.mp h
  obtain ⟨a, ha, rfl⟩ := List.mem_map.mp (List.mem_toFinset.mp hp)
  obtain ⟨b, hb, rfl⟩ := List.mem_map.mp (List.mem_toFinset.mp hq)
  obtain ⟨haMem, haOutput⟩ := List.mem_filter.mp ha
  obtain ⟨hbMem, hbOutput⟩ := List.mem_filter.mp hb
  by_cases hSame : a.provider = provider
  · exact ⟨b, hbMem, of_decide_eq_true hbOutput, fun hb => hNe (hSame.trans hb.symm)⟩
  · exact ⟨a, haMem, of_decide_eq_true haOutput, hSame⟩

theorem not_minority_of_second {output : Bytes32} (hVerified : Verified batches)
    (hTwo : 2 ≤ providerCount (slotSides keccak256 batches slot))
    (hMajority : IsMajority (slotSides keccak256 batches slot) output)
    (hChosen : majorityOutput (slotSides keccak256 batches slot) ≠ some output) :
    ∃ f ∈ detectConsensusMismatches keccak256 batches, f.ambiguous = false ∧
      IsMajority (slotSides keccak256 batches f.slot) f.minority.outputHash := by
  obtain ⟨chosen, hSome⟩ := exists_majorityOutput hMajority
  obtain ⟨side, hSide, hOutput⟩ := exists_side_of_isMajority hMajority
  have hBacked : 2 ≤ backing (slotSides keccak256 batches slot) chosen := by
    have hChosenMajority := isMajority_of_majorityOutput hSome
    unfold IsMajority at hChosenMajority
    omega
  -- A majority of two providers or more has a backer besides the provider of `side`.
  obtain ⟨backer, hBacker, hBacks, hProvider⟩ := exists_other_backer side.provider hBacked
  have hDisagree : Disagree side backer := by
    refine ⟨fun hBatch => hProvider ?_, hProvider.symm, fun hSame => hChosen ?_⟩
    · exact (provider_eq_of_batchId hVerified hSide hBacker hBatch).symm
    · rw [hSome, ← hBacks, ← hSame, hOutput]
  obtain ⟨f, hf, hClear, hMinority⟩ := exists_finding hSome hSide hBacker hBacks hDisagree
  have hSlot : f.slot = slot := slot_of_mem_slotFindings hf
  refine ⟨f, mem_detectConsensusMismatches.mpr (by rwa [hSlot]), hClear, ?_⟩
  rw [hSlot, hMinority, hOutput]
  exact hMajority

/-! ## The contract of the detector -/

/-- On verified batches the detector meets its contract exactly when no slot of
two providers or more has two majority outputs. -/
theorem detector_sound_iff (keccak256 : Keccak) (batches : List DetectorBatch)
    (hVerified : Verified batches) :
    TargetsMinority keccak256 batches ↔ UniqueMajority keccak256 batches := by
  constructor
  · intro hSound slot hTwo a b ha hb
    -- An output that was not chosen would be reported, so both are the chosen one.
    have hChosen : ∀ output, IsMajority (slotSides keccak256 batches slot) output →
        majorityOutput (slotSides keccak256 batches slot) = some output := by
      intro output hMajority
      by_contra hNot
      obtain ⟨f, hf, hClear, hMinority⟩ := not_minority_of_second hVerified hTwo hMajority hNot
      exact hSound.minority f hf hClear hMinority
    exact Option.some.inj ((hChosen a ha).symm.trans (hChosen b hb))
  · intro hUnique
    exact ⟨fun _ hPerm => detectConsensusMismatches_perm hVerified hUnique hPerm,
      fun _ hf _ => fieldChecks_of_mem hf, fun _ hf hClear => minority_of_mem hUnique hf hClear⟩

/-- Every provider has one output in each slot. -/
def NoEquivocation (keccak256 : Keccak) (batches : List DetectorBatch) : Prop :=
  ∀ x ∈ allSides keccak256 batches, ∀ y ∈ allSides keccak256 batches, x.1 = y.1 →
    x.2.provider = y.2.provider → x.2.outputHash = y.2.outputHash

instance (keccak256 : Keccak) (batches : List DetectorBatch) :
    Decidable (NoEquivocation keccak256 batches) :=
  inferInstanceAs (Decidable (∀ x ∈ allSides keccak256 batches, ∀ y ∈ allSides keccak256 batches,
    x.1 = y.1 → x.2.provider = y.2.provider → x.2.outputHash = y.2.outputHash))

theorem exists_shared_provider {sides : List Side} {a b : Bytes32} (ha : IsMajority sides a)
    (hb : IsMajority sides b) :
    ∃ x ∈ sides, ∃ y ∈ sides, x.outputHash = a ∧ y.outputHash = b ∧ x.provider = y.provider := by
  let backers : Bytes32 → Finset String := fun output =>
    ((sides.filter fun side => side.outputHash = output).map Side.provider).toFinset
  have hMem : ∀ output provider, provider ∈ backers output →
      ∃ side ∈ sides, side.outputHash = output ∧ side.provider = provider := by
    intro output provider h
    obtain ⟨side, hSide, hProvider⟩ := List.mem_map.mp (List.mem_toFinset.mp h)
    obtain ⟨hSide, hOutput⟩ := List.mem_filter.mp hSide
    exact ⟨side, hSide, of_decide_eq_true hOutput, hProvider⟩
  have hSubset : ∀ output, backers output ⊆ (sides.map Side.provider).toFinset := by
    intro output provider h
    obtain ⟨side, hSide, -, rfl⟩ := hMem output provider h
    exact List.mem_toFinset.mpr (List.mem_map_of_mem hSide)
  have hCards : (sides.map Side.provider).toFinset.card < (backers a).card + (backers b).card := by
    have ha : (sides.map Side.provider).toFinset.card < (backers a).card * 2 := ha
    have hb : (sides.map Side.provider).toFinset.card < (backers b).card * 2 := hb
    omega
  -- Two sets of more than half of the providers each have one in common.
  obtain ⟨provider, hShared⟩ :=
    Finset.inter_nonempty_of_card_lt_card_add_card (hSubset a) (hSubset b) hCards
  obtain ⟨hA, hB⟩ := Finset.mem_inter.mp hShared
  obtain ⟨x, hx, hxOutput, hxProvider⟩ := hMem a provider hA
  obtain ⟨y, hy, hyOutput, hyProvider⟩ := hMem b provider hB
  exact ⟨x, hx, y, hy, hxOutput, hyOutput, hxProvider.trans hyProvider.symm⟩

theorem uniqueMajority_of_noEquivocation (h : NoEquivocation keccak256 batches) :
    UniqueMajority keccak256 batches := by
  intro slot _ a b ha hb
  obtain ⟨x, hx, y, hy, rfl, rfl, hProvider⟩ := exists_shared_provider ha hb
  exact h (slot, x) (mem_valuesAt.mp hx) (slot, y) (mem_valuesAt.mp hy) rfl hProvider

/-! ## Two outputs with a majority each -/

def smallReceipt (provider outputHash : String) : BatchedReceipt where
  receipt :=
    { jobId := "job-1"
      shardIndex := 0
      providerId := provider
      providerPubkeyB64 := "cHVia2V5"
      outputHash := outputHash
      executedAtUnix := 900
      signature := "c2lnbmF0dXJl"
      teeAttestation := none }
  requesterAddress := "0x0000000000000000000000000000000000000005"
  providerAddress := provider
  valueFtns := 10
  localEscrowId := "escrow-1"
  tierSlashRateBps := 5000
  consensusGroupId := 9

def outputX : String := "1111111111111111111111111111111111111111111111111111111111111111"

def outputY : String := "2222222222222222222222222222222222222222222222222222222222222222"

def smallBatch (batchId : Bytes32) (provider : String) (outputs : List String) : DetectorBatch where
  batchId := batchId
  providerAddress := provider
  consensusGroupId := 9
  receipts := outputs.map (smallReceipt provider)

def dissentBatches : List DetectorBatch :=
  [smallBatch 1 "0x000000000000000000000000000000000000000A" [outputX],
    smallBatch 2 "0x000000000000000000000000000000000000000b" [outputX],
    smallBatch 3 "0x000000000000000000000000000000000000000C" [outputY]]

def equivocatingBatches : List DetectorBatch :=
  [smallBatch 1 "0x000000000000000000000000000000000000000A" [outputX, outputY],
    smallBatch 2 "0x000000000000000000000000000000000000000b" [outputY, outputX]]

instance (batches : List DetectorBatch) : Decidable (Verified batches) :=
  inferInstanceAs (Decidable (∀ a ∈ batches, ∀ b ∈ batches, a.batchId = b.batchId → a = b))

theorem detector_sound_iff_dissentBatches :
    Verified dissentBatches ∧ TargetsMinority polynomialHash dissentBatches := by
  have hVerified : Verified dissentBatches := by decide +kernel
  have hHonest : NoEquivocation polynomialHash dissentBatches := by decide +kernel
  exact ⟨hVerified, (detector_sound_iff polynomialHash dissentBatches hVerified).mpr
    (uniqueMajority_of_noEquivocation hHonest)⟩

/-- The detector reports output `Y` of `equivocatingBatches`, which both providers
back, as a minority. -/
theorem detector_targets_majority_equivocatingBatches :
    ¬ ∀ batches, Verified batches → TargetsMinority polynomialHash batches := by
  intro hClaim
  have hSound := hClaim equivocatingBatches (by decide +kernel)
  have hReported : ∃ f ∈ detectConsensusMismatches polynomialHash equivocatingBatches,
      f.ambiguous = false ∧ IsMajority (slotSides polynomialHash equivocatingBatches f.slot)
        f.minority.outputHash := by
    decide +kernel
  obtain ⟨f, hf, hClear, hMajority⟩ := hReported
  exact hSound.minority f hf hClear hMajority

end Prsm.Settlement
