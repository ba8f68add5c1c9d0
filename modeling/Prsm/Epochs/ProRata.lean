import Prsm.Epochs.Planning

/-!
# What the split of the pot is

Rounding and dropping repeat until every account has a share.  The accounts that are left are
the heaviest ones, their shares are those of a single apportionment among them, and none of
this depends on the order of the weights.
-/

namespace Prsm.Epochs

open Foundations Foundations.Apportionment

/-! ## One round -/

section Round

variable {pot : Nat} {live live' : List (String × Nat)}

/-- The remainders in the order of the ranking. -/
def rankedRemainders (pot : Nat) (live : List (String × Nat)) : List (Int × String) :=
  sortBy (fun r => toLex (-r.1, r.2))
    (live.map fun (acct, w) => ((pot : Int) * w % weightOf live, acct))

theorem ranking_eq (pot : Nat) (live : List (String × Nat)) :
    ranking pot live = (rankedRemainders pot live).map Prod.snd := rfl

theorem ranking_perm (pot : Nat) (live : List (String × Nat)) :
    (ranking pot live).Perm (live.map Prod.fst) := by
  have hSorted : (rankedRemainders pot live).Perm _ := List.perm_insertionSort _ _
  have hNames := hSorted.map Prod.snd
  rw [List.map_map] at hNames
  exact hNames

theorem remainder_le {n : Nat} {a b : String × Nat} (hNodup : (live.map Prod.fst).Nodup)
    (ha : a ∈ live) (hb : b ∈ live) (hFirst : a.1 ∈ (ranking pot live).take n)
    (hLate : b.1 ∉ (ranking pot live).take n) :
    pot * b.2 % weightOf live ≤ pot * a.2 % weightOf live := by
  have hTake : (ranking pot live).take n = ((rankedRemainders pot live).take n).map Prod.snd := by
    rw [ranking_eq, List.map_take]
  have hMem : ∀ {r : Int × String}, r ∈ rankedRemainders pot live →
      ∃ entry ∈ live, r = ((pot : Int) * entry.2 % weightOf live, entry.1) := by
    intro r hr
    obtain ⟨entry, hEntry, rfl⟩ := List.mem_map.mp (mem_sortBy.mp hr)
    exact ⟨entry, hEntry, rfl⟩
  rw [hTake] at hFirst hLate
  obtain ⟨r, hr, hName⟩ := List.mem_map.mp hFirst
  obtain ⟨entry, hEntry, rfl⟩ := hMem (List.mem_of_mem_take hr)
  obtain rfl : entry = a := List.inj_on_of_nodup_map hNodup hEntry ha hName
  have hOther : ((pot : Int) * b.2 % weightOf live, b.1) ∈ rankedRemainders pot live :=
    mem_sortBy.mpr (List.mem_map.mpr ⟨b, hb, rfl⟩)
  have hBehind := rel_of_mem_take (pairwise_sortBy _ _) hr hOther fun hMem =>
    hLate (List.mem_map_of_mem hMem)
  have hLe : -((pot : Int) * entry.2 % weightOf live) ≤ -((pot : Int) * b.2 % weightOf live) :=
    Prod.Lex.monotone_fst _ _ hBehind
  have hLe := neg_le_neg_iff.mp hLe
  exact_mod_cast hLe

theorem ranking_congr (hPerm : live.Perm live') : ranking pot live = ranking pot live' := by
  have hSame : rankedRemainders pot live = rankedRemainders pot live' := by
    unfold rankedRemainders
    rw [weightOf_perm hPerm]
    refine sortBy_eq_of_perm _ (hPerm.map _) ?_
    intro r _ s _ hKey
    obtain ⟨hRemainder, hName⟩ := Prod.mk.inj (toLex.injective hKey)
    exact Prod.ext (by omega) hName
  rw [ranking_eq, ranking_eq, hSame]

/-- The share of an account in one round. -/
def shareOf (pot : Nat) (live : List (String × Nat)) (entry : String × Nat) : Nat :=
  pot * entry.2 / weightOf live +
    if entry.1 ∈ (ranking pot live).take (leftover pot live) then 1 else 0

theorem allocateRound_eq (hNodup : (live.map Prod.fst).Nodup) (pot : Nat) :
    allocateRound pot live = live.map fun entry => (entry.1, shareOf pot live entry) :=
  apportion_eq_map ((ranking_perm pot live).nodup_iff.mpr hNodup) pot live

theorem shareOf_congr (hPerm : live.Perm live') (pot : Nat) :
    shareOf pot live = shareOf pot live' := by
  funext entry
  rw [shareOf, shareOf, weightOf_perm hPerm, ranking_congr hPerm, leftover_perm hPerm]

theorem allocateRound_perm (hNodup : (live.map Prod.fst).Nodup) (hPerm : live.Perm live') :
    (allocateRound pot live).Perm (allocateRound pot live') := by
  rw [allocateRound_eq hNodup, allocateRound_eq ((hPerm.map _).nodup_iff.mp hNodup),
    shareOf_congr hPerm]
  exact hPerm.map _

theorem shareOf_mono {a b : String × Nat} (hPot : 0 < pot)
    (hNodup : (live.map Prod.fst).Nodup) (ha : a ∈ live) (hb : b ∈ live) (hLess : a.2 < b.2) :
    shareOf pot live a ≤ shareOf pot live b := by
  have hFloors : pot * a.2 / weightOf live ≤ pot * b.2 / weightOf live :=
    Nat.div_le_div_right (Nat.mul_le_mul_left pot hLess.le)
  unfold shareOf
  by_cases hSame : pot * a.2 / weightOf live = pot * b.2 / weightOf live
  · by_cases hFirst : a.1 ∈ (ranking pot live).take (leftover pot live)
    · -- with one quotient, the larger weight has the larger remainder and is served first
      have hLater : b.1 ∈ (ranking pot live).take (leftover pot live) := by
        by_contra hLate
        have hRemainders := remainder_le hNodup ha hb hFirst hLate
        have hDivA := Nat.div_add_mod (pot * a.2) (weightOf live)
        have hDivB := Nat.div_add_mod (pot * b.2) (weightOf live)
        have hProducts : pot * a.2 < pot * b.2 := Nat.mul_lt_mul_of_pos_left hLess hPot
        rw [hSame] at hDivA
        omega
      rw [if_pos hFirst, if_pos hLater, hSame]
    · rw [if_neg hFirst]
      omega
  · split <;> omega

theorem shareOf_quota (hWeight : 0 < weightOf live) (entry : String × Nat) :
    |(shareOf pot live entry : ℚ) - pot * entry.2 / weightOf live| ≤ 1 := by
  have hDiv := Nat.div_add_mod (pot * entry.2) (weightOf live)
  have hMod := Nat.mod_lt (pot * entry.2) hWeight
  have hPos : (0 : ℚ) < weightOf live := by exact_mod_cast hWeight
  have hShare : pot * entry.2 / weightOf live ≤ shareOf pot live entry ∧
      shareOf pot live entry ≤ pot * entry.2 / weightOf live + 1 := by
    unfold shareOf
    split <;> omega
  have hLow : pot * entry.2 ≤ (shareOf pot live entry + 1) * weightOf live := by
    calc pot * entry.2 ≤ (pot * entry.2 / weightOf live + 1) * weightOf live := by
          rw [Nat.add_mul, Nat.mul_comm (_ / _)]
          omega
      _ ≤ _ := Nat.mul_le_mul_right _ (by omega)
  have hHigh : shareOf pot live entry * weightOf live ≤ pot * entry.2 + weightOf live := by
    calc shareOf pot live entry * weightOf live
        ≤ (pot * entry.2 / weightOf live + 1) * weightOf live := Nat.mul_le_mul_right _ hShare.2
      _ ≤ _ := by
          rw [Nat.add_mul, Nat.mul_comm (_ / _)]
          omega
  have hLow : (pot * entry.2 : ℚ) ≤ (shareOf pot live entry + 1) * weightOf live := by
    exact_mod_cast hLow
  have hHigh : (shareOf pot live entry * weightOf live : ℚ) ≤ pot * entry.2 + weightOf live := by
    exact_mod_cast hHigh
  rw [abs_le]
  constructor
  · rw [neg_le_sub_iff_le_add, div_le_iff₀ hPos]
    linarith
  · rw [sub_le_iff_le_add, ← sub_le_iff_le_add', le_div_iff₀ hPos]
    linarith

end Round

/-! ## The rounds together -/

/-- The accounts left at the end, with what they get. -/
structure Survivors (pot : Nat) (live final allocation : List (String × Nat)) : Prop where
  sublist : final.Sublist live
  allocated : allocation = allocateRound pot final
  served : zeroShares allocation = []
  heaviest : ∀ dropped ∈ live, dropped ∉ final → ∀ kept ∈ final, dropped.2 ≤ kept.2

theorem weight_le_of_zeroShares {pot : Nat} {live : List (String × Nat)} {a b : String × Nat}
    (hPot : 0 < pot) (hNodup : (live.map Prod.fst).Nodup) (ha : a ∈ live) (hb : b ∈ live)
    (hNone : a.1 ∈ zeroShares (allocateRound pot live))
    (hSome : b.1 ∉ zeroShares (allocateRound pot live)) : a.2 ≤ b.2 := by
  have hShare : ∀ entry ∈ live, entry.1 ∈ zeroShares (allocateRound pot live) ↔
      shareOf pot live entry = 0 := by
    intro entry hEntry
    rw [allocateRound_eq hNodup, mem_zeroShares]
    constructor
    · rintro ⟨_, hMem, hZero, hName⟩
      obtain ⟨other, hOther, rfl⟩ := List.mem_map.mp hMem
      rwa [← List.inj_on_of_nodup_map hNodup hOther hEntry hName]
    · exact fun hZero => ⟨_, List.mem_map_of_mem hEntry, hZero, rfl⟩
  rw [hShare a ha] at hNone
  rw [hShare b hb] at hSome
  by_contra hHeavier
  have hMono := shareOf_mono hPot hNodup hb ha (not_le.mp hHeavier)
  omega

theorem exists_survivors {pot rounds : Nat} {live allocation : List (String × Nat)}
    (hPot : 0 < pot) (hNodup : (live.map Prod.fst).Nodup)
    (h : allocateLoop pot rounds live = some allocation) (hSome : allocation ≠ []) :
    ∃ final, Survivors pot live final allocation := by
  induction rounds generalizing live with
  | zero => exact absurd (Option.some.inj h).symm hSome
  | succ rounds ih =>
      rw [allocateLoop] at h
      dsimp only at h
      split at h
      case isTrue hServed =>
        split at h
        · cases h
          exact ⟨live, .refl _, rfl, hServed, fun dropped hIn hOut => absurd hIn hOut⟩
        · cases h
      case isFalse =>
        split at h
        · exact absurd (Option.some.inj h).symm hSome
        · obtain ⟨final, hFinal⟩ := ih (hNodup.sublist (List.filter_sublist.map _)) h
          refine ⟨final, hFinal.sublist.trans List.filter_sublist, hFinal.allocated,
            hFinal.served, fun dropped hIn hOut kept hKept => ?_⟩
          obtain ⟨hLive, hShare⟩ := List.mem_filter.mp (hFinal.sublist.subset hKept)
          have hShare : kept.1 ∉ zeroShares (allocateRound pot live) := by simpa using hShare
          -- an account is dropped in this round or in a later one
          by_cases hNow : dropped.1 ∈ zeroShares (allocateRound pot live)
          · exact weight_le_of_zeroShares hPot hNodup hIn hLive hNow hShare
          · exact hFinal.heaviest dropped (List.mem_filter.mpr ⟨hIn, by simpa using hNow⟩) hOut
              kept hKept

theorem allocateLoop_perm {pot rounds : Nat} {live live' : List (String × Nat)}
    (hNodup : (live.map Prod.fst).Nodup) (hPerm : live.Perm live') :
    Option.Rel List.Perm (allocateLoop pot rounds live) (allocateLoop pot rounds live') := by
  induction rounds generalizing live live' with
  | zero => exact .some (.refl _)
  | succ rounds ih =>
      have hRound : (allocateRound pot live).Perm (allocateRound pot live') :=
        allocateRound_perm hNodup hPerm
      have hZeros : (zeroShares (allocateRound pot live)).Perm
          (zeroShares (allocateRound pot live')) := (hRound.filter _).map _
      have hNone : zeroShares (allocateRound pot live) = [] ↔
          zeroShares (allocateRound pot live') = [] := by
        rw [← List.isEmpty_iff, ← List.isEmpty_iff, hZeros.isEmpty_eq]
      have hRest : (live.filter fun entry => entry.1 ∉ zeroShares (allocateRound pot live)).Perm
          (live'.filter fun entry => entry.1 ∉ zeroShares (allocateRound pot live')) := by
        simp only [hZeros.mem_iff]
        exact hPerm.filter _
      rw [allocateLoop, allocateLoop]
      simp only [hNone, weightOf_perm hRound]
      split
      · split
        · exact .some hRound
        · exact .none
      · have hEnd : (live.filter fun entry =>
            entry.1 ∉ zeroShares (allocateRound pot live)) = [] ↔
            (live'.filter fun entry => entry.1 ∉ zeroShares (allocateRound pot live')) = [] := by
          rw [← List.isEmpty_iff, ← List.isEmpty_iff, hRest.isEmpty_eq]
        simp only [hEnd]
        split
        · exact .some (.refl _)
        · exact ih (hNodup.sublist (List.filter_sublist.map _)) hRest

/-- The accounts with a positive weight. -/
def liveWeights (weights : Dict String Int) : List (String × Nat) :=
  (weights.entries.filter fun entry => 0 < entry.2).map fun entry => (entry.1, entry.2.toNat)

theorem nodup_liveWeights (weights : Dict String Int) :
    ((liveWeights weights).map Prod.fst).Nodup := by
  rw [liveWeights, List.map_map]
  exact weights.nodup.sublist (List.filter_sublist.map Prod.fst)

theorem liveWeights_pos (weights : Dict String Int) :
    ∀ entry ∈ liveWeights weights, 0 < entry.2 := by
  intro entry hEntry
  obtain ⟨source, hSource, rfl⟩ := List.mem_map.mp hEntry
  have hPos : 0 < source.2 := by simpa using (List.mem_filter.mp hSource).2
  show 0 < source.2.toNat
  omega

/-- The shares that `final`, the accounts left of `live`, get of the pot. -/
structure ProRata (pot : Nat) (live final allocation : List (String × Nat)) : Prop where
  accounts : allocation.map Prod.fst = final.map Prod.fst
  sublist : final.Sublist live
  sum_eq : allocation ≠ [] → weightOf allocation = pot
  positive : ∀ entry ∈ allocation, 1 ≤ entry.2
  length_le : allocation.length ≤ pot
  quota : ∀ entry ∈ final, ∀ share, (entry.1, share) ∈ allocation →
    |(share : ℚ) - pot * entry.2 / weightOf final| ≤ 1
  monotone : ∀ a ∈ final, ∀ b ∈ final, a.2 < b.2 → ∀ share share', (a.1, share) ∈ allocation →
    (b.1, share') ∈ allocation → share ≤ share'
  heaviest : ∀ dropped ∈ live, dropped ∉ final → ∀ kept ∈ final, dropped.2 ≤ kept.2

theorem proRata_nil (pot : Nat) (live : List (String × Nat)) : ProRata pot live [] [] := by
  constructor <;> simp

theorem Survivors.proRata {pot : Nat} {live final allocation : List (String × Nat)}
    (h : Survivors pot live final allocation) (hPot : 0 < pot)
    (hNodup : (live.map Prod.fst).Nodup) (hPositive : ∀ entry ∈ live, 0 < entry.2)
    (hSplits : Splits pot live allocation) : ProRata pot live final allocation := by
  have hNodupFinal : (final.map Prod.fst).Nodup := hNodup.sublist (h.sublist.map _)
  have hRound := h.allocated.trans (allocateRound_eq hNodupFinal pot)
  have hShare : ∀ entry ∈ final, ∀ share, (entry.1, share) ∈ allocation →
      share = shareOf pot final entry := by
    intro entry hEntry share hMem
    rw [hRound] at hMem
    obtain ⟨other, hOther, hSame⟩ := List.mem_map.mp hMem
    obtain ⟨hName, rfl⟩ := Prod.mk.inj hSame
    rw [List.inj_on_of_nodup_map hNodupFinal hOther hEntry hName]
  refine ⟨?_, h.sublist, fun _ => hSplits.sum_eq, hSplits.positive, ?_, ?_, ?_, h.heaviest⟩
  · rw [hRound, List.map_map]
    rfl
  · -- each account has a unit of the pot
    calc allocation.length = (allocation.map fun _ => 1).sum := by simp
      _ ≤ weightOf allocation := List.sum_le_sum hSplits.positive
      _ = pot := hSplits.sum_eq
  · intro entry hEntry share hMem
    have hWeight : 0 < weightOf final := weightOf_pos (List.ne_nil_of_mem hEntry)
      fun other hOther => hPositive other (h.sublist.subset hOther)
    rw [hShare entry hEntry share hMem]
    exact shareOf_quota hWeight entry
  · intro a ha b hb hLess share share' hMem hMem'
    rw [hShare a ha share hMem, hShare b hb share' hMem']
    exact shareOf_mono hPot hNodupFinal ha hb hLess

/-- A pot that is not negative is split pro rata, whatever the order of the weights. -/
theorem allocateProRata_fair (weights : Dict String Int) (potWei : Int) (hPot : 0 ≤ potWei) :
    ∃ allocation final, allocateProRata weights potWei = some allocation ∧
      ProRata potWei.toNat (liveWeights weights) final allocation ∧
      (allocation = [] ↔ liveWeights weights = [] ∨ potWei = 0) ∧
      ∀ weights' : Dict String Int, weights.entries.Perm weights'.entries →
        ∃ allocation', allocateProRata weights' potWei = some allocation' ∧
          allocation.Perm allocation' := by
  have hRun : ∀ weights : Dict String Int, allocateProRata weights potWei =
      if liveWeights weights = [] ∨ potWei = 0 then some []
      else allocateLoop potWei.toNat (liveWeights weights).length (liveWeights weights) :=
    fun weights => if_neg (by omega)
  have hLive : ∀ {weights' : Dict String Int}, weights.entries.Perm weights'.entries →
      (liveWeights weights).Perm (liveWeights weights') := fun hPerm => (hPerm.filter _).map _
  by_cases hEmpty : liveWeights weights = [] ∨ potWei = 0
  · refine ⟨[], [], (hRun weights).trans (if_pos hEmpty), proRata_nil _ _,
      iff_of_true rfl hEmpty, fun weights' hPerm => ⟨[], ?_, .refl _⟩⟩
    rw [hRun, if_pos]
    refine hEmpty.imp_left fun hNone => ?_
    have hPerm := hLive hPerm
    rw [hNone] at hPerm
    exact hPerm.nil_eq.symm
  · obtain ⟨hSome, hNonzero⟩ := not_or.mp hEmpty
    have hPos : 0 < potWei.toNat := by omega
    obtain ⟨allocation, hLoop, hSplits⟩ := allocateLoop_spec hPos hSome
      (nodup_liveWeights weights) (liveWeights_pos weights) (le_refl _)
    have hServed : allocation ≠ [] := by
      rintro rfl
      have hSum := hSplits.sum_eq
      exact absurd hSum (by simp [weightOf]; omega)
    obtain ⟨final, hFinal⟩ := exists_survivors hPos (nodup_liveWeights weights) hLoop hServed
    refine ⟨allocation, final, (hRun weights).trans ((if_neg hEmpty).trans hLoop),
      hFinal.proRata hPos (nodup_liveWeights weights) (liveWeights_pos weights) hSplits,
      iff_of_false hServed hEmpty,
      fun weights' hPerm => ?_⟩
    have hPerm := hLive hPerm
    have hEmpty' : ¬ (liveWeights weights' = [] ∨ potWei = 0) := by
      refine not_or.mpr ⟨fun hNone => hSome ?_, hNonzero⟩
      rw [hNone] at hPerm
      exact hPerm.eq_nil
    have hRel := @allocateLoop_perm potWei.toNat (liveWeights weights).length _ _
      (nodup_liveWeights weights) hPerm
    rw [hLoop, hPerm.length_eq] at hRel
    rw [hRun, if_neg hEmpty']
    cases hOther : allocateLoop potWei.toNat (liveWeights weights').length
        (liveWeights weights') with
    | none =>
        rw [hOther] at hRel
        cases hRel
    | some allocation' =>
        rw [hOther] at hRel
        cases hRel with
        | some hSame => exact ⟨allocation', rfl, hSame⟩

theorem allocateProRata_fair_tie :
    ∃ allocation final,
      allocateProRata (Dict.ofEntries [("0xb", 1), ("0xa", 1), ("0xc", 2)]) 2 = some allocation ∧
      ProRata 2 (liveWeights (Dict.ofEntries [("0xb", 1), ("0xa", 1), ("0xc", 2)])) final
        allocation :=
  let ⟨allocation, final, hRun, hSplit, _⟩ := allocateProRata_fair
    (Dict.ofEntries [("0xb", 1), ("0xa", 1), ("0xc", 2)]) 2 (by decide)
  ⟨allocation, final, hRun, hSplit⟩

end Prsm.Epochs
