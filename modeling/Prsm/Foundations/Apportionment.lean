import Mathlib.Tactic

/-!
# Largest-remainder apportionment

A pot is split in proportion to weights.  Every exact share is rounded down, and
the units left over go one each to the first keys of a ranking.  Whatever the
ranking, the parts add up to the pot, because fewer units are left over than
there are keys.

`equalShares` is the case of equal weights with the positions for the ranking.
-/

namespace Prsm.Foundations.Apportionment

universe u

variable {κ : Type u}

/-- The sum of the values of a list of entries. -/
def weightOf (entries : List (κ × Nat)) : Nat :=
  (entries.map Prod.snd).sum

/-- The exact shares of the pot, rounded down. -/
def floors (pot : Nat) (live : List (κ × Nat)) : List (κ × Nat) :=
  live.map fun entry => (entry.1, pot * entry.2 / weightOf live)

/-- What rounding down leaves of the pot. -/
def leftover (pot : Nat) (live : List (κ × Nat)) : Nat :=
  pot - weightOf (floors pot live)

variable [DecidableEq κ]

/-- One unit more for a key. -/
def bump (entries : List (κ × Nat)) (key : κ) : List (κ × Nat) :=
  entries.map fun entry => if entry.1 = key then (entry.1, entry.2 + 1) else entry

/-- The rounded shares, and one unit more for the first keys of the ranking. -/
def apportion (pot : Nat) (live : List (κ × Nat)) (ranking : List κ) : List (κ × Nat) :=
  (ranking.take (leftover pot live)).foldl bump (floors pot live)

omit [DecidableEq κ] in
@[simp] theorem weightOf_cons (entry : κ × Nat) (rest : List (κ × Nat)) :
    weightOf (entry :: rest) = entry.2 + weightOf rest := rfl

omit [DecidableEq κ] in
@[simp] theorem keys_floors (pot : Nat) (live : List (κ × Nat)) :
    (floors pot live).map Prod.fst = live.map Prod.fst := by
  rw [floors, List.map_map]
  rfl

@[simp] theorem keys_bump (entries : List (κ × Nat)) (key : κ) :
    (bump entries key).map Prod.fst = entries.map Prod.fst := by
  rw [bump, List.map_map]
  refine List.map_congr_left fun entry _ => ?_
  show (if entry.1 = key then (entry.1, entry.2 + 1) else entry).1 = entry.1
  split <;> rfl

theorem keys_foldl_bump (entries : List (κ × Nat)) (keys : List κ) :
    (keys.foldl bump entries).map Prod.fst = entries.map Prod.fst := by
  induction keys generalizing entries with
  | nil => rfl
  | cons key keys ih => rw [List.foldl_cons, ih, keys_bump]

theorem keys_apportion (pot : Nat) (live : List (κ × Nat)) (ranking : List κ) :
    (apportion pot live ranking).map Prod.fst = live.map Prod.fst := by
  rw [apportion, keys_foldl_bump, keys_floors]

theorem weightOf_bump {entries : List (κ × Nat)} {key : κ}
    (hNodup : (entries.map Prod.fst).Nodup) (hKey : key ∈ entries.map Prod.fst) :
    weightOf (bump entries key) = weightOf entries + 1 := by
  have hAbsent : ∀ {rest : List (κ × Nat)}, key ∉ rest.map Prod.fst → bump rest key = rest := by
    intro rest hNot
    have hSame : ∀ entry ∈ rest,
        (if entry.1 = key then (entry.1, entry.2 + 1) else entry) = entry := by
      intro entry hEntry
      refine if_neg fun hEq => hNot ?_
      rw [← hEq]
      exact List.mem_map_of_mem hEntry
    rw [bump, List.map_congr_left hSame, List.map_id']
  induction entries with
  | nil => cases hKey
  | cons entry rest ih =>
      obtain ⟨hFresh, hRest⟩ := List.nodup_cons.mp hNodup
      rcases List.mem_cons.mp hKey with rfl | hKey
      · have hTail := hAbsent hFresh
        show weightOf ((if entry.1 = entry.1 then _ else _) :: bump rest entry.1) = _
        rw [if_pos rfl, hTail, weightOf_cons, weightOf_cons]
        omega
      · have hNe : entry.1 ≠ key := fun hEq => hFresh (hEq ▸ hKey)
        show weightOf ((if entry.1 = key then _ else _) :: bump rest key) = _
        rw [if_neg hNe, weightOf_cons, weightOf_cons, ih hRest hKey]
        omega

theorem weightOf_foldl_bump {entries : List (κ × Nat)} {keys : List κ}
    (hNodup : (entries.map Prod.fst).Nodup) (hKeys : ∀ key ∈ keys, key ∈ entries.map Prod.fst) :
    weightOf (keys.foldl bump entries) = weightOf entries + keys.length := by
  induction keys generalizing entries with
  | nil => rfl
  | cons key keys ih =>
      have hSame := keys_bump entries key
      rw [List.foldl_cons, ih (hSame.symm ▸ hNodup), weightOf_bump hNodup (hKeys key (by simp)),
        List.length_cons]
      · omega
      · intro other hOther
        rw [hSame]
        exact hKeys other (List.mem_cons_of_mem _ hOther)

omit [DecidableEq κ] in
theorem sum_floors_add_sum_mod (pot weight : Nat) (entries : List (κ × Nat)) :
    weight * weightOf (entries.map fun entry => (entry.1, pot * entry.2 / weight)) +
      (entries.map fun entry => pot * entry.2 % weight).sum = pot * weightOf entries := by
  induction entries with
  | nil => simp [weightOf]
  | cons entry rest ih =>
      have hDiv := Nat.div_add_mod (pot * entry.2) weight
      rw [List.map_cons, weightOf_cons, List.map_cons, List.sum_cons, weightOf_cons, Nat.mul_add,
        Nat.mul_add]
      show weight * (pot * entry.2 / weight) + _ + (pot * entry.2 % weight + _) = _
      omega

omit [DecidableEq κ] in
theorem leftover_spec {pot : Nat} {live : List (κ × Nat)} (hWeight : 0 < weightOf live) :
    weightOf (floors pot live) + leftover pot live = pot ∧ leftover pot live ≤ live.length := by
  have hSum := sum_floors_add_sum_mod pot (weightOf live) live
  change weightOf live * weightOf (floors pot live) + _ = _ at hSum
  have hMod : (live.map fun entry => pot * entry.2 % weightOf live).sum
      ≤ live.length * weightOf live := by
    refine (List.sum_le_card_nsmul _ (weightOf live) ?_).trans_eq (by simp)
    intro r hr
    obtain ⟨entry, -, rfl⟩ := List.mem_map.mp hr
    exact (Nat.mod_lt _ hWeight).le
  have hWithin : weightOf (floors pot live) ≤ pot := by
    refine Nat.le_of_mul_le_mul_left ?_ hWeight
    rw [Nat.mul_comm (weightOf live) pot]
    omega
  refine ⟨Nat.add_sub_of_le hWithin, Nat.le_of_mul_le_mul_left ?_ hWeight⟩
  rw [leftover, Nat.mul_sub, Nat.mul_comm (weightOf live) pot,
    Nat.mul_comm (weightOf live) live.length]
  omega

theorem weightOf_apportion {pot : Nat} {live : List (κ × Nat)} {ranking : List κ}
    (hNodup : (live.map Prod.fst).Nodup) (hWeight : 0 < weightOf live)
    (hRanking : ∀ key ∈ ranking, key ∈ live.map Prod.fst)
    (hLength : ranking.length = live.length) :
    weightOf (apportion pot live ranking) = pot := by
  obtain ⟨hSum, hFew⟩ := @leftover_spec κ pot live hWeight
  rw [apportion, weightOf_foldl_bump, List.length_take, hLength, Nat.min_eq_left hFew, hSum]
  · rw [keys_floors]
    exact hNodup
  · intro key hKey
    rw [keys_floors]
    exact hRanking key (List.mem_of_mem_take hKey)

/-! ## Each part -/

theorem foldl_bump_eq_map {keys : List κ} (hNodup : keys.Nodup) (entries : List (κ × Nat)) :
    keys.foldl bump entries =
      entries.map fun entry => (entry.1, entry.2 + if entry.1 ∈ keys then 1 else 0) := by
  induction keys generalizing entries with
  | nil => simp
  | cons key keys ih =>
      obtain ⟨hNew, hRest⟩ := List.nodup_cons.mp hNodup
      rw [List.foldl_cons, ih hRest, bump, List.map_map]
      refine List.map_congr_left fun entry _ => ?_
      by_cases hEq : entry.1 = key
      · simp [hEq, hNew]
      · simp [hEq]

theorem apportion_eq_map {ranking : List κ} (hNodup : ranking.Nodup) (pot : Nat)
    (live : List (κ × Nat)) :
    apportion pot live ranking = live.map fun entry =>
      (entry.1, pot * entry.2 / weightOf live +
        if entry.1 ∈ ranking.take (leftover pot live) then 1 else 0) := by
  rw [apportion, foldl_bump_eq_map (hNodup.sublist (List.take_sublist _ _)), floors, List.map_map]
  rfl

omit [DecidableEq κ] in
theorem rel_of_mem_take {R : κ → κ → Prop} {l : List κ} (h : l.Pairwise R) {n : Nat} {a b : κ}
    (ha : a ∈ l.take n) (hb : b ∈ l) (hLate : b ∉ l.take n) : R a b := by
  rw [← List.take_append_drop n l] at h hb
  exact (List.pairwise_append.mp h).2.2 a ha b ((List.mem_append.mp hb).resolve_left hLate)

omit [DecidableEq κ] in
theorem weightOf_perm {live live' : List (κ × Nat)} (h : live.Perm live') :
    weightOf live = weightOf live' :=
  (h.map Prod.snd).sum_eq

omit [DecidableEq κ] in
theorem leftover_perm {live live' : List (κ × Nat)} (h : live.Perm live') (pot : Nat) :
    leftover pot live = leftover pot live' := by
  rw [leftover, leftover, floors, floors, weightOf_perm h, weightOf_perm (h.map _)]

/-! ## Equal shares -/

/-- The pot in equal shares, where the first positions take the remainder. -/
def equalShares (pot count : Nat) : List Nat :=
  (List.range count).map fun i => pot / count + if i < pot % count then 1 else 0

@[simp] theorem length_equalShares (pot count : Nat) : (equalShares pot count).length = count := by
  rw [equalShares, List.length_map, List.length_range]

theorem sum_range_ite_lt (bound count : Nat) :
    ((List.range count).map fun i => if i < bound then 1 else 0).sum = min bound count := by
  induction count with
  | zero => simp
  | succ count ih =>
      rw [List.range_succ, List.map_append, List.sum_append, ih, List.map_singleton,
        List.sum_singleton]
      split <;> omega

theorem sum_equalShares (pot : Nat) {count : Nat} (hCount : 0 < count) :
    (equalShares pot count).sum = pot := by
  have hMod : pot % count < count := Nat.mod_lt pot hCount
  have hDiv : count * (pot / count) + pot % count = pot := Nat.div_add_mod pot count
  rw [equalShares, List.sum_map_add, sum_range_ite_lt, Nat.min_eq_left hMod.le]
  simpa using hDiv

theorem equalShares_bounds {pot count share : Nat} (h : share ∈ equalShares pot count) :
    pot / count ≤ share ∧ share ≤ pot / count + 1 := by
  obtain ⟨i, -, rfl⟩ := List.mem_map.mp h
  show pot / count ≤ pot / count + _ ∧ pot / count + _ ≤ pot / count + 1
  split <;> omega

end Prsm.Foundations.Apportionment
