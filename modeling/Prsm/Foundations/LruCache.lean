import Prsm.Foundations.Dict

/-!
# A dictionary as a cache of what was used last

The order of the entries is the order of use: a used entry moves to the end, and the first
ones leave when there are too many.
-/

namespace Prsm.Foundations.Dict

universe u v

variable {κ : Type u} {α : Type v} [DecidableEq κ]

/-- `d.move_to_end(key)`. -/
def moveToEnd (d : Dict κ α) (key : κ) : Dict κ α :=
  match d.get? key with
  | none => d
  | some value => (d.erase key).set key value

/-- `while len(d) > bound: d.popitem(last=False)`. -/
def keepLast (bound : ℕ) (d : Dict κ α) : Dict κ α :=
  ⟨d.entries.drop (d.entries.length - bound), d.nodup.sublist ((List.drop_sublist _ _).map _)⟩

/-- Assign, as the entry used last, and let the oldest go. -/
def put (bound : ℕ) (d : Dict κ α) (key : κ) (value : α) : Dict κ α :=
  ((d.set key value).moveToEnd key).keepLast bound

/-- The entry of a key, which is then the one used last. -/
def touch (d : Dict κ α) (key : κ) : Dict κ α × Option α :=
  match d.get? key with
  | none => (d, none)
  | some value => (d.moveToEnd key, some value)

theorem get?_moveToEnd (d : Dict κ α) (key key' : κ) :
    (d.moveToEnd key).get? key' = d.get? key' := by
  unfold moveToEnd
  cases hValue : d.get? key with
  | none => rfl
  | some value =>
      show ((d.erase key).set key value).get? key' = d.get? key'
      rw [get?_set, get?_erase]
      by_cases hKey : key' = key
      · rw [if_pos hKey, hKey, hValue]
      · rw [if_neg hKey, if_neg hKey]

@[simp] theorem touch_snd (d : Dict κ α) (key : κ) : (d.touch key).2 = d.get? key := by
  unfold touch
  cases d.get? key <;> rfl

@[simp] theorem get?_touch (d : Dict κ α) (key key' : κ) :
    (d.touch key).1.get? key' = d.get? key' := by
  unfold touch
  cases d.get? key with
  | none => rfl
  | some value => exact get?_moveToEnd d key key'

theorem length_entries_assign (key : κ) (value : α) (entries : List (κ × α)) :
    (assign key value entries).length =
      if key ∈ entries.map Prod.fst then entries.length else entries.length + 1 := by
  have hKeys := congrArg List.length (keys_assign key value entries)
  rw [List.length_map] at hKeys
  rw [hKeys]
  split <;> simp
variable {d : Dict κ α} {bound : ℕ}

theorem length_entries_erase {key : κ} (h : (d.get? key).isSome) :
    (d.erase key).entries.length + 1 = d.entries.length := by
  have hMem : key ∈ d.entries.map Prod.fst := by
    by_contra hNot
    simp [get?_eq_none_iff.mpr hNot] at h
  have hKeys : (d.erase key).entries.map Prod.fst = (d.entries.map Prod.fst).erase key := by
    rw [d.nodup.erase_eq_filter, List.filter_map]
    congr 1
    apply List.filter_congr
    intro entry _
    by_cases hSame : entry.1 = key <;> simp [hSame]
  have hLength := congrArg List.length hKeys
  rw [List.length_map, List.length_erase_of_mem hMem, List.length_map] at hLength
  have hPos : 0 < (d.entries.map Prod.fst).length := List.length_pos_of_mem hMem
  rw [List.length_map] at hPos
  omega

theorem length_entries_moveToEnd (d : Dict κ α) (key : κ) :
    (d.moveToEnd key).entries.length = d.entries.length := by
  unfold moveToEnd
  cases hValue : d.get? key with
  | none => rfl
  | some value =>
      have hErase : (d.erase key).entries.length + 1 = d.entries.length :=
        length_entries_erase (by simp [hValue])
      show ((d.erase key).set key value).entries.length = d.entries.length
      rw [entries_set_of_absent value (get?_erase_self d key), List.length_append]
      exact hErase

theorem length_entries_touch (d : Dict κ α) (key : κ) :
    (d.touch key).1.entries.length = d.entries.length := by
  unfold touch
  cases d.get? key with
  | none => rfl
  | some value => exact length_entries_moveToEnd d key

theorem length_entries_erase_le (d : Dict κ α) (key : κ) :
    (d.erase key).entries.length ≤ d.entries.length :=
  List.length_filter_le _ _

/-- Nothing has to go for the key. -/
def HasRoom (bound : ℕ) (d : Dict κ α) (key : κ) : Prop :=
  (d.get? key).isSome ∨ d.entries.length < bound

instance (bound : ℕ) (d : Dict κ α) (key : κ) : Decidable (d.HasRoom bound key) :=
  inferInstanceAs (Decidable (_ ∨ _))

theorem length_entries_set_le {key : κ} (value : α)
    (hLength : d.entries.length ≤ bound) (hRoom : d.HasRoom bound key) :
    (d.set key value).entries.length ≤ bound := by
  have hAssign := length_entries_assign key value d.entries
  show (assign key value d.entries).length ≤ bound
  rw [hAssign]
  split
  · exact hLength
  · next hNew =>
    rcases hRoom with hOld | hRoom
    · simp [get?_eq_none_iff.mpr hNew] at hOld
    · exact hRoom

omit [DecidableEq κ] in
theorem keepLast_of_le (h : d.entries.length ≤ bound) :
    d.keepLast bound = d := by
  apply ext
  show d.entries.drop (d.entries.length - bound) = d.entries
  rw [Nat.sub_eq_zero_of_le h, List.drop_zero]

theorem put_of_hasRoom {key : κ} (value : α)
    (hLength : d.entries.length ≤ bound) (hRoom : d.HasRoom bound key) :
    d.put bound key value = (d.set key value).moveToEnd key := by
  apply keepLast_of_le
  rw [length_entries_moveToEnd]
  exact length_entries_set_le value hLength hRoom

theorem get?_put {key : κ} (value : α)
    (hLength : d.entries.length ≤ bound) (hRoom : d.HasRoom bound key) (key' : κ) :
    (d.put bound key value).get? key' = if key' = key then some value else d.get? key' := by
  rw [put_of_hasRoom value hLength hRoom, get?_moveToEnd, get?_set]

omit [DecidableEq κ] in
theorem length_entries_keepLast_le (bound : ℕ) (d : Dict κ α) :
    (d.keepLast bound).entries.length ≤ bound := by
  show (List.drop _ _).length ≤ bound
  rw [List.length_drop]
  omega

theorem get?_keepLast_of_full (hPos : 0 < d.entries.length) (key : κ) :
    (d.keepLast (d.entries.length - 1)).get? key =
      if d.entries.head?.map Prod.fst = some key then none else d.get? key := by
  obtain ⟨entries, hNodup⟩ := d
  cases entries with
  | nil => cases hPos
  | cons entry rest =>
      have hRest : ((⟨entry :: rest, hNodup⟩ : Dict κ α).keepLast
          ((entry :: rest).length - 1)).entries = rest := by
        show List.drop _ _ = rest
        rw [List.length_cons, Nat.add_sub_cancel, Nat.add_sub_cancel_left, List.drop_one,
          List.tail_cons]
      show lookup key _ = if some entry.1 = some key then none else lookup key (entry :: rest)
      rw [hRest, lookup]
      by_cases hKey : entry.1 = key
      · rw [if_pos (congrArg some hKey)]
        exact lookup_eq_none_iff.mpr (hKey ▸ (List.nodup_cons.mp hNodup).1)
      · rw [if_neg fun h => hKey (Option.some.inj h), if_neg hKey]

theorem length_entries_put_le (bound : ℕ) (d : Dict κ α) (key : κ) (value : α) :
    (d.put bound key value).entries.length ≤ bound :=
  length_entries_keepLast_le bound _

end Prsm.Foundations.Dict
