import Mathlib.Tactic

/-!
# Grouping into an insertion-ordered dictionary

`groupByKey` is the loop `for (k, v) in entries: d.setdefault(k, []).append(v)`
over a dictionary that remembers the order in which its keys were first
inserted.  The order of the keys depends on the order of the entries; what is
stored at a key is the list of its values.
-/

namespace Prsm.Foundations

universe u v w

variable {κ : Type u} {α : Type v} {β : Type w} [DecidableEq κ]

/-- `d.setdefault(key, []).append(value)`. -/
def pushValue (key : κ) (value : α) : List (κ × List α) → List (κ × List α)
  | [] => [(key, [value])]
  | (k, values) :: d =>
      if k = key then (k, values ++ [value]) :: d else (k, values) :: pushValue key value d

/-- The dictionary after all entries have been pushed. -/
def groupByKey (entries : List (κ × α)) : List (κ × List α) :=
  entries.foldl (fun d entry => pushValue entry.1 entry.2 d) []

/-- The values that the entries hold for a key, in order. -/
def valuesAt (entries : List (κ × α)) (key : κ) : List α :=
  (entries.filter fun entry => entry.1 = key).map Prod.snd

@[simp] theorem valuesAt_nil (key : κ) : valuesAt ([] : List (κ × α)) key = [] := rfl

@[simp] theorem valuesAt_cons_self (key : κ) (value : α) (rest : List (κ × α)) :
    valuesAt ((key, value) :: rest) key = value :: valuesAt rest key := by
  simp [valuesAt]

theorem valuesAt_cons_of_ne {key other : κ} (value : α) (rest : List (κ × α))
    (hNe : key ≠ other) : valuesAt ((key, value) :: rest) other = valuesAt rest other := by
  simp [valuesAt, hNe]
variable {entries : List (κ × α)} {d : List (κ × List α)}

theorem mem_valuesAt {key : κ} {value : α} :
    value ∈ valuesAt entries key ↔ (key, value) ∈ entries := by
  simp [valuesAt]

theorem valuesAt_append (entries entries' : List (κ × α)) (key : κ) :
    valuesAt (entries ++ entries') key = valuesAt entries key ++ valuesAt entries' key := by
  simp [valuesAt]

theorem valuesAt_perm {entries entries' : List (κ × α)} (h : entries.Perm entries') (key : κ) :
    (valuesAt entries key).Perm (valuesAt entries' key) :=
  (h.filter _).map _

/-- The keys of the dictionary are distinct, and each holds its values. -/
structure Groups (entries : List (κ × α)) (d : List (κ × List α)) : Prop where
  nodup : (d.map Prod.fst).Nodup
  values_eq : ∀ group ∈ d, group.2 = valuesAt entries group.1
  mem_keys : ∀ key, key ∈ d.map Prod.fst ↔ valuesAt entries key ≠ []

theorem pushValue_keys (key : κ) (value : α) (d : List (κ × List α)) :
    (pushValue key value d).map Prod.fst =
      if key ∈ d.map Prod.fst then d.map Prod.fst else d.map Prod.fst ++ [key] := by
  induction d with
  | nil => rfl
  | cons group d ih =>
      obtain ⟨k, values⟩ := group
      simp only [pushValue, List.map_cons, List.mem_cons]
      by_cases hk : k = key
      · simp [hk]
      · have hk' : ¬ key = k := fun h => hk h.symm
        simp only [hk, hk', if_false, List.map_cons, ih, false_or]
        split <;> rfl

theorem mem_pushValue {key : κ} {value : α}
    (hNodup : (d.map Prod.fst).Nodup) {group : κ × List α} (h : group ∈ pushValue key value d) :
    (group ∈ d ∧ group.1 ≠ key) ∨
      (∃ values, (key, values) ∈ d ∧ group = (key, values ++ [value])) ∨
      (key ∉ d.map Prod.fst ∧ group = (key, [value])) := by
  induction d with
  | nil =>
      simp only [pushValue, List.mem_singleton] at h
      exact .inr (.inr ⟨by simp, h⟩)
  | cons first d ih =>
      obtain ⟨k, values⟩ := first
      simp only [List.map_cons, List.nodup_cons] at hNodup
      obtain ⟨hFirst, hRest⟩ := hNodup
      by_cases hk : k = key
      · subst hk
        simp only [pushValue, if_true, List.mem_cons] at h
        rcases h with rfl | hOld
        · exact .inr (.inl ⟨values, List.mem_cons_self, rfl⟩)
        · refine .inl ⟨List.mem_cons_of_mem _ hOld, ?_⟩
          rintro rfl
          exact hFirst (List.mem_map_of_mem hOld)
      · -- The push goes past this group into the rest.
        simp only [pushValue, hk, if_false, List.mem_cons] at h
        rcases h with rfl | hOld
        · exact .inl ⟨List.mem_cons_self, hk⟩
        · rcases ih hRest hOld with ⟨hMem, hNe⟩ | ⟨values', hMem, hEq⟩ | ⟨hNew, hEq⟩
          · exact .inl ⟨List.mem_cons_of_mem _ hMem, hNe⟩
          · exact .inr (.inl ⟨values', List.mem_cons_of_mem _ hMem, hEq⟩)
          · refine .inr (.inr ⟨?_, hEq⟩)
            simp only [List.map_cons, List.mem_cons, not_or]
            exact ⟨fun h => hk h.symm, hNew⟩

theorem Groups.push (hd : Groups entries d)
    (key : κ) (value : α) : Groups (entries ++ [(key, value)]) (pushValue key value d) := by
  have hSame : valuesAt (entries ++ [(key, value)]) key = valuesAt entries key ++ [value] := by
    rw [valuesAt_append]
    simp [valuesAt]
  have hOther : ∀ other, other ≠ key →
      valuesAt (entries ++ [(key, value)]) other = valuesAt entries other := by
    intro other hNe
    rw [valuesAt_append]
    simp [valuesAt, Ne.symm hNe]
  refine ⟨?_, ?_, ?_⟩
  · rw [pushValue_keys]
    split
    · exact hd.nodup
    case isFalse hNew =>
      rw [List.nodup_append]
      refine ⟨hd.nodup, List.nodup_singleton key, ?_⟩
      rintro a ha b hb rfl
      exact hNew (by rwa [List.mem_singleton.mp hb] at ha)
  · intro group hGroup
    rcases mem_pushValue hd.nodup hGroup with ⟨hMem, hNe⟩ | ⟨values, hMem, rfl⟩ | ⟨hNew, rfl⟩
    · rw [hOther _ hNe]
      exact hd.values_eq group hMem
    · rw [hSame]
      exact congrArg (· ++ [value]) (hd.values_eq _ hMem)
    · have hEmpty : valuesAt entries key = [] := by
        by_contra hSome
        exact hNew ((hd.mem_keys key).mpr hSome)
      simp only [hSame, hEmpty, List.nil_append]
  · intro other
    rw [pushValue_keys]
    by_cases hKey : other = key
    · subst hKey
      rw [hSame]
      split
      case isTrue hOld => simp [hOld]
      case isFalse => simp
    · rw [hOther other hKey, ← hd.mem_keys]
      split
      · rfl
      · simp [hKey]

theorem groupByKey_groups (entries : List (κ × α)) : Groups entries (groupByKey entries) := by
  induction entries using List.reverseRecOn with
  | nil => exact ⟨List.nodup_nil, by simp [groupByKey], by simp [groupByKey, valuesAt]⟩
  | append_singleton entries entry ih =>
      rw [groupByKey, List.foldl_append]
      exact ih.push entry.1 entry.2

/-- Collecting results group by group, and keeping those that only one key can
produce, gives the results of that key. -/
theorem Groups.filter_flatMap
    (hd : Groups entries d) (f : κ → List α → List β) (key : κ) (p : β → Bool)
    (hEmpty : f key [] = [])
    (hOther : ∀ other, other ≠ key → ∀ values, ∀ b ∈ f other values, p b = false) :
    (d.flatMap fun group => f group.1 group.2).filter p =
      (f key (valuesAt entries key)).filter p := by
  have hAbsent : ∀ d : List (κ × List α), key ∉ d.map Prod.fst →
      (d.flatMap fun group => f group.1 group.2).filter p = [] := by
    intro d hNot
    rw [List.filter_eq_nil_iff]
    intro b hb
    obtain ⟨group, hGroup, hb⟩ := List.mem_flatMap.mp hb
    have hNe : group.1 ≠ key := by
      rintro rfl
      exact hNot (List.mem_map_of_mem hGroup)
    simp [hOther group.1 hNe group.2 b hb]
  by_cases hKey : key ∈ d.map Prod.fst
  · obtain ⟨group, hGroup, rfl⟩ := List.mem_map.mp hKey
    -- The keys are distinct, so the groups before and after hold other keys.
    obtain ⟨before, after, rfl⟩ := List.append_of_mem hGroup
    have hNodup := hd.nodup
    rw [List.map_append, List.map_cons, List.nodup_append, List.nodup_cons] at hNodup
    obtain ⟨-, ⟨hAfter, -⟩, hBefore⟩ := hNodup
    have hNotBefore : group.1 ∉ before.map Prod.fst :=
      fun hMem => hBefore _ hMem _ List.mem_cons_self rfl
    rw [List.flatMap_append, List.flatMap_cons, List.filter_append, List.filter_append,
      hAbsent before hNotBefore, hAbsent after hAfter, hd.values_eq group hGroup]
    simp
  · have hNone : valuesAt entries key = [] := by
      by_contra hSome
      exact hKey ((hd.mem_keys key).mpr hSome)
    rw [hAbsent d hKey, hNone, hEmpty]
    rfl

end Prsm.Foundations
