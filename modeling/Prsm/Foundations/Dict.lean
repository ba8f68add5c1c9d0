import Mathlib.Tactic

/-!
# Insertion-ordered dictionaries

`Dict` is an association list with distinct keys.  `set` overwrites in place or
appends, and `erase` is `d.pop(key, None)`, so iteration follows the order in
which the keys were first inserted.

`total f d` adds `f key value` over the entries in a commutative monoid.  The two laws `total_set`
and `total_erase` say what an update moves: the old entry at the key, if there was one, goes out,
and the new one comes in.
-/

namespace Prsm.Foundations

universe u v w

/-- A dictionary that remembers the order of its keys. -/
structure Dict (κ : Type u) (α : Type v) where
  entries : List (κ × α)
  nodup : (entries.map Prod.fst).Nodup
  deriving DecidableEq

namespace Dict

variable {κ : Type u} {α : Type v} {M : Type w}

@[ext] theorem ext {d e : Dict κ α} (h : d.entries = e.entries) : d = e := by
  cases d
  cases e
  simpa using h

/-- The dictionary without entries. -/
def empty : Dict κ α := ⟨[], List.nodup_nil⟩

instance : EmptyCollection (Dict κ α) := ⟨empty⟩

@[simp] theorem entries_empty : (∅ : Dict κ α).entries = [] := rfl

variable [DecidableEq κ]

/-! ## Operations on the entries -/

/-- The value at a key. -/
def lookup (key : κ) : List (κ × α) → Option α
  | [] => none
  | (k, v) :: rest => if k = key then some v else lookup key rest

/-- Overwrite the entry of a key, or append one. -/
def assign (key : κ) (value : α) : List (κ × α) → List (κ × α)
  | [] => [(key, value)]
  | (k, v) :: rest => if k = key then (key, value) :: rest else (k, v) :: assign key value rest

theorem keys_assign (key : κ) (value : α) (entries : List (κ × α)) :
    (assign key value entries).map Prod.fst =
      if key ∈ entries.map Prod.fst then entries.map Prod.fst
      else entries.map Prod.fst ++ [key] := by
  induction entries with
  | nil => rfl
  | cons entry rest ih =>
      obtain ⟨k, v⟩ := entry
      by_cases hKey : k = key
      · simp [assign, hKey]
      · have hKey' : ¬ key = k := fun h => hKey h.symm
        simp only [assign, hKey, if_false, List.map_cons, ih, List.mem_cons, hKey', false_or]
        split <;> rfl
variable {entries : List (κ × α)} {value : α} {P : κ → α → Prop}

theorem nodup_assign {key : κ}
    (h : (entries.map Prod.fst).Nodup) : ((assign key value entries).map Prod.fst).Nodup := by
  rw [keys_assign]
  split
  · exact h
  case isFalse hNew =>
      rw [List.nodup_append]
      refine ⟨h, List.nodup_singleton key, ?_⟩
      rintro a ha b hb rfl
      exact hNew (List.mem_singleton.mp hb ▸ ha)

theorem lookup_eq_some_iff (h : (entries.map Prod.fst).Nodup)
    {key : κ} : lookup key entries = some value ↔ (key, value) ∈ entries := by
  induction entries with
  | nil => simp [lookup]
  | cons entry rest ih =>
      obtain ⟨k, v⟩ := entry
      rw [List.map_cons, List.nodup_cons] at h
      obtain ⟨hHead, hRest⟩ := h
      by_cases hKey : k = key
      · subst hKey
        have hNot : (k, value) ∉ rest := fun hMem => hHead (List.mem_map.mpr ⟨_, hMem, rfl⟩)
        simp [lookup, hNot, eq_comm]
      · have hKey' : ¬ key = k := fun h => hKey h.symm
        simp [lookup, hKey, hKey', ih hRest]

theorem lookup_assign (key key' : κ) (value : α) (entries : List (κ × α)) :
    lookup key' (assign key value entries) =
      if key' = key then some value else lookup key' entries := by
  induction entries with
  | nil =>
      by_cases hKey : key' = key
      · simp [assign, lookup, hKey]
      · simp [assign, lookup, hKey, Ne.symm hKey]
  | cons entry rest ih =>
      obtain ⟨k, v⟩ := entry
      by_cases hKey : k = key
      · subst hKey
        by_cases hKey' : key' = k
        · simp [assign, lookup, hKey']
        · simp [assign, lookup, hKey', Ne.symm hKey']
      · simp only [assign, hKey, if_false, lookup, ih]
        by_cases hKey' : key' = key
        · subst hKey'
          simp [hKey]
        · simp [hKey']

theorem lookup_eq_none_iff {key : κ} :
    lookup key entries = none ↔ key ∉ entries.map Prod.fst := by
  induction entries with
  | nil => simp [lookup]
  | cons entry rest ih =>
      obtain ⟨k, v⟩ := entry
      by_cases hKey : k = key
      · simp [lookup, hKey]
      · simp [lookup, hKey, ih, Ne.symm hKey]

theorem lookup_filter {p : κ → Bool} (entries : List (κ × α)) (key : κ) :
    lookup key (entries.filter fun entry => p entry.1) =
      if p key then lookup key entries else none := by
  induction entries with
  | nil => simp [lookup]
  | cons entry rest ih =>
      obtain ⟨k, v⟩ := entry
      by_cases hKey : k = key
      · subst hKey
        by_cases hp : p k
        · simp [lookup, hp]
        · rw [List.filter_cons_of_neg (by simpa using hp), ih]
          simp [hp]
      · by_cases hp : p k
        · rw [List.filter_cons_of_pos (by simpa using hp)]
          simp [lookup, hKey, ih]
        · rw [List.filter_cons_of_neg (by simpa using hp), ih]
          simp [lookup, hKey]

/-! ## The dictionary -/

/-- `d.get(key)`. -/
def get? (d : Dict κ α) (key : κ) : Option α := lookup key d.entries

/-- `d[key] = value`. -/
def set (d : Dict κ α) (key : κ) (value : α) : Dict κ α :=
  ⟨assign key value d.entries, nodup_assign d.nodup⟩

/-- Keep the entries whose key passes a test. -/
def filterKeys (p : κ → Bool) (d : Dict κ α) : Dict κ α :=
  ⟨d.entries.filter fun entry => p entry.1, d.nodup.sublist (List.filter_sublist.map _)⟩

/-- `d.pop(key, None)`, for its effect on the dictionary. -/
def erase (d : Dict κ α) (key : κ) : Dict κ α :=
  d.filterKeys fun k => k ≠ key

/-- Assign the entries of a list one after another. -/
def ofEntries (entries : List (κ × α)) : Dict κ α :=
  entries.foldl (fun d entry => d.set entry.1 entry.2) ∅

@[simp] theorem get?_empty (key : κ) : (∅ : Dict κ α).get? key = none := rfl

theorem mem_entries_iff {d : Dict κ α} {key : κ} :
    (key, value) ∈ d.entries ↔ d.get? key = some value :=
  (lookup_eq_some_iff d.nodup).symm

theorem get?_set (d : Dict κ α) (key key' : κ) (value : α) :
    (d.set key value).get? key' = if key' = key then some value else d.get? key' :=
  lookup_assign key key' value d.entries

theorem mem_keys_set {d : Dict κ α} {key key' : κ} :
    key' ∈ (d.set key value).entries.map Prod.fst ↔
      key' ∈ d.entries.map Prod.fst ∨ key' = key := by
  rw [set, keys_assign]
  split
  case isTrue hKnown => exact ⟨.inl, fun h => h.elim id fun hKey => hKey ▸ hKnown⟩
  case isFalse => rw [List.mem_append, List.mem_singleton]

@[simp] theorem get?_set_self (d : Dict κ α) (key : κ) (value : α) :
    (d.set key value).get? key = some value := by
  rw [get?_set, if_pos rfl]

theorem get?_filterKeys (p : κ → Bool) (d : Dict κ α) (key : κ) :
    (d.filterKeys p).get? key = if p key then d.get? key else none :=
  lookup_filter d.entries key

theorem get?_erase (d : Dict κ α) (key key' : κ) :
    (d.erase key).get? key' = if key' = key then none else d.get? key' := by
  rw [erase, get?_filterKeys]
  by_cases hKey : key' = key <;> simp [hKey]

@[simp] theorem get?_erase_self (d : Dict κ α) (key : κ) : (d.erase key).get? key = none := by
  rw [get?_erase, if_pos rfl]

theorem get?_eq_none_iff {d : Dict κ α} {key : κ} :
    d.get? key = none ↔ key ∉ d.entries.map Prod.fst :=
  lookup_eq_none_iff

theorem get?_of_filterKeys {p : κ → Bool} {d : Dict κ α} {key : κ}
    (h : (d.filterKeys p).get? key = some value) : p key = true ∧ d.get? key = some value := by
  rw [get?_filterKeys] at h
  split at h
  case isTrue hp => exact ⟨hp, h⟩
  · cases h

theorem filterKeys_erase {p : κ → Bool} (d : Dict κ α) {key : κ} (h : p key = false) :
    (d.erase key).filterKeys p = d.filterKeys p := by
  apply ext
  show (d.entries.filter _).filter _ = d.entries.filter _
  rw [List.filter_filter]
  refine List.filter_congr fun entry _ => ?_
  by_cases hKey : entry.1 = key
  · simp [hKey, h]
  · simp [hKey]

theorem entries_set_of_absent {d : Dict κ α} {key : κ} (value : α) (h : d.get? key = none) :
    (d.set key value).entries = d.entries ++ [(key, value)] := by
  rw [get?_eq_none_iff] at h
  have hAssign : ∀ entries : List (κ × α), key ∉ entries.map Prod.fst →
      assign key value entries = entries ++ [(key, value)] := by
    intro entries hNot
    induction entries with
    | nil => rfl
    | cons entry rest ih =>
        obtain ⟨k, v⟩ := entry
        simp only [List.map_cons, List.mem_cons, not_or] at hNot
        simp [assign, Ne.symm hNot.1, ih hNot.2]
  exact hAssign d.entries h

theorem set_of_get? {d : Dict κ α} {key : κ} (h : d.get? key = some value) :
    d.set key value = d := by
  have hAssign : ∀ entries : List (κ × α), lookup key entries = some value →
      assign key value entries = entries := by
    intro entries hLookup
    induction entries with
    | nil => cases hLookup
    | cons entry rest ih =>
        obtain ⟨k, v⟩ := entry
        by_cases hKey : k = key
        · simp only [lookup, hKey, if_true, Option.some.injEq] at hLookup
          simp [assign, hKey, hLookup]
        · simp only [lookup, hKey, if_false] at hLookup
          simp [assign, hKey, ih hLookup]
  exact ext (hAssign d.entries h)

theorem entries_ofEntries (h : (entries.map Prod.fst).Nodup) :
    (ofEntries entries).entries = entries := by
  induction entries using List.reverseRecOn with
  | nil => rfl
  | append_singleton entries entry ih =>
      rw [List.map_append, List.nodup_append] at h
      obtain ⟨hNodup, -, hNew⟩ := h
      have hAbsent : (ofEntries entries).get? entry.1 = none := by
        rw [get?_eq_none_iff, ih hNodup]
        exact fun hMem => hNew _ hMem _ (by simp) rfl
      have hLast : ofEntries (entries ++ [entry]) = (ofEntries entries).set entry.1 entry.2 := by
        simp [ofEntries]
      rw [hLast, entries_set_of_absent _ hAbsent, ih hNodup]

theorem exists_get?_ofEntries {key : κ}
    (h : key ∈ entries.map Prod.fst) :
    ∃ value, (key, value) ∈ entries ∧ (ofEntries entries).get? key = some value := by
  induction entries using List.reverseRecOn with
  | nil => cases h
  | append_singleton entries entry ih =>
      have hLast : ofEntries (entries ++ [entry]) = (ofEntries entries).set entry.1 entry.2 := by
        simp [ofEntries]
      rw [hLast]
      by_cases hKey : key = entry.1
      · subst hKey
        exact ⟨entry.2, List.mem_append_right _ (List.mem_singleton_self _), get?_set_self _ _ _⟩
      · have hOld : key ∈ entries.map Prod.fst := by simpa [hKey] using h
        obtain ⟨value, hMem, hGet⟩ := ih hOld
        exact ⟨value, List.mem_append_left _ hMem, by rw [get?_set, if_neg hKey, hGet]⟩

theorem map_get?_ofEntries_zip {keys : List κ} {values : List α} (hNodup : keys.Nodup)
    (hLength : keys.length = values.length) :
    keys.map (ofEntries (keys.zip values)).get? = values.map some := by
  have hKeys : (keys.zip values).map Prod.fst = keys := List.map_fst_zip hLength.le
  have hLookup : ∀ {keys : List κ} {values : List α}, keys.Nodup → keys.length = values.length →
      keys.map (fun key => lookup key (keys.zip values)) = values.map some := by
    intro keys
    induction keys with
    | nil =>
        intro values _ hLength
        cases values with
        | nil => rfl
        | cons value values => cases hLength
    | cons key keys ih =>
        intro values hNodup hLength
        cases values with
        | nil => cases hLength
        | cons value values =>
            obtain ⟨hFresh, hRest⟩ := List.nodup_cons.mp hNodup
            -- The first entry is for a key that does not occur in the rest.
            have hSkip : ∀ other ∈ keys,
                lookup other ((key :: keys).zip (value :: values)) =
                  lookup other (keys.zip values) := by
              intro other hOther
              have hNe : ¬ key = other := fun hEq => hFresh (hEq ▸ hOther)
              rw [List.zip_cons_cons, lookup, if_neg hNe]
            rw [List.map_cons, List.map_congr_left hSkip, ih hRest (Nat.succ.inj hLength),
              List.zip_cons_cons, lookup, if_pos rfl]
            rfl
  rw [← hLookup hNodup hLength]
  refine List.map_congr_left fun key _ => ?_
  rw [get?, entries_ofEntries (by rwa [hKeys])]

/-! ## Properties of all entries -/

/-- Every entry has the property. -/
def All (P : κ → α → Prop) (d : Dict κ α) : Prop :=
  ∀ key value, d.get? key = some value → P key value

theorem all_iff {d : Dict κ α} :
    d.All P ↔ ∀ entry ∈ d.entries, P entry.1 entry.2 := by
  constructor
  · exact fun h entry hMem => h entry.1 entry.2 (mem_entries_iff.mp hMem)
  · exact fun h key value hGet => h (key, value) (mem_entries_iff.mpr hGet)

instance (P : κ → α → Prop) [∀ key value, Decidable (P key value)] (d : Dict κ α) :
    Decidable (d.All P) :=
  decidable_of_iff _ all_iff.symm

theorem all_empty (P : κ → α → Prop) : (∅ : Dict κ α).All P := by
  intro key value hGet
  cases hGet

theorem All.imp {P Q : κ → α → Prop} {d : Dict κ α} (h : d.All P)
    (hImp : ∀ key value, P key value → Q key value) : d.All Q :=
  fun key value hGet => hImp key value (h key value hGet)

theorem All.set {d : Dict κ α} {key : κ} (h : d.All P)
    (hNew : P key value) : (d.set key value).All P := by
  intro key' value' hGet
  rw [get?_set] at hGet
  split at hGet
  case isTrue hKey =>
      cases hGet
      exact hKey ▸ hNew
  case isFalse => exact h key' value' hGet

theorem all_ofEntries
    (h : ∀ entry ∈ entries, P entry.1 entry.2) : (ofEntries entries).All P := by
  induction entries using List.reverseRecOn with
  | nil => exact all_empty P
  | append_singleton entries entry ih =>
      have hLast : ofEntries (entries ++ [entry]) = (ofEntries entries).set entry.1 entry.2 := by
        simp [ofEntries]
      rw [hLast]
      exact (ih fun e he => h e (List.mem_append_left _ he)).set
        (h entry (List.mem_append_right _ (List.mem_singleton_self _)))

theorem All.filterKeys {d : Dict κ α} (h : d.All P) (p : κ → Bool) :
    (d.filterKeys p).All P :=
  fun key value hGet => h key value (get?_of_filterKeys hGet).2

theorem All.erase {d : Dict κ α} (h : d.All P) (key : κ) :
    (d.erase key).All P :=
  h.filterKeys _

variable [AddCommMonoid M]

/-- The sum of `f` over the entries. -/
def total (f : κ → α → M) (d : Dict κ α) : M :=
  (d.entries.map fun entry => f entry.1 entry.2).sum

/-- The summand of one key, zero where the key is absent. -/
def part (f : κ → α → M) (d : Dict κ α) (key : κ) : M :=
  (d.get? key).elim 0 (f key)

variable {f : κ → α → M} {d : Dict κ α} {key : κ}

omit [DecidableEq κ] in
@[simp] theorem total_empty : total f (∅ : Dict κ α) = 0 := rfl

theorem part_of_some (h : d.get? key = some value) : d.part f key = f key value := by
  rw [part, h]
  rfl

theorem part_of_none (h : d.get? key = none) : d.part f key = 0 := by
  rw [part, h]
  rfl

theorem total_set (value : α) :
    (d.set key value).total f + d.part f key = d.total f + f key value := by
  have hAssign : ∀ entries : List (κ × α),
      ((assign key value entries).map fun entry => f entry.1 entry.2).sum +
          (lookup key entries).elim 0 (f key) =
        (entries.map fun entry => f entry.1 entry.2).sum + f key value := by
    intro entries
    induction entries with
    | nil => simp [assign, lookup]
    | cons entry rest ih =>
        obtain ⟨k, v⟩ := entry
        by_cases hKey : k = key
        · subst hKey
          simp only [assign, lookup, if_true, List.map_cons, List.sum_cons, Option.elim_some]
          abel
        · simp only [assign, lookup, hKey, if_false, List.map_cons, List.sum_cons]
          rw [add_assoc, ih, add_assoc]
  exact hAssign d.entries

omit [DecidableEq κ] in
theorem total_filterKeys (p : κ → Bool) :
    (d.filterKeys p).total f + (d.filterKeys fun k => !p k).total f = d.total f := by
  have hFilter : ∀ entries : List (κ × α),
      ((entries.filter fun entry => p entry.1).map fun entry => f entry.1 entry.2).sum +
          ((entries.filter fun entry => !p entry.1).map fun entry => f entry.1 entry.2).sum =
        (entries.map fun entry => f entry.1 entry.2).sum := by
    intro entries
    induction entries with
    | nil => simp
    | cons entry rest ih =>
        by_cases hp : p entry.1 = true
        · simp only [hp, List.filter_cons_of_pos, Bool.not_true, Bool.false_eq_true,
            not_false_eq_true, List.filter_cons_of_neg, List.map_cons, List.sum_cons]
          rw [add_assoc, ih]
        · have hNot : (!p entry.1) = true := by simpa using hp
          rw [List.filter_cons_of_neg (by simpa using hp), List.filter_cons_of_pos (by exact hNot)]
          simp only [List.map_cons, List.sum_cons]
          rw [← ih]
          abel
  exact hFilter d.entries

theorem total_erase (f : κ → α → M) (d : Dict κ α) (key : κ) :
    (d.erase key).total f + d.part f key = d.total f := by
  have hEntries : ∀ entries : List (κ × α), (entries.map Prod.fst).Nodup →
      ((entries.filter fun entry => decide (entry.1 ≠ key)).map
          fun entry => f entry.1 entry.2).sum + (lookup key entries).elim 0 (f key) =
        (entries.map fun entry => f entry.1 entry.2).sum := by
    intro entries hNodup
    induction entries with
    | nil => simp [lookup]
    | cons entry rest ih =>
        obtain ⟨k, v⟩ := entry
        rw [List.map_cons, List.nodup_cons] at hNodup
        obtain ⟨hHead, hRest⟩ := hNodup
        by_cases hKey : k = key
        · subst hKey
          have hKeep : rest.filter (fun entry => decide (entry.1 ≠ k)) = rest := by
            rw [List.filter_eq_self]
            rintro ⟨k', v'⟩ hMem
            have hNe : k' ≠ k := fun h => hHead (List.mem_map.mpr ⟨_, hMem, h⟩)
            simpa using hNe
          rw [List.filter_cons_of_neg (by simp), hKeep]
          simp only [lookup, if_true, List.map_cons, List.sum_cons, Option.elim_some]
          exact add_comm _ _
        · rw [List.filter_cons_of_pos (by simpa using hKey)]
          simp only [lookup, hKey, if_false, List.map_cons, List.sum_cons]
          rw [add_assoc, ih hRest]
  exact hEntries d.entries d.nodup

theorem mem_total_iff {X : Type w} {g : κ → α → Multiset X} {x : X} :
    x ∈ d.total g ↔ ∃ key value, d.get? key = some value ∧ x ∈ g key value := by
  have hMem : ∀ entries : List (κ × α),
      x ∈ (entries.map fun entry => g entry.1 entry.2).sum ↔
        ∃ entry ∈ entries, x ∈ g entry.1 entry.2 := by
    intro entries
    induction entries with
    | nil => simp
    | cons entry rest ih => simp [ih]
  rw [total, hMem]
  constructor
  · rintro ⟨⟨k, v⟩, hEntry, hx⟩
    exact ⟨k, v, mem_entries_iff.mp hEntry, hx⟩
  · rintro ⟨k, v, hGet, hx⟩
    exact ⟨(k, v), mem_entries_iff.mpr hGet, hx⟩

theorem total_eq_zero_iff {X : Type w} {g : κ → α → Multiset X} :
    d.total g = 0 ↔ ∀ key value, d.get? key = some value → g key value = 0 := by
  constructor
  · intro h key value hGet
    refine Multiset.eq_zero_of_forall_notMem fun x hx => ?_
    have hMem : x ∈ d.total g := mem_total_iff.mpr ⟨key, value, hGet, hx⟩
    simp [h] at hMem
  · intro h
    refine Multiset.eq_zero_of_forall_notMem fun x hx => ?_
    obtain ⟨key, value, hGet, hMem⟩ := mem_total_iff.mp hx
    simp [h key value hGet] at hMem

theorem eq_of_nodup_total {X : Type w} {g : κ → α → Multiset X} (hNodup : (d.total g).Nodup)
    {key key' : κ} {value value' : α} {x : X} (hGet : d.get? key = some value)
    (hGet' : d.get? key' = some value') (hx : x ∈ g key value) (hx' : x ∈ g key' value') :
    key = key' := by
  by_contra hNe
  have hRest : (d.erase key).get? key' = some value' := by
    rw [get?_erase, if_neg (Ne.symm hNe), hGet']
  rw [← total_erase g d key, part_of_some hGet, Multiset.nodup_add] at hNodup
  exact Multiset.disjoint_left.mp hNodup.2.2
    (mem_total_iff.mpr ⟨key', value', hRest, hx'⟩) hx

end Dict
end Prsm.Foundations
