import Prsm.Foundations.OrderedDict

/-!
# Tallies of keyed entries

A list has entries of several keys, and each key is to count once at most.  Which of its
entries decides is a matter of the rule: `isDecisive` says which entries can, and the first
of those does.  With `isDecisive` true of everything that is the first entry of the key;
a rule that passes over some entries looks further.

`keysDecided` is the set of keys whose deciding entry is good, and the `_cons` lemmas are what a
loop over the entries does to it.

`numbered` gives each entry of a log its number among those of its key.
-/

namespace Prsm.Foundations

universe u v

variable {κ : Type u} {β : Type v} [DecidableEq κ]

/-- The first entry of the key that decides. -/
def deciding (isDecisive : β → Bool) (entries : List (κ × β)) (key : κ) : Option β :=
  (valuesAt entries key).find? isDecisive

theorem deciding_true (entries : List (κ × β)) (key : κ) :
    deciding (fun _ => true) entries key = (valuesAt entries key).head? := by
  unfold deciding
  cases valuesAt entries key with
  | nil => rfl
  | cons b bs => rfl

section Cons

variable {isDecisive : β → Bool} {key other : κ} {b : β} {rest : List (κ × β)}

@[simp] theorem deciding_nil : deciding isDecisive ([] : List (κ × β)) key = none := rfl

theorem deciding_cons_self (hDecisive : isDecisive b = true) :
    deciding isDecisive ((key, b) :: rest) key = some b := by
  simp [deciding, hDecisive]

theorem deciding_cons_skip (hDecisive : isDecisive b = false) :
    deciding isDecisive ((key, b) :: rest) other = deciding isDecisive rest other := by
  by_cases hSame : key = other
  · subst hSame
    simp [deciding, hDecisive]
  · rw [deciding, deciding, valuesAt_cons_of_ne b rest hSame]

theorem deciding_cons_of_ne (hNe : key ≠ other) :
    deciding isDecisive ((key, b) :: rest) other = deciding isDecisive rest other := by
  rw [deciding, deciding, valuesAt_cons_of_ne b rest hNe]

end Cons

/-! ## Numbers within a key -/

section Numbers

variable {α : Type v} (keyOf : α → κ)

/-- The entries of a log that has the latest first, each with its number among those of
its key.  The first one is number `1`. -/
def numbered : List α → List (α × Nat)
  | [] => []
  | a :: older => (a, older.countP (fun b => keyOf b = keyOf a) + 1) :: numbered older

@[simp] theorem numbered_cons (a : α) (older : List α) :
    numbered keyOf (a :: older) =
      (a, older.countP (fun b => keyOf b = keyOf a) + 1) :: numbered keyOf older := rfl

variable {keyOf}

theorem mem_of_mem_numbered {log : List α} {a : α} {n : Nat} (h : (a, n) ∈ numbered keyOf log) :
    a ∈ log := by
  induction log with
  | nil => cases h
  | cons b older ih =>
      rw [numbered_cons, List.mem_cons] at h
      rcases h with hHere | hOlder
      · obtain ⟨rfl, -⟩ := Prod.mk.inj hHere
        exact List.mem_cons_self
      · exact List.mem_cons_of_mem _ (ih hOlder)

theorem le_of_mem_numbered {log : List α} {a : α} {n : Nat} (h : (a, n) ∈ numbered keyOf log) :
    n ≤ log.countP fun b => keyOf b = keyOf a := by
  induction log with
  | nil => cases h
  | cons b older ih =>
      rw [numbered_cons, List.mem_cons] at h
      rw [List.countP_cons]
      rcases h with hHere | hOlder
      · obtain ⟨rfl, rfl⟩ := Prod.mk.inj hHere
        simp
      · exact (ih hOlder).trans (Nat.le_add_right _ _)

theorem numbered_pairwise (log : List α) :
    (numbered keyOf log).Pairwise fun e e' => keyOf e.1 = keyOf e'.1 → e.2 ≠ e'.2 := by
  induction log with
  | nil => exact List.Pairwise.nil
  | cons a older ih =>
      rw [numbered_cons, List.pairwise_cons]
      refine ⟨?_, ih⟩
      rintro ⟨b, n⟩ hMem hKey hSame
      have hLe := le_of_mem_numbered hMem
      simp only at hKey hSame
      rw [← hKey] at hLe
      omega

end Numbers

/-! ## The keys decided in favour -/

variable [Fintype κ]

/-- The eligible keys outside `skipped` whose deciding entry is good.  It is irreducible, so
that no comparison of terms enumerates the keys. -/
@[irreducible] def keysDecided (isDecisive good : β → Bool) (eligible : κ → Bool) (skipped : List κ)
    (entries : List (κ × β)) : Finset κ :=
  Finset.univ.filter fun key =>
    eligible key = true ∧ key ∉ skipped ∧ (deciding isDecisive entries key).any good = true

variable {isDecisive good : β → Bool} {eligible : κ → Bool} {skipped : List κ}
  {entries rest : List (κ × β)} {key : κ} {b : β}

theorem mem_keysDecided :
    key ∈ keysDecided isDecisive good eligible skipped entries ↔
      eligible key = true ∧ key ∉ skipped ∧ (deciding isDecisive entries key).any good = true := by
  simp [keysDecided]

@[simp] theorem keysDecided_nil : keysDecided isDecisive good eligible skipped [] = ∅ := by
  simp [keysDecided]

theorem keysDecided_cons_of_excluded (hExcluded : eligible key = false ∨ key ∈ skipped) :
    keysDecided isDecisive good eligible skipped ((key, b) :: rest) =
      keysDecided isDecisive good eligible skipped rest := by
  ext other
  simp only [mem_keysDecided]
  by_cases hSame : key = other
  · subst hSame
    rcases hExcluded with hEligible | hSkipped
    · simp [hEligible]
    · simp [hSkipped]
  · rw [deciding_cons_of_ne hSame]

theorem keysDecided_skip_of_excluded (hExcluded : eligible key = false ∨ key ∈ skipped) :
    keysDecided isDecisive good eligible (skipped ++ [key]) entries =
      keysDecided isDecisive good eligible skipped entries := by
  ext other
  simp only [mem_keysDecided, List.mem_append, List.mem_singleton, not_or]
  by_cases hSame : other = key
  · subst hSame
    rcases hExcluded with hEligible | hSkipped
    · simp [hEligible]
    · simp [hSkipped]
  · simp [hSame]

theorem keysDecided_cons_of_not_decisive (hDecisive : isDecisive b = false) :
    keysDecided isDecisive good eligible skipped ((key, b) :: rest) =
      keysDecided isDecisive good eligible skipped rest := by
  ext other
  simp only [mem_keysDecided, deciding_cons_skip hDecisive]

theorem keysDecided_cons_of_bad (hDecisive : isDecisive b = true) (hBad : good b = false) :
    keysDecided isDecisive good eligible skipped ((key, b) :: rest) =
      keysDecided isDecisive good eligible (skipped ++ [key]) rest := by
  ext other
  simp only [mem_keysDecided, List.mem_append, List.mem_singleton, not_or]
  by_cases hSame : key = other
  · subst hSame
    simp [deciding_cons_self hDecisive, hBad]
  · have hOther : other ≠ key := fun h => hSame h.symm
    rw [deciding_cons_of_ne hSame]
    simp [hOther]

theorem not_mem_keysDecided_of_skipped :
    key ∉ keysDecided isDecisive good eligible (skipped ++ [key]) entries := by
  simp [mem_keysDecided]

theorem keysDecided_cons_of_good (hDecisive : isDecisive b = true) (hGood : good b = true)
    (hEligible : eligible key = true) (hFresh : key ∉ skipped) :
    keysDecided isDecisive good eligible skipped ((key, b) :: rest) =
      insert key (keysDecided isDecisive good eligible (skipped ++ [key]) rest) := by
  ext other
  simp only [Finset.mem_insert, mem_keysDecided, List.mem_append, List.mem_singleton, not_or]
  by_cases hSame : key = other
  · subst hSame
    simp [deciding_cons_self hDecisive, hEligible, hFresh, hGood]
  · have hOther : other ≠ key := fun h => hSame h.symm
    rw [deciding_cons_of_ne hSame]
    simp [hOther]

theorem card_keysDecided_cons_of_good (hDecisive : isDecisive b = true) (hGood : good b = true)
    (hEligible : eligible key = true) (hFresh : key ∉ skipped) :
    (keysDecided isDecisive good eligible skipped ((key, b) :: rest)).card =
      (keysDecided isDecisive good eligible (skipped ++ [key]) rest).card + 1 := by
  rw [keysDecided_cons_of_good hDecisive hGood hEligible hFresh,
    Finset.card_insert_of_notMem not_mem_keysDecided_of_skipped]

theorem keysDecided_subset (hGood : ∀ b, good b = true → isDecisive b = true) :
    keysDecided (fun _ => true) good eligible skipped entries ⊆
      keysDecided isDecisive good eligible skipped entries := by
  intro key hKey
  rw [mem_keysDecided, deciding_true, Option.any_eq_true] at hKey
  obtain ⟨hEligible, hFresh, b, hFirst, hHere⟩ := hKey
  rw [mem_keysDecided]
  refine ⟨hEligible, hFresh, ?_⟩
  obtain ⟨bs, hEntries⟩ := List.head?_eq_some_iff.mp hFirst
  simp [deciding, hEntries, hGood b hHere, hHere]

theorem card_keysDecided_le :
    (keysDecided isDecisive good eligible skipped entries).card ≤ entries.length := by
  have hSubset : keysDecided isDecisive good eligible skipped entries ⊆
      (entries.map (·.1)).toFinset := by
    intro key hKey
    rw [mem_keysDecided, Option.any_eq_true] at hKey
    obtain ⟨-, -, b, hDeciding, -⟩ := hKey
    have hMem : b ∈ valuesAt entries key := List.mem_of_find?_eq_some hDeciding
    simp only [valuesAt, List.mem_map, List.mem_filter, decide_eq_true_eq] at hMem
    obtain ⟨entry, ⟨hEntry, hKey⟩, -⟩ := hMem
    rw [List.mem_toFinset, List.mem_map]
    exact ⟨entry, hEntry, hKey⟩
  calc (keysDecided isDecisive good eligible skipped entries).card
      ≤ (entries.map (·.1)).toFinset.card := Finset.card_le_card hSubset
    _ ≤ (entries.map (·.1)).length := List.toFinset_card_le _
    _ = entries.length := List.length_map _

/-- No eligible key has an entry that decides after a first one that does not. -/
def FirstDecides (isDecisive : β → Bool) (eligible : κ → Bool) (entries : List (κ × β)) : Prop :=
  ∀ key b, eligible key = true → (valuesAt entries key).head? = some b →
    isDecisive b = false → ∀ later ∈ valuesAt entries key, isDecisive later = false

omit [Fintype κ] in
theorem FirstDecides.head?_eq (hFirst : FirstDecides isDecisive eligible entries)
    (hEligible : eligible key = true) (hDeciding : deciding isDecisive entries key = some b) :
    (valuesAt entries key).head? = some b := by
  unfold deciding at hDeciding
  cases hEntries : valuesAt entries key with
  | nil => simp [hEntries] at hDeciding
  | cons first later =>
      rw [List.head?_cons]
      by_cases hHere : isDecisive first = true
      · rw [hEntries, List.find?_cons_of_pos hHere] at hDeciding
        exact hDeciding
      · have hNone := hFirst key first hEligible (by rw [hEntries]; rfl) (by simpa using hHere) b
          (List.mem_of_find?_eq_some hDeciding)
        rw [List.find?_some hDeciding] at hNone
        cases hNone

theorem FirstDecides.keysDecided_subset (hFirst : FirstDecides isDecisive eligible entries) :
    keysDecided isDecisive good eligible skipped entries ⊆
      keysDecided (fun _ => true) good eligible skipped entries := by
  intro key hKey
  rw [mem_keysDecided, Option.any_eq_true] at hKey
  obtain ⟨hEligible, hFresh, b, hDeciding, hGood⟩ := hKey
  rw [mem_keysDecided, deciding_true, hFirst.head?_eq hEligible hDeciding]
  exact ⟨hEligible, hFresh, hGood⟩

end Prsm.Foundations
