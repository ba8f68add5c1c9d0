import Mathlib.Algebra.BigOperators.Fin
import Mathlib.Tactic

/-!
# Sums over a mapping

A ledger is a total function on a finite key type, and the obligation it records
is the sum of a measure over all keys.  Writing one entry changes the sum by the
difference at that entry.  The rules are stated without subtraction, so that a
proof about natural numbers can hand them to `omega`.
-/

namespace Prsm.Foundations

universe u v

variable {α : Type u} {β : Type v} [Fintype α] [DecidableEq α]

theorem sum_update_entry (measure : α → β → Nat) (f : α → β) (key : α) (value : β) :
    (∑ a, measure a (Function.update f key value a)) + measure key (f key) =
      (∑ a, measure a (f a)) + measure key value := by
  have hShare : ∀ g : α → β, (∑ a, measure a (g a)) =
      measure key (g key) + ∑ a ∈ Finset.univ.erase key, measure a (g a) := by
    intro g
    exact (Finset.add_sum_erase Finset.univ (fun a => measure a (g a)) (Finset.mem_univ key)).symm
  have hRest : (∑ a ∈ Finset.univ.erase key, measure a (Function.update f key value a)) =
      ∑ a ∈ Finset.univ.erase key, measure a (f a) := by
    apply Finset.sum_congr rfl
    intro a ha
    rw [Function.update_of_ne (Finset.ne_of_mem_erase ha)]
  rw [hShare, hShare f, hRest, Function.update_self]
  omega

omit [DecidableEq α] in
theorem le_sum_mapping (f : α → Nat) (key : α) : f key ≤ ∑ a, f a :=
  Finset.single_le_sum (fun a _ => Nat.zero_le (f a)) (Finset.mem_univ key)

end Prsm.Foundations

/-!
# Sums over part of a list

`sumWhere p f xs` adds `f` over the elements of `xs` with `p`.  A list of
records grows at its end and is overwritten in place, and `sumWhere_concat` and
`sumWhere_set` say what that does to the sum.
-/

namespace Prsm.Foundations

universe u

variable {α : Type u} (p q : α → Prop) [DecidablePred p] [DecidablePred q] (f : α → Int)

/-- The sum of `f` over the elements with `p`. -/
def sumWhere (xs : List α) : Int := ((xs.filter fun x => p x).map f).sum

@[simp] theorem sumWhere_nil : sumWhere p f [] = 0 := rfl

@[simp] theorem sumWhere_cons (x : α) (xs : List α) :
    sumWhere p f (x :: xs) = (if p x then f x else 0) + sumWhere p f xs := by
  by_cases hp : p x <;> simp [sumWhere, hp]

theorem sumWhere_append (xs ys : List α) :
    sumWhere p f (xs ++ ys) = sumWhere p f xs + sumWhere p f ys := by
  simp [sumWhere]

theorem sumWhere_concat (xs : List α) (x : α) :
    sumWhere p f (xs ++ [x]) = sumWhere p f xs + if p x then f x else 0 := by
  rw [sumWhere_append, sumWhere_cons, sumWhere_nil, add_zero]

theorem sumWhere_set {xs : List α} {i : Nat} {x : α} (h : xs[i]? = some x) (y : α) :
    sumWhere p f (xs.set i y) + (if p x then f x else 0) =
      sumWhere p f xs + if p y then f y else 0 := by
  induction xs generalizing i with
  | nil => cases h
  | cons head tail ih =>
      cases i with
      | zero =>
          cases h
          rw [List.set_cons_zero, sumWhere_cons, sumWhere_cons]
          ring
      | succ i =>
          rw [List.set_cons_succ, sumWhere_cons, sumWhere_cons, add_assoc, add_assoc, ih h]

variable {p q f}

theorem sumWhere_le_sumWhere {xs : List α} (hImp : ∀ x ∈ xs, p x → q x)
    (hNonneg : ∀ x ∈ xs, 0 ≤ f x) : sumWhere p f xs ≤ sumWhere q f xs := by
  induction xs with
  | nil => exact le_rfl
  | cons x xs ih =>
      have hTail := ih (fun y hy => hImp y (List.mem_cons_of_mem _ hy))
        fun y hy => hNonneg y (List.mem_cons_of_mem _ hy)
      have hHead := hNonneg x List.mem_cons_self
      rw [sumWhere_cons, sumWhere_cons]
      by_cases hp : p x
      · rw [if_pos hp, if_pos (hImp x List.mem_cons_self hp)]
        omega
      · rw [if_neg hp]
        split <;> omega

theorem sum_map_le_of_nodup {β : Type} {xs : List α} {ys : List β} {g : α → β} {weight : β → Int}
    (hNodup : (xs.map g).Nodup) (hMem : ∀ x ∈ xs, g x ∈ ys) (hNonneg : ∀ y ∈ ys, 0 ≤ weight y) :
    (xs.map fun x => weight (g x)).sum ≤ (ys.map weight).sum := by
  have hSubset : xs.map g ⊆ ys := by
    intro y hy
    obtain ⟨x, hx, rfl⟩ := List.mem_map.mp hy
    exact hMem x hx
  obtain ⟨zs, hPerm, hSublist⟩ := hNodup.subperm hSubset
  calc (xs.map fun x => weight (g x)).sum = ((xs.map g).map weight).sum := by
        rw [List.map_map]
        rfl
    _ = (zs.map weight).sum := ((hPerm.map weight).sum_eq).symm
    _ ≤ (ys.map weight).sum := by
        refine (hSublist.map weight).sum_le_sum fun n hn => ?_
        obtain ⟨y, hy, rfl⟩ := List.mem_map.mp hn
        exact hNonneg y hy

end Prsm.Foundations

/-!
# Amounts booked under keys

`amountFor key entries` adds up what a list of entries books under a key.  Lists
of entries only grow at their end, so the sum of an append is the rule that is
used; with distinct keys there is a single summand.
-/

namespace Prsm.Foundations

universe u v

variable {κ : Type u} {M : Type v} [DecidableEq κ] [AddCommMonoid M]

/-- The sum of the amounts of a key. -/
def amountFor (key : κ) (entries : List (κ × M)) : M :=
  ((entries.filter fun entry => entry.1 = key).map Prod.snd).sum

@[simp] theorem amountFor_nil (key : κ) : amountFor key ([] : List (κ × M)) = 0 := rfl

@[simp] theorem amountFor_cons (key : κ) (entry : κ × M) (entries : List (κ × M)) :
    amountFor key (entry :: entries) =
      (if entry.1 = key then entry.2 else 0) + amountFor key entries := by
  by_cases hKey : entry.1 = key <;> simp [amountFor, hKey]

@[simp] theorem amountFor_append (key : κ) (entries more : List (κ × M)) :
    amountFor key (entries ++ more) = amountFor key entries + amountFor key more := by
  simp [amountFor]

theorem amountFor_of_not_mem {key : κ} {entries : List (κ × M)}
    (h : key ∉ entries.map Prod.fst) : amountFor key entries = 0 := by
  induction entries with
  | nil => rfl
  | cons entry entries ih =>
      rw [List.map_cons, List.mem_cons, not_or] at h
      rw [amountFor_cons, if_neg (Ne.symm h.1), zero_add, ih h.2]

theorem amountFor_of_mem {key : κ} {amount : M} {entries : List (κ × M)}
    (hNodup : (entries.map Prod.fst).Nodup) (hMem : (key, amount) ∈ entries) :
    amountFor key entries = amount := by
  induction entries with
  | nil => cases hMem
  | cons entry entries ih =>
      rw [List.map_cons, List.nodup_cons] at hNodup
      rw [amountFor_cons]
      rcases List.mem_cons.mp hMem with rfl | hMem
      · rw [if_pos rfl, amountFor_of_not_mem hNodup.1, add_zero]
      · have hNe : entry.1 ≠ key := fun h => hNodup.1 (h ▸ List.mem_map_of_mem hMem)
        rw [if_neg hNe, zero_add, ih hNodup.2 hMem]

/-- With distinct keys, the sums are given by a function that vanishes off the keys
exactly when each amount is. -/
theorem forall_amountFor_eq_iff {entries : List (κ × M)} {f : κ → M}
    (hNodup : (entries.map Prod.fst).Nodup) (hOff : ∀ key ∉ entries.map Prod.fst, f key = 0) :
    (∀ key, amountFor key entries = f key) ↔ ∀ entry ∈ entries, entry.2 = f entry.1 := by
  constructor
  · intro h entry hMem
    rw [← h entry.1, amountFor_of_mem hNodup hMem]
  · intro h key
    by_cases hKey : key ∈ entries.map Prod.fst
    · obtain ⟨entry, hMem, rfl⟩ := List.mem_map.mp hKey
      rw [amountFor_of_mem hNodup hMem, h entry hMem]
    · rw [amountFor_of_not_mem hKey, hOff key hKey]

end Prsm.Foundations
