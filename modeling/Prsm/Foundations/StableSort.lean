import Mathlib.Data.List.Sort
import Mathlib.Tactic

/-!
# Sorting by a key

`sortBy key` sorts by a key and keeps elements with equal keys in the order in
which they came.  Such a sort is determined by what it sorts: for each key, the
elements that carry it, in order (`sortBy_eq_of_filter_eq`).  A program that
collects its results in some accidental order and sorts them at the end is
therefore deterministic as soon as the results of each key come in a fixed
order.
-/

namespace Prsm.Foundations

universe u v

variable {α : Type u} {κ : Type v} [LinearOrder κ]

/-- The stable sort by `key`, in ascending order. -/
def sortBy (key : α → κ) (l : List α) : List α :=
  l.insertionSort fun a b => key a ≤ key b

theorem mem_sortBy {key : α → κ} {l : List α} {a : α} : a ∈ sortBy key l ↔ a ∈ l :=
  List.mem_insertionSort _

theorem pairwise_sortBy (key : α → κ) (l : List α) :
    (sortBy key l).Pairwise fun a b => key a ≤ key b := by
  have : Std.Total fun a b : α => key a ≤ key b := ⟨fun a b => le_total (key a) (key b)⟩
  have : IsTrans α fun a b : α => key a ≤ key b := ⟨fun _ _ _ => le_trans⟩
  exact List.pairwise_insertionSort _ l

theorem filter_orderedInsert (key : α → κ) (k : κ) (a : α) (l : List α) :
    (l.orderedInsert (fun a b => key a ≤ key b) a).filter (fun b => key b = k) =
      (a :: l).filter (fun b => key b = k) := by
  induction l with
  | nil => rfl
  | cons b l ih =>
      rw [List.orderedInsert_cons]
      split
      · rfl
      case isFalse hAbove =>
        -- `b` comes first because its key is smaller, so at most one of the two is kept.
        rw [List.filter_cons, ih]
        by_cases hA : key a = k
        · have hB : ¬ key b = k := fun hB => hAbove (by rw [hA, hB])
          simp [hA, hB]
        · simp [hA, List.filter_cons]

theorem filter_sortBy (key : α → κ) (k : κ) (l : List α) :
    (sortBy key l).filter (fun b => key b = k) = l.filter (fun b => key b = k) := by
  induction l with
  | nil => rfl
  | cons a l ih =>
      rw [sortBy, List.insertionSort_cons, filter_orderedInsert, List.filter_cons, List.filter_cons]
      rw [sortBy] at ih
      rw [ih]

theorem eq_of_pairwise_of_filter_eq (key : α → κ) :
    ∀ {l l' : List α}, l.Pairwise (fun a b => key a ≤ key b) →
      l'.Pairwise (fun a b => key a ≤ key b) →
        (∀ k, l.filter (fun b => key b = k) = l'.filter (fun b => key b = k)) → l = l' := by
  intro l
  induction l with
  | nil =>
      intro l' _ _ hEq
      cases l' with
      | nil => rfl
      | cons b l' =>
          have hHead := hEq (key b)
          simp at hHead
  | cons a l ih =>
      intro l' hl hl' hEq
      cases l' with
      | nil =>
          have hHead := hEq (key a)
          simp at hHead
      | cons b l' =>
          have hMem : ∀ {c : α} {m m' : List α},
              (∀ k, m.filter (fun b => key b = k) = m'.filter (fun b => key b = k)) →
                c ∈ m → c ∈ m' := by
            intro c m m' hSame hc
            have hKept : c ∈ m.filter (fun b => key b = key c) := by simp [hc]
            rw [hSame (key c)] at hKept
            exact List.mem_of_mem_filter hKept
          have hLe : ∀ {c d : α} {m : List α}, (c :: m).Pairwise (fun a b => key a ≤ key b) →
              d ∈ c :: m → key c ≤ key d := by
            intro c d m hm hd
            rcases List.mem_cons.mp hd with rfl | hd
            · exact le_refl _
            · exact List.rel_of_pairwise_cons hm hd
          -- Each head is in the other list, so both have the smallest key.
          have hKey : key a = key b := le_antisymm
            (hLe hl (hMem (fun k => (hEq k).symm) List.mem_cons_self))
            (hLe hl' (hMem hEq List.mem_cons_self))
          have hHead := hEq (key b)
          rw [List.filter_cons_of_pos (by simpa using hKey),
            List.filter_cons_of_pos (by simp)] at hHead
          obtain ⟨rfl, -⟩ := List.cons.inj hHead
          congr 1
          refine ih hl.of_cons hl'.of_cons fun k => ?_
          have hTail := hEq k
          by_cases hk : key a = k
          · rw [List.filter_cons_of_pos (by simpa using hk),
              List.filter_cons_of_pos (by simpa using hk)] at hTail
            exact (List.cons.inj hTail).2
          · rw [List.filter_cons_of_neg (by simpa using hk),
              List.filter_cons_of_neg (by simpa using hk)] at hTail
            exact hTail

theorem sortBy_eq_of_filter_eq (key : α → κ) {l l' : List α}
    (h : ∀ k, l.filter (fun b => key b = k) = l'.filter (fun b => key b = k)) :
    sortBy key l = sortBy key l' := by
  apply eq_of_pairwise_of_filter_eq key (pairwise_sortBy key l) (pairwise_sortBy key l')
  intro k
  rw [filter_sortBy, filter_sortBy, h k]

theorem sortBy_eq_of_perm (key : α → κ) {l l' : List α} (hPerm : l.Perm l')
    (hKey : ∀ a ∈ l, ∀ b ∈ l, key a = key b → a = b) : sortBy key l = sortBy key l' := by
  have hMem : ∀ a, a ∈ sortBy key l → a ∈ l := fun a ha => mem_sortBy.mp ha
  have hMem' : ∀ a, a ∈ sortBy key l' → a ∈ l := fun a ha => hPerm.mem_iff.mpr (mem_sortBy.mp ha)
  refine List.Perm.eq_of_pairwise ?_ (pairwise_sortBy key l) (pairwise_sortBy key l') ?_
  · intro a b ha hb hab hba
    exact hKey a (hMem a ha) b (hMem' b hb) (le_antisymm hab hba)
  · exact (List.perm_insertionSort _ l).trans (hPerm.trans (List.perm_insertionSort _ l').symm)

end Prsm.Foundations
