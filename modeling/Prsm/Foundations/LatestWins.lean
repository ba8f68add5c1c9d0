import Mathlib.Order.Basic
import Mathlib.Order.Defs.LinearOrder
import Mathlib.Tactic

/-!
# The latest value wins

`later key a b` is the one of two values with the greater key, and the first one if the keys
are the same.  What is left of a list depends on its members alone exactly if no two of the
greatest have the same key.
-/

namespace Prsm.Foundations

universe u v

section LatestWins

variable {α : Type u} {κ : Type v} [LinearOrder κ] (key : α → κ)

def later (a b : α) : α :=
  if key b ≤ key a then a else b

/-- What is left of a list if its members come one after another. -/
def latest : List α → Option α
  | [] => none
  | a :: rest => some (rest.foldl (later key) a)

/-- A member with the greatest key. -/
structure IsLatest (values : List α) (a : α) : Prop where
  mem : a ∈ values
  le : ∀ b ∈ values, key b ≤ key a

variable {key} {a b c : α} {values : List α}

theorem later_of_le (h : key b ≤ key a) : later key a b = a := if_pos h

theorem later_of_lt (h : key a < key b) : later key a b = b := if_neg (not_le.mpr h)

theorem later_self : later key a a = a := later_of_le le_rfl

theorem later_comm_iff : later key a b = later key b a ↔ (key a = key b → a = b) := by
  rcases lt_trichotomy (key a) (key b) with h | h | h
  · rw [later_of_lt h, later_of_le h.le]
    exact iff_of_true rfl fun hSame => absurd hSame h.ne
  · rw [later_of_le h.ge, later_of_le h.le]
    exact ⟨fun hSame _ => hSame, fun hSame => hSame h⟩
  · rw [later_of_le h.le, later_of_lt h]
    exact iff_of_true rfl fun hSame => absurd hSame.symm h.ne

theorem later_assoc : later key (later key a b) c = later key a (later key b c) := by
  by_cases hFirst : key b ≤ key a
  · rw [later_of_le hFirst]
    by_cases hSecond : key c ≤ key b
    · rw [later_of_le hSecond, later_of_le hFirst, later_of_le (hSecond.trans hFirst)]
    · rw [later_of_lt (not_le.mp hSecond)]
  · have hLess := not_le.mp hFirst
    rw [later_of_lt hLess]
    by_cases hSecond : key c ≤ key b
    · rw [later_of_le hSecond, later_of_lt hLess]
    · have hMore := not_le.mp hSecond
      rw [later_of_lt hMore, later_of_lt (hLess.trans hMore)]

/-! ## Lists -/

theorem foldl_later_of_le (h : ∀ b ∈ values, key b ≤ key a) : values.foldl (later key) a = a := by
  induction values with
  | nil => rfl
  | cons b rest ih =>
      rw [List.foldl_cons, later_of_le (h b List.mem_cons_self)]
      exact ih fun c hc => h c (List.mem_cons_of_mem _ hc)

theorem isLatest_foldl_later : IsLatest key (a :: values) (values.foldl (later key) a) := by
  induction values generalizing a with
  | nil => exact ⟨List.mem_singleton_self a, by simp⟩
  | cons b rest ih =>
      obtain ⟨hMem, hMax⟩ := @ih (later key a b)
      have hEither : later key a b = a ∨ later key a b = b := by
        unfold later
        split <;> simp
      have hHead : key a ≤ key (later key a b) ∧ key b ≤ key (later key a b) := by
        unfold later
        split
        case isTrue h => exact ⟨le_rfl, h⟩
        case isFalse h => exact ⟨(not_le.mp h).le, le_rfl⟩
      have hLater := hMax _ List.mem_cons_self
      rw [List.foldl_cons]
      refine ⟨?_, fun c hc => ?_⟩
      · rcases List.mem_cons.mp hMem with hSame | hRest
        · rw [hSame]
          rcases hEither with h | h <;> simp [h]
        · simp [hRest]
      · rcases List.mem_cons.mp hc with rfl | hc
        · exact hHead.1.trans hLater
        · rcases List.mem_cons.mp hc with rfl | hc
          · exact hHead.2.trans hLater
          · exact hMax c (List.mem_cons_of_mem _ hc)

theorem isLatest_of_latest (h : latest key values = some a) : IsLatest key values a := by
  cases values with
  | nil => cases h
  | cons b rest =>
      obtain rfl := Option.some.inj h
      exact isLatest_foldl_later

/-- Whoever has seen the values, in whatever order and how often, is left with the same one,
exactly if only one of them is the latest. -/
theorem latest_unique_iff :
    (∀ seen seen' : List α, (∀ a, a ∈ seen ↔ a ∈ values) → (∀ a, a ∈ seen' ↔ a ∈ values) →
        latest key seen = latest key seen') ↔
      ∀ a b, IsLatest key values a → IsLatest key values b → a = b := by
  constructor
  · intro h a b ha hb
    have hSeen : ∀ c ∈ values, ∀ x, x ∈ c :: values ↔ x ∈ values := by
      intro c hc x
      simp only [List.mem_cons, or_iff_right_iff_imp]
      rintro rfl
      exact hc
    have hSame := h (a :: values) (b :: values) (hSeen a ha.mem) (hSeen b hb.mem)
    simp only [latest, foldl_later_of_le ha.le, foldl_later_of_le hb.le] at hSame
    exact Option.some.inj hSame
  · intro h seen seen' hSeen hSeen'
    have hMembers : ∀ {other : List α} {c : α}, (∀ x, x ∈ other ↔ x ∈ values) →
        latest key other = some c → IsLatest key values c := by
      intro other c hOther hc
      obtain ⟨hMem, hMax⟩ := isLatest_of_latest hc
      exact ⟨(hOther c).mp hMem, fun x hx => hMax x ((hOther x).mpr hx)⟩
    cases seen with
    | nil =>
        cases seen' with
        | nil => rfl
        | cons b rest => exact absurd ((hSeen b).mpr ((hSeen' b).mp List.mem_cons_self)) (by simp)
    | cons a rest =>
        cases seen' with
        | nil => exact absurd ((hSeen' a).mpr ((hSeen a).mp List.mem_cons_self)) (by simp)
        | cons b rest' => exact congrArg some (h _ _ (hMembers hSeen rfl) (hMembers hSeen' rfl))

end LatestWins

end Prsm.Foundations
