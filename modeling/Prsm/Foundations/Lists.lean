import Mathlib.Tactic

/-!
# Loops over lists that may fail

`mapM` and `foldlM` in `Option` are the loops of a program that raises: `none`
is the exception.  `mapM_eq_some_iff` says when a map gets through, and
`foldlM_invariant` is the loop rule.
-/

namespace Prsm.Foundations

universe u v

variable {α : Type u} {β : Type v}

theorem guard_eq_some_iff {p : Prop} [Decidable p] {u : Unit} :
    (guard p : Option Unit) = some u ↔ p := by
  by_cases hp : p <;> simp [guard, hp]
variable {f : α → Option β} {xs : List α} {ys : List β}

theorem mapM_eq_some_iff :
    xs.mapM f = some ys ↔ xs.map f = ys.map some := by
  induction xs generalizing ys with
  | nil =>
      cases ys with
      | nil => exact iff_of_true rfl rfl
      | cons y ys => exact iff_of_false (by simp) (by simp)
  | cons x xs ih =>
      rw [List.mapM_cons, List.map_cons]
      constructor
      · intro h
        obtain ⟨y, hy, h⟩ := Option.bind_eq_some_iff.mp h
        obtain ⟨rest, hRest, h⟩ := Option.bind_eq_some_iff.mp h
        cases h
        rw [hy, ih.mp hRest]
        rfl
      · intro h
        cases ys with
        | nil => cases h
        | cons y ys =>
            obtain ⟨hy, hRest⟩ := List.cons.inj h
            rw [hy, ih.mpr hRest]
            rfl

theorem mapM_eq_some_map {g : α → β}
    (h : ∀ x ∈ xs, f x = some (g x)) : xs.mapM f = some (xs.map g) := by
  rw [mapM_eq_some_iff, List.map_map]
  exact List.map_congr_left h

theorem mapM_map {γ : Type v} (f : α → Option β) (g : β → γ) (xs : List α) :
    xs.mapM (fun x => (f x).map g) = (xs.mapM f).map (List.map g) := by
  induction xs with
  | nil => rfl
  | cons x xs ih =>
      rw [List.mapM_cons, List.mapM_cons, ih]
      cases f x <;> cases xs.mapM f <;> rfl

theorem length_of_mapM
    (h : xs.mapM f = some ys) : ys.length = xs.length := by
  have hLength := congrArg List.length (mapM_eq_some_iff.mp h)
  rw [List.length_map, List.length_map] at hLength
  exact hLength.symm

theorem mem_mapM_iff (h : xs.mapM f = some ys)
    {y : β} : y ∈ ys ↔ ∃ x ∈ xs, f x = some y := by
  have hMem : some y ∈ ys.map some ↔ y ∈ ys := by simp
  rw [← hMem, ← mapM_eq_some_iff.mp h, List.mem_map]

theorem exists_of_mapM (h : xs.mapM f = some ys)
    {x : α} (hx : x ∈ xs) : ∃ y ∈ ys, f x = some y := by
  have hMem : f x ∈ ys.map some := by
    rw [← mapM_eq_some_iff.mp h]
    exact List.mem_map_of_mem hx
  obtain ⟨y, hy, hEq⟩ := List.mem_map.mp hMem
  exact ⟨y, hy, hEq.symm⟩

theorem exists_eq_map {f : β → α} {P : β → Prop}
    (h : ∀ x ∈ xs, ∃ y, x = f y ∧ P y) : ∃ ys : List β, xs = ys.map f ∧ ∀ y ∈ ys, P y := by
  induction xs with
  | nil => exact ⟨[], rfl, by simp⟩
  | cons x xs ih =>
      obtain ⟨y, hEq, hy⟩ := h x List.mem_cons_self
      obtain ⟨ys, hEqs, hys⟩ := ih fun x' hx' => h x' (List.mem_cons_of_mem _ hx')
      refine ⟨y :: ys, by rw [hEq, hEqs, List.map_cons], ?_⟩
      intro y' hy'
      rcases List.mem_cons.mp hy' with rfl | hy'
      · exact hy
      · exact hys y' hy'

/-- A loop whose exceptions carry data gets through when each round does, and
its results stand in the relation that the rounds establish. -/
theorem exists_mapM_ok {ε : Type} {f : α → Except ε β} {P : α → β → Prop}
    (h : ∀ x ∈ xs, ∃ y, f x = .ok y ∧ P x y) :
    ∃ ys, xs.mapM f = .ok ys ∧ List.Forall₂ P xs ys := by
  induction xs with
  | nil => exact ⟨[], rfl, .nil⟩
  | cons x xs ih =>
      obtain ⟨y, hy, hP⟩ := h x List.mem_cons_self
      obtain ⟨ys, hys, hRest⟩ := ih fun x' hx' => h x' (List.mem_cons_of_mem _ hx')
      refine ⟨y :: ys, ?_, .cons hP hRest⟩
      rw [List.mapM_cons, hy, hys]
      rfl

theorem map_eq_map_of_forall₂ {γ : Type} {f : α → γ} {g : β → γ}
    (h : List.Forall₂ (fun x y => f x = g y) xs ys) : xs.map f = ys.map g := by
  induction h with
  | nil => rfl
  | cons hHead _ ih => rw [List.map_cons, List.map_cons, hHead, ih]

theorem foldlM_invariant_of_mem {f : β → α → Option β} (P : β → Prop)
    (hStep : ∀ state, ∀ x ∈ xs, ∀ state', P state → f state x = some state' → P state')
    {start final : β} (hStart : P start) (h : xs.foldlM f start = some final) : P final := by
  induction xs generalizing start with
  | nil =>
      cases h
      exact hStart
  | cons x xs ih =>
      rw [List.foldlM_cons] at h
      obtain ⟨next, hNext, hRest⟩ := Option.bind_eq_some_iff.mp h
      exact ih (fun state y hy => hStep state y (List.mem_cons_of_mem x hy))
        (hStep start x List.mem_cons_self next hStart hNext) hRest

theorem foldlM_invariant {f : β → α → Option β} (P : β → Prop)
    (hStep : ∀ state x state', P state → f state x = some state' → P state')
    {start final : β} (hStart : P start)
    (h : xs.foldlM f start = some final) : P final :=
  foldlM_invariant_of_mem P (fun state x _ => hStep state x) hStart h

end Prsm.Foundations

/-!
# Slices of equal length

`xs[i * size : (i + 1) * size]` for the first indices, and what they make joined.
-/

namespace Prsm.Foundations

universe u

variable {α : Type u}

/-- The first slices of the given size.  The last one may be shorter. -/
def slices (count size : ℕ) (xs : List α) : List (List α) :=
  (List.range count).map fun i => (xs.drop (i * size)).take size

@[simp] theorem length_slices (count size : ℕ) (xs : List α) :
    (slices count size xs).length = count := by
  simp [slices]

theorem flatten_slices (count size : ℕ) (xs : List α) :
    (slices count size xs).flatten = xs.take (count * size) := by
  induction count with
  | zero => simp [slices]
  | succ count ih =>
      have hLast : slices (count + 1) size xs =
          slices count size xs ++ [(xs.drop (count * size)).take size] := by
        simp [slices, List.range_succ]
      rw [hLast, List.flatten_append, ih, List.flatten_singleton, Nat.succ_mul, List.take_add]

theorem flatten_slices_of_le {count size : ℕ} {xs : List α} (h : xs.length ≤ count * size) :
    (slices count size xs).flatten = xs := by
  rw [flatten_slices, List.take_of_length_le h]

theorem length_of_mem_slices {count size : ℕ} {xs : List α} (h : xs.length = count * size) :
    ∀ s ∈ slices count size xs, s.length = size := by
  intro s hs
  obtain ⟨i, hi, rfl⟩ := List.mem_map.mp hs
  have hLt := List.mem_range.mp hi
  have hRoom : (i + 1) * size ≤ count * size := Nat.mul_le_mul_right size hLt
  rw [Nat.succ_mul] at hRoom
  rw [List.length_take, List.length_drop, h]
  omega

theorem le_ceil_mul {length size : ℕ} (hSize : 0 < size) :
    length ≤ (length + size - 1) / size * size := by
  have hDiv := Nat.div_add_mod (length + size - 1) size
  have hMod := Nat.mod_lt (length + size - 1) hSize
  rw [Nat.mul_comm] at hDiv
  omega

end Prsm.Foundations
