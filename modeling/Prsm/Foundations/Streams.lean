import Mathlib.Data.List.Basic
import Mathlib.Tactic

/-!
# Seekable inputs and transformations fed block by block

A `Cursor` is an input opened for reading: its contents and the offset of the next element.  A
transformation is a function that takes a state and a block to the next state and an output
block; `feed` runs it over a list of blocks.  What a loop reads from a cursor is cut into blocks
somewhere, so a fact about such a loop is a fact about all lists of blocks with one concatenation.
-/

namespace Prsm.Foundations

universe u v w

structure Cursor (α : Type u) where
  contents : List α
  offset : ℕ

namespace Cursor

variable {α : Type u} (fin : Cursor α) (n : ℕ)

/-- An input opened at its first element. -/
def start (contents : List α) : Cursor α :=
  { contents, offset := 0 }

def unread : List α :=
  fin.contents.drop fin.offset

/-- At most `n` elements, fewer only at the end, and the cursor behind them. -/
def read : List α × Cursor α :=
  (fin.unread.take n, { fin with offset := fin.offset + (fin.unread.take n).length })

def seek : Cursor α :=
  { fin with offset := n }

@[simp] theorem unread_start (contents : List α) : (start contents).unread = contents := by
  simp [start, unread]

@[simp] theorem contents_start (contents : List α) : (start contents).contents = contents := rfl

@[simp] theorem read_fst : (fin.read n).1 = fin.unread.take n := rfl

@[simp] theorem contents_read : (fin.read n).2.contents = fin.contents := rfl

@[simp] theorem contents_seek : (fin.seek n).contents = fin.contents := rfl

@[simp] theorem unread_seek : (fin.seek n).unread = fin.contents.drop n := rfl

@[simp] theorem unread_read : (fin.read n).2.unread = fin.unread.drop n := by
  have hLength : (fin.unread.take n).length = min n fin.unread.length := List.length_take
  have hDrop : (fin.read n).2.unread = fin.unread.drop (min n fin.unread.length) := by
    rw [← hLength]
    simp [read, unread, List.drop_drop]
  rcases Nat.le_total n fin.unread.length with h | h
  · rw [hDrop, Nat.min_eq_left h]
  · rw [hDrop, Nat.min_eq_right h, List.drop_length, List.drop_eq_nil_of_le h]

theorem unread_eq_nil_of_read {n : ℕ} (hPos : 0 < n) (h : (fin.read n).1 = []) :
    fin.unread = [] := by
  rw [read_fst, List.take_eq_nil_iff] at h
  exact h.resolve_left (by omega)

theorem length_unread_read_lt {n : ℕ} (h : (fin.read n).1 ≠ []) :
    (fin.read n).2.unread.length < fin.unread.length := by
  rw [read_fst, Ne, List.take_eq_nil_iff, not_or] at h
  have hUnread := List.length_pos_iff.mpr h.2
  rw [unread_read, List.length_drop]
  omega

theorem read_append_take {n total : ℕ} (h : n ≤ total) :
    (fin.read n).1 ++ (fin.read n).2.unread.take (total - (fin.read n).1.length) =
      fin.unread.take total := by
  rw [unread_read, read_fst]
  rcases Nat.le_total n fin.unread.length with hLong | hShort
  · rw [List.length_take, Nat.min_eq_left hLong, ← List.take_add, Nat.add_sub_cancel' h]
  · rw [List.drop_eq_nil_of_le hShort, List.take_nil, List.append_nil,
      List.take_of_length_le hShort, List.take_of_length_le (hShort.trans h)]

end Cursor

section Feeding

variable {α : Type u} {β : Type v} {σ : Type w} (update : σ → List α → σ × List β)

/-- The state after the blocks, and what came out, in order. -/
def feed (s : σ) : List (List α) → σ × List β
  | [] => (s, [])
  | block :: blocks =>
      ((feed (update s block).1 blocks).1, (update s block).2 ++ (feed (update s block).1 blocks).2)

@[simp] theorem feed_nil (s : σ) : feed update s [] = (s, []) := rfl

theorem feed_cons (s : σ) (block : List α) (blocks : List (List α)) :
    feed update s (block :: blocks) =
      ((feed update (update s block).1 blocks).1,
        (update s block).2 ++ (feed update (update s block).1 blocks).2) := rfl

theorem feed_flatten (hNil : ∀ s, update s [] = (s, []))
    (hAppend : ∀ s a b, update s (a ++ b) =
      ((update (update s a).1 b).1, (update s a).2 ++ (update (update s a).1 b).2)) :
    ∀ (blocks : List (List α)) (s : σ), feed update s blocks = update s blocks.flatten := by
  intro blocks
  induction blocks with
  | nil =>
      intro s
      rw [feed_nil, List.flatten_nil, hNil]
  | cons block blocks ih =>
      intro s
      rw [feed_cons, ih, List.flatten_cons, hAppend]

end Feeding

end Prsm.Foundations
