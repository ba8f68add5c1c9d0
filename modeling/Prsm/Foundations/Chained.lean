import Mathlib.Tactic

/-!
# Chained records

A list of records each of which names the one before it by a link, as in a hash chain.  The
link of the last record is what the next one has to name, and where links can be told apart it
fixes the whole list.
-/

namespace Prsm.Foundations

variable {α β : Type*} (link prev : α → β)

/-- The first record names `start`, and each later one the link of the record before it. -/
def Chained : β → List α → Prop
  | _, [] => True
  | start, x :: rest => prev x = start ∧ Chained (link x) rest

/-- What the next record has to name. -/
def lastLink (start : β) (records : List α) : β :=
  records.foldl (fun _ x => link x) start

@[simp] theorem lastLink_nil (start : β) : lastLink link start [] = start := rfl

@[simp] theorem lastLink_cons (start : β) (x : α) (records : List α) :
    lastLink link start (x :: records) = lastLink link (link x) records := rfl

@[simp] theorem lastLink_concat (start : β) (records : List α) (x : α) :
    lastLink link start (records ++ [x]) = link x := by
  simp [lastLink]

variable {link prev}

theorem chained_append {start : β} {records more : List α} :
    Chained link prev start (records ++ more) ↔
      Chained link prev start records ∧ Chained link prev (lastLink link start records) more := by
  induction records generalizing start with
  | nil => simp [Chained]
  | cons x records ih =>
      rw [List.cons_append, Chained, Chained, ih, lastLink_cons, and_assoc]

theorem chained_concat {start : β} {records : List α} {x : α} :
    Chained link prev start (records ++ [x]) ↔
      Chained link prev start records ∧ prev x = lastLink link start records := by
  rw [chained_append]
  simp [Chained]

theorem prev_eq_of_chained {start : β} {records more : List α} {x : α}
    (h : Chained link prev start (records ++ x :: more)) :
    prev x = lastLink link start records := by
  obtain ⟨-, hRest⟩ := chained_append.mp h
  exact hRest.1

/-- Two chains of one length with one last link agree in every record, as far as links tell
records apart. -/
theorem forall₂_of_lastLink_eq {R : α → α → Prop} {start : β} {records records' : List α}
    (hLink : ∀ x ∈ records, ∀ y ∈ records', link x = link y → R x y)
    (hPrev : ∀ x y, R x y → prev x = prev y)
    (h : Chained link prev start records) (h' : Chained link prev start records')
    (hLength : records.length = records'.length)
    (hLast : lastLink link start records = lastLink link start records') :
    List.Forall₂ R records records' := by
  -- the last records are related by their links, and so name one record before them
  induction records using List.reverseRecOn generalizing records' with
  | nil =>
      obtain rfl : records' = [] := List.eq_nil_of_length_eq_zero (by simpa using hLength.symm)
      exact .nil
  | append_singleton records x ih =>
      induction records' using List.reverseRecOn with
      | nil => simp at hLength
      | append_singleton records' y _ =>
          obtain ⟨hFront, hx⟩ := chained_concat.mp h
          obtain ⟨hFront', hy⟩ := chained_concat.mp h'
          have hPair : R x y := by
            apply hLink x (by simp) y (by simp)
            simpa using hLast
          have hSame : lastLink link start records = lastLink link start records' := by
            rw [← hx, ← hy]
            exact hPrev x y hPair
          have hRest : List.Forall₂ R records records' := by
            apply ih _ hFront hFront' (by simpa using hLength) hSame
            intro z hz w hw
            exact hLink z (by simp [hz]) w (by simp [hw])
          exact List.rel_append hRest (.cons hPair .nil)

end Prsm.Foundations
