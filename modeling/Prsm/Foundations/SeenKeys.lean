import Prsm.Foundations.Machine

/-!
# Guards against replays

A guard keeps the keys of what it has let through, in memory and on disk, and
turns down an entry whose key it has seen.  A write to disk may fail and a
restart goes back to what is on disk, so an entry counts as let through only
once its key is on disk.

The guard compares keys, and what must not repeat is another attribute of the entries, their
identity.
-/

namespace Prsm.Foundations

universe u v w x y

/-- The keys in memory and the keys on disk. -/
structure SeenKeys (κ : Type u) where
  seen : Finset κ
  disk : Finset κ

namespace SeenKeys

variable {κ : Type u} [DecidableEq κ] {α : Type v} {β : Type w}

/-- A store that has seen nothing. -/
def empty : SeenKeys κ := ⟨∅, ∅⟩

/-- Add a key, and persist all keys unless the write fails. -/
def remember (store : SeenKeys κ) (key : κ) (saved : Bool) : SeenKeys κ where
  seen := insert key store.seen
  disk := if saved then insert key store.seen else store.disk

/-- Read the keys back from disk. -/
def restart (store : SeenKeys κ) : SeenKeys κ := { store with seen := store.disk }

/-- Every entry of the log is remembered, in memory and on disk. -/
def Covers (key : α → κ) (store : SeenKeys κ) (log : List α) : Prop :=
  ∀ e ∈ log, key e ∈ store.seen ∧ key e ∈ store.disk

/-- What one step does to a guard and to the log of the entries that it has let
through, with the entry that the step lets through. -/
inductive Move (key : α → κ) (store : SeenKeys κ) (log : List α) :
    Option α → SeenKeys κ → List α → Prop
  | same : Move key store log none store log
  | restart : Move key store log none store.restart log
  /-- A key is used up without anything being let through. -/
  | burn (k : κ) (saved : Bool) : Move key store log none (store.remember k saved) log
  | accept (e : α) (hFresh : key e ∉ store.seen) :
      Move key store log (some e) (store.remember (key e) true) (log ++ [e])

variable {key : α → κ} {store store' : SeenKeys κ} {log log' : List α} {accepted : Option α}

theorem Covers.remember (h : store.Covers key log) (k : κ) (saved : Bool) :
    (store.remember k saved).Covers key log := by
  intro e he
  obtain ⟨hSeen, hDisk⟩ := h e he
  refine ⟨Finset.mem_insert_of_mem hSeen, ?_⟩
  cases saved with
  | false => exact hDisk
  | true => exact Finset.mem_insert_of_mem hSeen

theorem Covers.move (h : store.Covers key log) (hMove : Move key store log accepted store' log') :
    store'.Covers key log' := by
  cases hMove with
  | same => exact h
  | restart => exact fun e he => ⟨(h e he).2, (h e he).2⟩
  | burn k saved => exact h.remember k saved
  | accept e hFresh =>
      intro e' he'
      rcases List.mem_append.mp he' with hOld | hNew
      · exact h.remember (key e) true e' hOld
      · rw [List.mem_singleton.mp hNew]
        exact ⟨Finset.mem_insert_self _ _, Finset.mem_insert_self _ _⟩

/-- Nothing that is let through has an identity of the log, unless it came back
under another key. -/
theorem Covers.nodup_move_iff (h : store.Covers key log)
    (hMove : Move key store log accepted store' log') (identity : α → β)
    (hNodup : (log.map identity).Nodup) :
    (log'.map identity).Nodup ↔
      ∀ e ∈ accepted, ∀ earlier ∈ log, identity earlier = identity e → key earlier = key e := by
  cases hMove with
  | same | restart | burn => exact iff_of_true hNodup (by simp)
  | accept e hFresh =>
      rw [List.map_append, List.map_singleton, List.nodup_append]
      constructor
      · rintro ⟨-, -, hApart⟩ e' he' earlier hEarlier hSame
        cases he'
        exact (hApart _ (List.mem_map_of_mem hEarlier) _ (List.mem_singleton_self _) hSame).elim
      · intro hAlike
        refine ⟨hNodup, List.nodup_singleton _, ?_⟩
        rintro a ha b hb rfl
        obtain ⟨earlier, hEarlier, hSame⟩ := List.mem_map.mp ha
        rw [List.mem_singleton] at hb
        have hKey : key earlier = key e := hAlike e rfl earlier hEarlier (hSame.trans hb)
        exact hFresh (hKey ▸ (h earlier hEarlier).1)

/-- A machine whose steps are moves of a guard lets no identity through twice,
throughout a run, exactly when no step lets one through under another key. -/
theorem everyState_nodup_iff {State : Type x} {Input : Type y} (m : Machine State Input)
    (guard : State → SeenKeys κ) (log : State → List α) (key : α → κ) (identity : α → β)
    (Alike : State → Input → Prop)
    (hStep : ∀ s i s', m.step s i = some s' → ∃ accepted,
      Move key (guard s) (log s) accepted (guard s') (log s') ∧
        (Alike s i ↔ ∀ e ∈ accepted, ∀ earlier ∈ log s,
          identity earlier = identity e → key earlier = key e))
    {s : State} (hStart : log s = []) (is : List Input) :
    m.EveryState (fun s => ((log s).map identity).Nodup) s is ↔ m.EveryStep Alike s is := by
  refine m.everyState_iff_everyStep (fun s => (guard s).Covers key (log s)) _ Alike ?_ ?_ ?_ ?_ is
  · intro s i s' hCovers hNext
    obtain ⟨accepted, hMove, -⟩ := hStep s i s' hNext
    exact hCovers.move hMove
  · intro s i s' hCovers hNodup hNext
    obtain ⟨accepted, hMove, hAlike⟩ := hStep s i s' hNext
    rw [hAlike]
    exact hCovers.nodup_move_iff hMove identity hNodup
  · intro e he
    rw [hStart] at he
    cases he
  · rw [hStart]
    exact List.nodup_nil

end SeenKeys
end Prsm.Foundations
