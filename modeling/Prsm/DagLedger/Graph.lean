import Prsm.DagLedger.Assertions
import Prsm.Foundations.TipGraph

/-!
# The graph of the ledger

The rows of `dag_transactions` with their `parent_ids` and the table `tips` are a graph
with its tips, of which the connection has several versions: the one its statements see,
the one on the disk, and those of the savepoints.  `View` is what a connection and the tips
in memory show of the graph; the lemmas say what each statement does to it.

Selected tips are tips.
-/

namespace Prsm.DagLedger

open Foundations

def Tables.graph (t : Tables) : TipGraph String where
  parents := fun txId => (t.dagTransactions.get? txId).map (·.parentIds)
  tips := t.tips

/-- The graph in its versions, and the tips in memory. -/
structure View where
  live : TipGraph String
  durable : TipGraph String
  saved : List (TipGraph String)
  tips : List String

def Ledger.view (l : Ledger) : View where
  live := l.db.live.graph
  durable := l.db.durable.graph
  saved := l.db.savepoints.map Tables.graph
  tips := l.memory.tips

theorem graph_updateWeight (t : Tables) (txId : String) (weight : ℕ) (level : ℚ) :
    (t.updateWeight txId weight level).graph = t.graph := by
  unfold Tables.updateWeight
  cases hRow : t.dagTransactions.get? txId with
  | none => rfl
  | some row =>
      simp only [Tables.graph, TipGraph.mk.injEq, and_true]
      funext other
      rw [Dict.get?_set]
      by_cases hOther : other = txId
      · subst hOther
        simp [hRow]
      · simp [hOther]

theorem graph_store (t : Tables) (tx : DAGTransaction) :
    (t.store tx).graph = t.graph.store tx.txId tx.parentIds := by
  simp only [Tables.graph, Tables.store, TipGraph.store, TipGraph.mk.injEq, and_true]
  funext other
  rw [Dict.get?_set, Dict.get?_erase]
  by_cases hOther : other = tx.txId
  · simp [hOther]
  · simp [hOther]

namespace Statement

/-- The statements that leave the graph alone. -/
def isNeutral : Statement → Bool
  | storeTransaction _ | deleteTip _ | insertTip _ => false
  | statement => statement.isPlain

theorem isPlain_of_isNeutral {statement : Statement} (h : statement.isNeutral) :
    statement.isPlain := by
  cases statement <;> first | rfl | cases h

theorem onTables_graph {statement : Statement} (h : statement.isNeutral) (t : Tables) :
    (statement.onTables t).2.graph = t.graph := by
  cases statement with
  | storeTransaction tx => cases h
  | deleteTip txId => cases h
  | insertTip txId => cases h
  | updateWeight txId weight level => exact graph_updateWeight t txId weight level
  | insertWallet walletId row =>
      simp only [onTables]
      split <;> rfl
  | updateWallet walletId column =>
      simp only [onTables, Tables.updateWallet]
      split <;> rfl
  | insertBalance walletId =>
      simp only [onTables]
      split <;> rfl
  | deductBalance walletId amount expectedVersion =>
      simp only [onTables]
      split
      · rfl
      · split <;> rfl
  | creditBalance walletId amount =>
      simp only [onTables, Tables.creditBalance]
      split
      · split <;> rfl
      · rfl
  | insertNonce nonce origin =>
      simp only [onTables]
      split <;> rfl
  | _ => rfl

end Statement

namespace Ledger

variable {l l' : Ledger} {statement : Statement} {fault : Option Bool}
  {a : Except DbError (Value statement)} {e : DbError}

theorem view_of_begin (h : l'.db = l.db ∨ l'.db = l.db.begin)
    (hMemory : l'.memory = l.memory) : l'.view = l.view := by
  unfold view
  rw [hMemory]
  rcases h with h | h
  · rw [h]
  · rw [h]
    rfl

theorem view_of_error (h : l.perform fault statement = (.error e, l')) : l'.view = l.view :=
  view_of_begin (of_perform_error h).1 (perform_memory h).1

theorem view_of_neutral (hNeutral : statement.isNeutral)
    (h : l.perform fault statement = (a, l')) : l'.view = l.view := by
  cases a with
  | error e => exact view_of_error h
  | ok v =>
      have hExecute := (of_perform_ok h).2
      have hMemory := (perform_memory h).1
      rw [Statement.execute_plain (Statement.isPlain_of_isNeutral hNeutral)] at hExecute
      have hDb := (Prod.mk.inj hExecute).2
      split at hDb
      case isTrue =>
        have hGraph := Statement.onTables_graph hNeutral l.db.live
        unfold view
        rw [hMemory, ← hDb]
        simp only [Connection.update_live, Connection.update_durable,
          Connection.update_savepoints, hGraph]
      case isFalse => exact view_of_begin (.inl hDb.symm) hMemory

theorem view_commit {barrier : Barrier} {v : Value (.commit barrier)}
    (h : l.perform fault (.commit barrier) = (.ok v, l')) :
    l'.view = ⟨l.view.live, l.view.live, [], l.view.tips⟩ := by
  have hDb := (Prod.mk.inj (of_perform_ok h).2).2
  unfold view
  rw [(perform_memory h).1, ← hDb]
  rfl

theorem view_savepoint {v : Value .savepoint} (h : l.perform fault .savepoint = (.ok v, l')) :
    l'.view = { l.view with saved := l.view.live :: l.view.saved } := by
  have hDb := (Prod.mk.inj (of_perform_ok h).2).2
  unfold view
  rw [(perform_memory h).1, ← hDb]
  rfl

theorem view_release {after : Release} {v : Value (.release after)}
    (h : l.perform fault (.release after) = (.ok v, l')) :
    l'.view.live = l.view.live ∧ l'.view.tips = l.view.tips ∧
      (l'.view.durable = l.view.durable ∨ l'.view.durable = l.view.live) ∧
      ∃ g, l.view.saved = g :: l'.view.saved := by
  have hExecute := (of_perform_ok h).2
  have hMemory := (perform_memory h).1
  simp only [Statement.execute] at hExecute
  split at hExecute
  case h_2 => cases (Prod.mk.inj hExecute).1
  case h_1 db' hRelease =>
    obtain rfl : db' = l'.db := (Prod.mk.inj hExecute).2
    obtain ⟨hLive, hDurable, tables, hSaved⟩ := Connection.of_release hRelease
    refine ⟨congrArg Tables.graph hLive, congrArg Memory.tips hMemory, ?_, tables.graph, ?_⟩
    · rcases hDurable with hCommit | hSame
      · refine .inr ?_
        show l'.db.durable.graph = l.db.live.graph
        rw [hCommit]
        rfl
      · exact .inl (congrArg Tables.graph hSame)
    · show l.db.savepoints.map Tables.graph = _
      rw [hSaved]
      rfl

theorem view_rollbackTo {v : Value .rollbackTo}
    (h : l.perform fault .rollbackTo = (.ok v, l')) :
    ∃ g rest, l.view.saved = g :: rest ∧ l'.view = { l.view with live := g } := by
  have hExecute := (of_perform_ok h).2
  have hMemory := (perform_memory h).1
  simp only [Statement.execute] at hExecute
  split at hExecute
  case h_2 => cases (Prod.mk.inj hExecute).1
  case h_1 db' hRollback =>
    obtain rfl : db' = l'.db := (Prod.mk.inj hExecute).2
    obtain ⟨tables, rest, hSaved, hDb⟩ := Connection.of_rollbackTo hRollback
    refine ⟨tables.graph, rest.map Tables.graph, ?_, ?_⟩
    · show l.db.savepoints.map Tables.graph = _
      rw [hSaved]
      rfl
    · unfold view
      rw [hMemory, hDb]

theorem rollbackTo_ok_iff_saved {a : Except DbError (Value .rollbackTo)}
    (h : l.perform none .rollbackTo = (a, l')) :
    (∃ v, a = .ok v) ↔ l.view.saved ≠ [] := by
  obtain ⟨hAnswer, -⟩ := Prod.mk.inj h
  rw [← hAnswer]
  simp only [Statement.execute, Connection.rollbackTo, view]
  cases l.db.savepoints with
  | nil => simp
  | cons tables rest => simp

theorem release_ok_of_saved {after : Release} {a : Except DbError (Value (.release after))}
    (h : l.perform none (.release after) = (a, l')) (hSaved : l.view.saved ≠ []) :
    ∃ v, a = .ok v := by
  obtain ⟨hAnswer, -⟩ := Prod.mk.inj h
  rw [← hAnswer]
  have hSavepoints : l.db.savepoints ≠ [] := by simpa [view] using hSaved
  simp only [Statement.execute, Connection.release]
  cases hCases : l.db.savepoints with
  | nil => exact absurd hCases hSavepoints
  | cons tables rest =>
      dsimp only
      split
      case h_1 => exact ⟨_, rfl⟩
      case h_2 hNone =>
        split at hNone <;> cases hNone

theorem view_store {tx : DAGTransaction} {v : Value (.storeTransaction tx)}
    (h : l.perform fault (.storeTransaction tx) = (.ok v, l')) :
    l'.view = { l.view with live := l.view.live.store tx.txId tx.parentIds } := by
  have hDb := (Prod.mk.inj (of_perform_ok h).2).2
  have hGraph := graph_store l.db.live tx
  unfold view
  rw [(perform_memory h).1, ← hDb, ← hGraph]
  rfl

theorem view_deleteTip {txId : String} {v : Value (.deleteTip txId)}
    (h : l.perform fault (.deleteTip txId) = (.ok v, l')) :
    l'.view = { l.view with
      live := { l.view.live with tips := removeTip txId l.view.live.tips } } := by
  have hDb := (Prod.mk.inj (of_perform_ok h).2).2
  unfold view
  rw [(perform_memory h).1, ← hDb]
  rfl

theorem view_insertTip {txId : String} {v : Value (.insertTip txId)}
    (h : l.perform fault (.insertTip txId) = (.ok v, l')) :
    l'.view = { l.view with
      live := { l.view.live with tips := addTip txId l.view.live.tips } } := by
  have hDb := (Prod.mk.inj (of_perform_ok h).2).2
  unfold view
  rw [(perform_memory h).1, ← hDb]
  rfl

end Ledger

/-! ## The tips -/

@[simp] theorem mem_addTip {txId tip : String} {tips : List String} :
    tip ∈ addTip txId tips ↔ tip = txId ∨ tip ∈ tips := by
  unfold addTip
  split
  case isTrue hHere =>
    constructor
    · exact .inr
    · rintro (rfl | h)
      · exact hHere
      · exact h
  case isFalse => simp [or_comm]

@[simp] theorem mem_removeTip {txId tip : String} {tips : List String} :
    tip ∈ removeTip txId tips ↔ tip ∈ tips ∧ tip ≠ txId := by
  simp [removeTip]

theorem mem_of_pickTip {r : ℚ} {selected : List String} {cumulative : ℚ}
    {available : List (String × ℚ)} {tip : String}
    (h : pickTip r selected cumulative available = some tip) :
    tip ∈ available.map Prod.fst := by
  induction available generalizing cumulative with
  | nil => cases h
  | cons entry rest ih =>
      simp only [pickTip] at h
      split at h
      · cases h
        exact List.mem_cons_self
      · exact List.mem_cons_of_mem _ (ih h)

theorem mem_of_drawTips {rounds : ℕ} {draws : List ℚ} {available : List (String × ℚ)}
    {selected : List String} {tip : String} (h : tip ∈ drawTips rounds draws available selected) :
    tip ∈ selected ∨ tip ∈ available.map Prod.fst := by
  induction rounds generalizing draws available selected with
  | zero => exact .inl h
  | succ rounds ih =>
      simp only [drawTips] at h
      split at h
      · exact .inl h
      · rcases ih h with hSelected | hAvailable
        · rcases List.mem_append.mp hSelected with hOld | hPicked
          · exact .inl hOld
          · exact .inr (mem_of_pickTip (Option.mem_toList.mp hPicked))
        · obtain ⟨entry, hEntry, rfl⟩ := List.mem_map.mp hAvailable
          exact .inr (List.mem_map_of_mem (List.mem_filter.mp hEntry).1)

theorem mem_of_selectTipsMcmc {lib : Library} (hOrder : ∀ tips, (lib.setOrder tips).Perm tips)
    {l : Ledger} {numTips : ℕ} {tip : String} (h : tip ∈ selectTipsMcmc lib l numTips) :
    tip ∈ l.memory.tips := by
  apply (hOrder l.memory.tips).subset
  unfold selectTipsMcmc at h
  dsimp only at h
  split at h
  · exact h
  · split at h
    · exact List.mem_of_mem_take h
    · rcases mem_of_drawTips h with hNone | hTip
      · cases hNone
      · simpa using hTip

end Prsm.DagLedger

/-!
# Changes to the graph

A submission takes the write lock, so that nobody else changes the graph until it is done;
`graphDiscipline` says what its task relies on.  Two things break what it keeps: a row under
an identifier that is already stored, which the check before the lock lets through, and an
error after the tips in memory have moved, which the savepoint undoes in the tables only.
`undisturbed` leaves them out.
-/

namespace Prsm.DagLedger

open Foundations

/-- A row is stored under a new identifier, a deduction finds the version that was checked,
and the statements that move the tips or end a savepoint do not fail, nor do those of the
weights with a savepoint. -/
def undisturbed (moment : Moment) (l : Ledger) : Request → Bool
  | .execute (.storeTransaction tx) => (l.db.live.dagTransactions.get? tx.txId).isNone
  | .execute (.deductBalance walletId _ version) => moment.fault.isNone &&
      (l.db.live.walletBalances.get? walletId).map (·.version) = some version
  | .execute (.updateWeight _ _ _) => moment.fault.isNone || l.db.savepoints.isEmpty
  | .execute (.deleteTip _) => moment.fault.isNone
  | .execute (.insertTip _) => moment.fault.isNone
  | .execute (.release .deducted) => moment.fault.isNone
  | .execute (.release .undone) => moment.fault.isNone
  | .execute .rollbackTo => moment.fault.isNone
  | _ => true

/-! ## What the tasks rely on -/

namespace View

/-- What always holds. -/
structure Sound (v : View) : Prop where
  live : v.live.Acyclic
  durable : v.durable.WellFormed

/-- The graph is whole, and memory and table have the same tips. -/
structure Whole (v : View) : Prop where
  live : v.live.WellFormed
  durable : v.durable.WellFormed
  tips : ∀ txId, txId ∈ v.tips ↔ txId ∈ v.live.tips

/-- Without a savepoint. -/
structure Plain (v : View) : Prop extends v.Whole where
  saved : v.saved = []

/-- With a savepoint to which nothing has changed. -/
structure Guarded (v : View) : Prop extends v.Whole where
  saved : v.saved = [v.live]

/-- With or without a savepoint, and what to go back to with it is of no concern. -/
structure Deep (depth : ℕ) (v : View) : Prop extends v.Whole where
  saved : v.saved.length = depth

/-- The row of `tx` is added to `g`, and the tips have been moved in part. -/
structure Linking (g : TipGraph String) (tx : DAGTransaction) (depth : ℕ)
    (onDisk inMemory : String → Prop) (v : View) : Prop where
  before : g.WellFormed
  fresh : g.parents tx.txId = none
  named : ∀ p ∈ tx.parentIds, p ∈ g.tips
  live : v.live.parents = (g.store tx.txId tx.parentIds).parents
  durable : v.durable.WellFormed
  saved : v.saved.length = depth
  disk : ∀ txId, txId ∈ v.live.tips ↔ onDisk txId
  memory : ∀ txId, txId ∈ v.tips ↔ inMemory txId

variable {v : View} {g : TipGraph String} {tx : DAGTransaction} {depth : ℕ}
  {onDisk inMemory : String → Prop}

theorem Whole.sound (h : v.Whole) : v.Sound := ⟨h.live.toAcyclic, h.durable⟩

theorem Linking.sound (h : v.Linking g tx depth onDisk inMemory) : v.Sound := by
  have hGrown := h.before.toAcyclic.store h.fresh fun p hp =>
    ((h.before.mem_tips_iff p).mp (h.named p hp)).1
  obtain ⟨⟨parents, tips⟩, durable, saved, memoryTips⟩ := v
  obtain rfl : parents = (g.store tx.txId tx.parentIds).parents := h.live
  exact ⟨⟨hGrown.irrefl, hGrown.closed⟩, h.durable⟩

theorem Linking.deep {moved : String → Prop} (h : v.Linking g tx depth moved moved)
    (hMoved : ∀ txId, moved txId ↔ txId = tx.txId ∨ txId ∈ g.tips ∧ txId ∉ tx.parentIds) :
    v.Deep depth where
  live := h.before.grow h.fresh h.named h.live fun txId => (h.disk txId).trans (hMoved txId)
  durable := h.durable
  tips := fun txId => (h.memory txId).trans (h.disk txId).symm
  saved := h.saved

end View

/-- The durable graph is whole, the other one is acyclic, and whole while the lock is free. -/
def Kept (l : Ledger) : Prop := l.view.Sound ∧ (l.writeLock = none → l.view.Plain)

/-- While a task holds the lock, the others leave the graph alone. -/
def relies (me : ℕ) (l l' : Ledger) : Prop :=
  l.writeLock = some me → l'.writeLock = some me ∧ l'.view = l.view

def graphDiscipline : Discipline Ledger Request Moment where
  Inv := Kept
  Fresh := fun _ _ => True
  Rely := relies
  Writes := fun _ _ => True
  Allowed := fun _ moment l r => undisturbed moment l r
  Before := fun _ _ _ => True
  rely_refl := fun _ _ hMine => ⟨hMine, rfl⟩
  rely_trans := fun _ _ _ _ h h' hMine =>
    ⟨(h' (h hMine).1).1, (h' (h hMine).1).2.trans (h hMine).2⟩
  writes_refl := fun _ => trivial
  writes_trans := fun _ _ _ _ _ => trivial
  fresh_stable := fun _ _ _ _ _ _ h => h

/-- The task holds the lock, and something holds of the graph. -/
def Under (me : ℕ) (F : View → Prop) (l : Ledger) : Prop :=
  l.writeLock = some me ∧ F l.view

theorem View.Deep.released {l l' : Ledger} {fault : Option Bool} {after : Release}
    {v : Value (.release after)} {depth : ℕ} (h : l.view.Deep (depth + 1))
    (hPerformed : l.perform fault (.release after) = (.ok v, l')) : l'.view.Deep depth := by
  obtain ⟨hLive, hTips, hDurable, g, hSaved⟩ := Ledger.view_release hPerformed
  refine ⟨⟨by rw [hLive]; exact h.live, ?_, ?_⟩, ?_⟩
  · rcases hDurable with hKept | hCommitted
    · rw [hKept]
      exact h.durable
    · rw [hCommitted]
      exact h.live
  · rw [hLive, hTips]
    exact h.tips
  · have hDepth := h.saved
    rw [hSaved] at hDepth
    exact Nat.succ.inj hDepth

theorem View.plain_iff_deep {v : View} : v.Plain ↔ v.Deep 0 :=
  ⟨fun h => ⟨h.toWhole, by rw [h.saved]; rfl⟩,
    fun h => ⟨h.toWhole, List.length_eq_zero_iff.mp h.saved⟩⟩

theorem View.Guarded.deep {v : View} (h : v.Guarded) : v.Deep 1 :=
  ⟨h.toWhole, by rw [h.saved]; rfl⟩

theorem View.Guarded.released {l l' : Ledger} {fault : Option Bool} {after : Release}
    {v : Value (.release after)} (h : l.view.Guarded)
    (hPerformed : l.perform fault (.release after) = (.ok v, l')) : l'.view.Plain :=
  View.plain_iff_deep.mpr (h.deep.released hPerformed)

/-- One thing holds after an answer, another after an error. -/
def onOutcome {α : Type} (P Q : View → Prop) : Except DbError α → View → Prop
  | .ok _ => P
  | .error _ => Q

theorem sound_onOutcome {α : Type} {P Q : View → Prop} (hP : ∀ v, P v → v.Sound)
    (hQ : ∀ v, Q v → v.Sound) (a : Except DbError α) (v : View) (h : onOutcome P Q a v) :
    v.Sound := by
  cases a with
  | ok answer => exact hP v h
  | error e => exact hQ v h

section Rules

variable {me : ℕ} {l l' : Ledger} {F G : View → Prop} {α β : Type}
  {R : Except Error β → Ledger → Prop}

theorem Under.imp (h : Under me F l) (hImp : ∀ v, F v → G v) : Under me G l :=
  ⟨h.1, hImp _ h.2⟩

theorem stable_under : graphDiscipline.Stable me (Under me F) := by
  rintro l l' - hRely - ⟨hMine, hHere⟩
  obtain ⟨hStill, hView⟩ := hRely hMine
  exact ⟨hStill, hView ▸ hHere⟩

theorem Under.kept (h : Under me F l) (hSound : F l.view → l.view.Sound) : Kept l := by
  refine ⟨hSound h.2, fun hFree => ?_⟩
  rw [h.1] at hFree
  cases hFree

theorem guarantee_under (hMine : l.writeLock = some me) (h : Under me F l')
    (hSound : F l'.view → l'.view.Sound) : graphDiscipline.Guarantee me l l' := by
  refine ⟨h.kept hSound, fun other hOther hHeld => ?_⟩
  rw [hMine] at hHeld
  exact absurd (Option.some.inj hHeld).symm hOther

theorem safe_execute {statement : Statement} {G : Except DbError (Value statement) → View → Prop}
    {resume : Except DbError (Value statement) → Method β} (hInv : Kept l) (hHere : Under me F l)
    (hSound : ∀ a v, G a v → v.Sound)
    (hPerform : ∀ moment l a l', F l.view → undisturbed moment l (.execute statement) →
      (l.atMoment moment).perform moment.fault statement = (a, l') → G a l'.view)
    (hResume : ∀ a l, Kept l → Under me (G a) l →
      graphDiscipline.Safe Ledger.serve me R (resume a) l) :
    graphDiscipline.Safe Ledger.serve me R (.await (.execute statement) resume) l := by
  refine Discipline.safe_ask (K := fun a => Under me (G a)) hInv hHere stable_under
    (fun _ => stable_under) (fun _ _ _ => trivial) ?_ fun a l hInv hHere => hResume a l hInv hHere
  intro moment a l l' _ hHere hAllowed hServe
  have hPerformed := Option.some.inj hServe
  have hLock : l'.writeLock = l.writeLock := (Ledger.perform_memory hPerformed).2
  have hAfter : Under me (G a) l' :=
    ⟨hLock.trans hHere.1, hPerform moment l a l' hHere.2 hAllowed hPerformed⟩
  exact ⟨guarantee_under hHere.1 hAfter (hSound a _), hAfter⟩

theorem safe_neutral {statement : Statement} (hNeutral : statement.isNeutral)
    {resume : Except DbError (Value statement) → Method β} (hInv : Kept l)
    (hHere : Under me F l) (hSound : ∀ v, F v → v.Sound)
    (hResume : ∀ a l, Kept l → Under me F l →
      graphDiscipline.Safe Ledger.serve me R (resume a) l) :
    graphDiscipline.Safe Ledger.serve me R (.await (.execute statement) resume) l := by
  refine safe_execute (G := fun _ => F) hInv hHere (fun _ => hSound) ?_ hResume
  intro moment l a l' hHere _ hPerformed
  rw [Ledger.view_of_neutral hNeutral hPerformed]
  exact hHere

theorem safe_commit {barrier : Barrier} {resume : Except DbError Unit → Method β}
    (hInv : Kept l) (hHere : Under me View.Plain l)
    (hResume : ∀ a l, Kept l → Under me View.Plain l →
      graphDiscipline.Safe Ledger.serve me R (resume a) l) :
    graphDiscipline.Safe Ledger.serve me R (.await (.execute (.commit barrier)) resume) l := by
  refine safe_execute (G := fun _ => View.Plain) hInv hHere (fun _ _ h => h.sound) ?_ hResume
  intro moment l a l' hPlain _ hPerformed
  cases a with
  | error e =>
      rw [Ledger.view_of_error hPerformed]
      exact hPlain
  | ok v =>
      rw [Ledger.view_commit hPerformed]
      exact ⟨⟨hPlain.live, hPlain.live, hPlain.tips⟩, rfl⟩

theorem safe_modify {f : Memory → Memory} {next : Method β} (hHere : Under me F l)
    (hWrite : F l.view → G { l.view with tips := (f l.memory).tips })
    (hSound : ∀ v, G v → v.Sound)
    (hNext : ∀ l, Kept l → Under me G l → graphDiscipline.Safe Ledger.serve me R next l) :
    graphDiscipline.Safe Ledger.serve me R
      (.write (fun l => { l with memory := f l.memory }) next) l := by
  have hAfter : Under me G { l with memory := f l.memory } := ⟨hHere.1, hWrite hHere.2⟩
  exact ⟨guarantee_under hHere.1 hAfter (hSound _), trivial,
    hNext _ (hAfter.kept (hSound _)) hAfter⟩

theorem safe_note {f : Memory → Memory} {next : Method β} (hHere : Under me F l)
    (hTips : ∀ m, (f m).tips = m.tips) (hSound : ∀ v, F v → v.Sound)
    (hNext : ∀ l, Kept l → Under me F l → graphDiscipline.Safe Ledger.serve me R next l) :
    graphDiscipline.Safe Ledger.serve me R
      (.write (fun l => { l with memory := f l.memory }) next) l := by
  refine safe_modify hHere (fun h => ?_) hSound hNext
  rw [hTips]
  exact h

end Rules

end Prsm.DagLedger
