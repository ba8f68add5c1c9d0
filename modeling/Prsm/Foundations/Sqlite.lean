import Mathlib.Tactic

/-!
# One database connection

A `Connection` is what all users of one SQLite connection share: the tables as its
statements see them, the tables on the disk, and the transaction that is open.  A
transaction is opened by the first change (`begun`) or by a savepoint.  It ends
with a commit, which also drops all savepoints, or with the release of the last
savepoint of a transaction that a savepoint opened.  A crash leaves the tables on
the disk.
-/

namespace Prsm.Foundations

/-- A connection to a database with the tables `T`.  The last savepoint is first. -/
structure Connection (T : Type) where
  live : T
  durable : T
  begun : Bool
  savepoints : List T

namespace Connection

variable {T : Type} (c : Connection T)

/-- A connection that has just been opened. -/
def opened (tables : T) : Connection T := ⟨tables, tables, false, []⟩

/-- What comes before a change. -/
def begin : Connection T :=
  { c with begun := c.begun || c.savepoints.isEmpty }

/-- A change of the tables. -/
def update (f : T → T) : Connection T :=
  { c.begin with live := f c.live }

def commit : Connection T := opened c.live

def savepoint : Connection T :=
  { c with savepoints := c.live :: c.savepoints }

/-- `none` where there is no savepoint. -/
def release : Option (Connection T) :=
  match c.savepoints with
  | [] => none
  | _ :: rest =>
      if rest.isEmpty && !c.begun then some c.commit else some { c with savepoints := rest }

/-- The savepoint stays. -/
def rollbackTo : Option (Connection T) :=
  match c.savepoints with
  | [] => none
  | tables :: _ => some { c with live := tables }

/-- No transaction is open. -/
def Idle : Prop := c.live = c.durable ∧ c.begun = false ∧ c.savepoints = []

variable {c}

@[simp] theorem update_live (f : T → T) : (c.update f).live = f c.live := rfl

@[simp] theorem update_durable (f : T → T) : (c.update f).durable = c.durable := rfl

@[simp] theorem update_savepoints (f : T → T) : (c.update f).savepoints = c.savepoints := rfl

theorem update_of_fixed {f : T → T} (h : f c.live = c.live) : c.update f = c.begin := by
  rw [update, h]
  rfl

@[simp] theorem begin_live : c.begin.live = c.live := rfl

@[simp] theorem begin_durable : c.begin.durable = c.durable := rfl

@[simp] theorem begin_savepoints : c.begin.savepoints = c.savepoints := rfl

@[simp] theorem commit_live : c.commit.live = c.live := rfl

@[simp] theorem commit_durable : c.commit.durable = c.live := rfl

@[simp] theorem commit_savepoints : c.commit.savepoints = [] := rfl

@[simp] theorem savepoint_live : c.savepoint.live = c.live := rfl

@[simp] theorem savepoint_durable : c.savepoint.durable = c.durable := rfl

@[simp] theorem savepoint_savepoints : c.savepoint.savepoints = c.live :: c.savepoints := rfl

theorem idle_opened (tables : T) : (opened tables).Idle := ⟨rfl, rfl, rfl⟩

theorem Idle.eq (h : c.Idle) : c = opened c.live := by
  obtain ⟨hLive, hBegun, hSaved⟩ := h
  cases c
  cases hLive
  cases hBegun
  cases hSaved
  rfl

theorem of_release {c' : Connection T} (h : c.release = some c') :
    c'.live = c.live ∧ (c' = c.commit ∨ c'.durable = c.durable) ∧
      ∃ tables, c.savepoints = tables :: c'.savepoints := by
  unfold release at h
  cases hSaved : c.savepoints with
  | nil =>
      rw [hSaved] at h
      cases h
  | cons tables rest =>
      rw [hSaved] at h
      by_cases hLast : (rest.isEmpty && !c.begun) = true
      · simp only [hLast, if_true] at h
        cases h
        have hRest : rest = [] := List.isEmpty_iff.mp ((Bool.and_eq_true _ _).mp hLast).1
        exact ⟨rfl, Or.inl rfl, tables, by rw [hRest, commit_savepoints]⟩
      · simp only [hLast] at h
        cases h
        exact ⟨rfl, Or.inr rfl, tables, rfl⟩

theorem of_rollbackTo {c' : Connection T} (h : c.rollbackTo = some c') :
    ∃ tables rest, c.savepoints = tables :: rest ∧ c' = { c with live := tables } := by
  unfold rollbackTo at h
  cases hSaved : c.savepoints with
  | nil =>
      rw [hSaved] at h
      cases h
  | cons tables rest =>
      rw [hSaved] at h
      exact ⟨tables, rest, rfl, (Option.some.inj h).symm⟩

end Connection
end Prsm.Foundations
