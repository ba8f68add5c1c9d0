import Prsm.Foundations.Dict
import Prsm.Foundations.JsonText
import Prsm.Foundations.Machine
import Prsm.Storage.Sha256

/-!
# Topologies that rotate

`TopologyRotationPolicy` draws a topology for each inference and, under `anti_repeat`, draws again
while it is one of the last ones in the history.  `verify_topology_sequence` is what a verifier
asks of the topologies drawn.  The two differ where a node pool names a node twice, and where the
history forgets topologies that are still in the verifier's window.
-/

namespace Prsm.Inference.TopologyRotation

open Foundations
open Settlement (utf8)
open Storage (Sha256)

/-! ## Lists without repeats nearby -/

section SpacedOut

variable {α : Type*} {w : ℕ} {x : α} {xs : List α}

/-- No element is one of the `w` elements after it. -/
def SpacedOut (w : ℕ) : List α → Prop
  | [] => True
  | x :: rest => x ∉ rest.take w ∧ SpacedOut w rest

theorem spacedOut_iff_reverse :
    SpacedOut w xs ↔ ∀ i < xs.length, ∀ j, i - w ≤ j → j < i →
      xs.reverse[i]? ≠ xs.reverse[j]? := by
  induction xs with
  | nil => simp [SpacedOut]
  | cons x rest ih =>
      rw [SpacedOut, ih, List.reverse_cons]
      have hEarlier : ∀ k, k < rest.length → (rest.reverse ++ [x])[k]? = rest.reverse[k]? :=
        fun k hk => List.getElem?_append_left (by simpa using hk)
      have hLast : (rest.reverse ++ [x])[rest.length]? = some x := by simp
      have hNew : x ∉ rest.take w ↔ ∀ j, rest.length - w ≤ j → j < rest.length →
          some x ≠ rest.reverse[j]? := by
        simp only [List.mem_take_iff_getElem, not_exists]
        constructor
        · intro hNot j hLow hHigh hSame
          rw [List.getElem?_reverse hHigh] at hSame
          have hBack : rest.length - 1 - j < rest.length := by omega
          rw [List.getElem?_eq_getElem hBack] at hSame
          exact hNot _ (by omega) (Option.some.inj hSame).symm
        · intro hAll i hi hSame
          have hi' : i < rest.length := by omega
          have hBack := hAll (rest.length - 1 - i) (by omega) (by omega)
          rw [List.getElem?_reverse (by omega),
            show rest.length - 1 - (rest.length - 1 - i) = i by omega,
            List.getElem?_eq_getElem hi'] at hBack
          exact hBack (congrArg some hSame.symm)
      constructor
      · rintro ⟨hHead, hRest⟩ i hi j hLow hHigh
        rw [List.length_cons] at hi
        by_cases hNewest : i = rest.length
        · subst hNewest
          rw [hLast, hEarlier j hHigh]
          exact hNew.mp hHead j hLow hHigh
        · rw [hEarlier i (by omega), hEarlier j (by omega)]
          exact hRest i (by omega) j hLow hHigh
      · intro hAll
        refine ⟨hNew.mpr fun j hLow hHigh => ?_, fun i hi j hLow hHigh => ?_⟩
        · have hHere := hAll rest.length (by simp) j hLow hHigh
          rwa [hLast, hEarlier j hHigh] at hHere
        · have hHere := hAll i (by simp only [List.length_cons]; omega) j hLow hHigh
          rwa [hEarlier i hi, hEarlier j (by omega)] at hHere

theorem take_cons_take (n : ℕ) (x : α) (xs : List α) :
    (x :: xs.take n).take n = (x :: xs).take n := by
  cases n with
  | zero => rfl
  | succ n => simp [List.take_take]

end SpacedOut

/-! ## Topologies -/

structure TopologyAssignment where
  positions : Dict (ℕ × ℕ) String
  stageCount : ℕ
  slotsPerStage : ℕ

/-- The positions, stage by stage. -/
def grid (stageCount slotsPerStage : ℕ) : List (ℕ × ℕ) :=
  (List.range stageCount).flatMap fun s => (List.range slotsPerStage).map fun sl => (s, sl)

/-- The order of the positions. -/
def positionLe (p q : (ℕ × ℕ) × String) : Bool :=
  p.1.1 < q.1.1 ∨ (p.1.1 = q.1.1 ∧ p.1.2 ≤ q.1.2)

/-- The nodes go to the positions in order. -/
def assign (stageCount slotsPerStage : ℕ) (shuffled : List String) : TopologyAssignment :=
  ⟨Dict.ofEntries ((grid stageCount slotsPerStage).zip shuffled), stageCount, slotsPerStage⟩

namespace TopologyAssignment

variable (t : TopologyAssignment)

def nodes : List String := t.positions.entries.map Prod.snd

def stableHash (sha : Sha256) : String :=
  let sortedPos := t.positions.entries.mergeSort positionLe
  sha.hexdigest (utf8 (Json.text (.array (sortedPos.map fun p =>
    .array [.int p.1.1, .int p.1.2, .str p.2]))))

end TopologyAssignment

/-! ## The generator -/

inductive RotationError
  | stageCount
  | slotsPerStage
  | emptyPool
  | poolTooSmall
  | noDistinctTopology

/-- `random.Random(seed).shuffle`. -/
structure Shuffle where
  shuffle : ℤ → List String → List String
  perm : ∀ seed xs, (shuffle seed xs).Perm xs

structure TopologyHistory where
  maxEntries : ℕ
  entries : List TopologyAssignment
  max_pos : 0 < maxEntries

inductive Strategy
  | uniformRandom
  | beaconSeeded
  | antiRepeat

structure TopologyRotationPolicy where
  strategy : Strategy
  antiRepeatWindow : ℕ

/-- The arguments of `next_topology` but the history. -/
structure TopologyCall where
  nodePool : List String
  stageCount : ℤ
  slotsPerStage : ℤ
  seedHint : ℤ

namespace TopologyHistory

variable (h : TopologyHistory)

/-- The newest entry is first, and the oldest leaves. -/
def record (t : TopologyAssignment) : TopologyHistory :=
  { h with entries := (t :: h.entries).take h.maxEntries }

def recentHashes (sha : Sha256) : List String := h.entries.map (·.stableHash sha)

end TopologyHistory

section Generator

variable (lib : Shuffle) (sha : Sha256)

def select (call : TopologyCall) (seed : ℤ) : Except RotationError TopologyAssignment := do
  require (0 < call.stageCount) .stageCount
  require (0 < call.slotsPerStage) .slotsPerStage
  require (call.nodePool ≠ []) .emptyPool
  require (call.stageCount * call.slotsPerStage ≤ call.nodePool.length) .poolTooSmall
  return assign call.stageCount.toNat call.slotsPerStage.toNat (lib.shuffle seed call.nodePool)

/-- The loop over the attempts. -/
def firstDistinct (call : TopologyCall) (recentWindow : List String) :
    List ℕ → Except RotationError TopologyAssignment
  | [] => throw .noDistinctTopology
  | attempt :: rest => do
      let candidate ← select lib call (call.seedHint * 7919 + attempt * 17)
      if candidate.stableHash sha ∈ recentWindow then firstDistinct call recentWindow rest
      else return candidate

def antiRepeatMaxAttempts : ℕ := 64

def TopologyRotationPolicy.nextTopology (policy : TopologyRotationPolicy) (call : TopologyCall)
    (history : TopologyHistory) : Except RotationError TopologyAssignment :=
  match policy.strategy with
  | .uniformRandom | .beaconSeeded => select lib call call.seedHint
  | .antiRepeat =>
      firstDistinct lib sha call ((history.recentHashes sha).take policy.antiRepeatWindow)
        (List.range antiRepeatMaxAttempts)

/-- A history with all topologies that were returned, the newest first. -/
structure Rotation where
  history : TopologyHistory
  returned : List TopologyAssignment

/-- A call whose topology is recorded; one that raises returns none. -/
def rotation (policy : TopologyRotationPolicy) : Machine Rotation TopologyCall where
  step := fun s call =>
    match policy.nextTopology lib sha call s.history with
    | .ok t => some ⟨s.history.record t, t :: s.returned⟩
    | .error _ => none

end Generator

/-- Why a sequence is rejected. -/
inductive Flaw
  | incomplete (index : ℕ)
  | outsideGrid (index : ℕ)
  | duplicatedNodes (index : ℕ)
  | repeatWithinWindow (index earlier : ℕ)

def structuralFlaw (index : ℕ) (t : TopologyAssignment) : Option Flaw :=
  let expected := grid t.stageCount t.slotsPerStage
  let actual := t.positions.entries.map Prod.fst
  if ¬ expected ⊆ actual then some (.incomplete index)
  else if ¬ actual ⊆ expected then some (.outsideGrid index)
  else if ¬ t.nodes.Nodup then some (.duplicatedNodes index)
  else none

/-- The first structural flaw, from an index on. -/
def firstStructuralFlaw : ℕ → List TopologyAssignment → Option Flaw
  | _, [] => none
  | index, t :: rest => (structuralFlaw index t).or (firstStructuralFlaw (index + 1) rest)

/-- The two loops over the places of a sequence, each with the `window` before it. -/
def firstRepeat (window : ℕ) (hashes : List String) : Option Flaw :=
  (((List.range hashes.length).flatMap fun i =>
    ((List.range i).drop (i - window)).map fun j => (i, j)).find? fun p =>
      hashes[p.1]? = hashes[p.2]?).map fun p => .repeatWithinWindow p.1 p.2

/-- `verify_topology_sequence`, with `none` for `(True, "")`. -/
def verifyTopologySequence (sha : Sha256) (sequence : List TopologyAssignment) (window : ℕ) :
    Option Flaw :=
  (firstStructuralFlaw 0 sequence).or
    (if 0 < window then firstRepeat window (sequence.map (·.stableHash sha)) else none)

/-! ## What the verifier accepts -/

section Verified

variable {sha : Sha256} {t : TopologyAssignment} {window : ℕ}

theorem firstRepeat_eq_none_iff {newest : List String} :
    firstRepeat window newest.reverse = none ↔ SpacedOut window newest := by
  rw [spacedOut_iff_reverse, firstRepeat, Option.map_eq_none_iff, List.find?_eq_none]
  constructor
  · intro hNone i hi j hLow hHigh hSame
    refine hNone (i, j) ?_ (by simpa using hSame)
    simp only [List.mem_flatMap, List.mem_map, List.mem_range, List.length_reverse]
    refine ⟨i, hi, j, ?_, rfl⟩
    rw [List.range_eq_range', List.drop_range', List.mem_range'_1]
    omega
  · intro hAll p hp hSame
    simp only [List.mem_flatMap, List.mem_map, List.mem_range, List.length_reverse] at hp
    obtain ⟨i, hi, j, hj, rfl⟩ := hp
    rw [List.range_eq_range', List.drop_range', List.mem_range'_1] at hj
    exact hAll i hi j (by omega) (by omega) (by simpa using hSame)

/-- All positions of the grid and no other are filled, each with a node of its own. -/
structure Sound (t : TopologyAssignment) : Prop where
  complete : grid t.stageCount t.slotsPerStage ⊆ t.positions.entries.map Prod.fst
  inside : t.positions.entries.map Prod.fst ⊆ grid t.stageCount t.slotsPerStage
  distinct : t.nodes.Nodup

theorem structuralFlaw_eq_none_iff {index : ℕ} : structuralFlaw index t = none ↔ Sound t := by
  have hSound : Sound t ↔ grid t.stageCount t.slotsPerStage ⊆ t.positions.entries.map Prod.fst ∧
      t.positions.entries.map Prod.fst ⊆ grid t.stageCount t.slotsPerStage ∧ t.nodes.Nodup :=
    ⟨fun h => ⟨h.complete, h.inside, h.distinct⟩, fun h => ⟨h.1, h.2.1, h.2.2⟩⟩
  rw [hSound]
  simp only [structuralFlaw]
  split_ifs with hComplete hInside hDistinct <;> simp_all

theorem firstStructuralFlaw_eq_none_iff {index : ℕ} {sequence : List TopologyAssignment} :
    firstStructuralFlaw index sequence = none ↔ ∀ t ∈ sequence, Sound t := by
  induction sequence generalizing index with
  | nil => simp [firstStructuralFlaw]
  | cons t rest ih =>
      rw [firstStructuralFlaw, Option.or_eq_none_iff, structuralFlaw_eq_none_iff, ih,
        List.forall_mem_cons]

theorem verify_eq_none_iff {newest : List TopologyAssignment} :
    verifyTopologySequence sha newest.reverse window = none ↔
      (∀ t ∈ newest, Sound t) ∧ SpacedOut window (newest.map (·.stableHash sha)) := by
  rw [verifyTopologySequence, Option.or_eq_none_iff, firstStructuralFlaw_eq_none_iff,
    List.map_reverse]
  simp only [List.mem_reverse]
  refine and_congr_right fun _ => ?_
  split
  case isTrue => exact firstRepeat_eq_none_iff
  case isFalse h =>
    obtain rfl : window = 0 := Nat.eq_zero_of_not_pos h
    have hSpaced : ∀ xs : List String, SpacedOut 0 xs := by
      intro xs
      induction xs with
      | nil => trivial
      | cons x xs ih => exact ⟨by simp, ih⟩
    simp [hSpaced]

end Verified

/-! ## What the generator returns -/

section Returned

variable {lib : Shuffle} {sha : Sha256} {call : TopologyCall} {t : TopologyAssignment}

theorem grid_length (a b : ℕ) : (grid a b).length = a * b := by
  simp [grid, List.length_flatMap]

theorem grid_nodup (a b : ℕ) : (grid a b).Nodup := by
  refine List.nodup_flatMap.mpr ⟨fun s _ => ?_, ?_⟩
  · exact List.nodup_range.map fun _ _ h => (Prod.mk.inj h).2
  · refine List.nodup_range.imp_of_mem fun {s s'} _ _ hNe => ?_
    simp only [Function.onFun, List.disjoint_left, List.mem_map, not_exists, not_and]
    rintro _ ⟨_, -, rfl⟩ _ - hSame
    exact hNe (Prod.mk.inj hSame).1.symm

variable {a b : ℕ} {shuffled : List String}

theorem assign_entries (hLength : a * b ≤ shuffled.length) :
    (assign a b shuffled).positions.entries = (grid a b).zip shuffled := by
  refine Dict.entries_ofEntries ?_
  rw [List.map_fst_zip (by rwa [grid_length])]
  exact grid_nodup a b

theorem nodes_assign (hLength : a * b ≤ shuffled.length) :
    (assign a b shuffled).nodes = shuffled.take (a * b) := by
  have hZip : (grid a b).zip shuffled = (grid a b).zip (shuffled.take (a * b)) := by
    rw [List.zip_eq_zip_take_min, grid_length, Nat.min_eq_left hLength, ← grid_length a b,
      List.take_length, grid_length]
  rw [TopologyAssignment.nodes, assign_entries hLength, hZip, List.map_snd_zip]
  rw [List.length_take, grid_length]
  exact Nat.min_le_left _ _

theorem sound_assign_iff (hLength : a * b ≤ shuffled.length) :
    Sound (assign a b shuffled) ↔ (shuffled.take (a * b)).Nodup := by
  have hKeys : (assign a b shuffled).positions.entries.map Prod.fst = grid a b := by
    rw [assign_entries hLength, List.map_fst_zip]
    rwa [grid_length]
  constructor
  · intro h
    rw [← nodes_assign hLength]
    exact h.distinct
  · intro h
    exact ⟨by rw [hKeys]; exact List.Subset.refl _, by rw [hKeys]; exact List.Subset.refl _,
      by rwa [nodes_assign hLength]⟩

/-- A topology that some order of the pool gives. -/
def Drawable (call : TopologyCall) (t : TopologyAssignment) : Prop :=
  ∃ shuffled, shuffled.Perm call.nodePool ∧
    t = assign call.stageCount.toNat call.slotsPerStage.toNat shuffled

theorem select_ok {seed : ℤ} (h : select lib call seed = .ok t) :
    Drawable call t ∧
      call.stageCount.toNat * call.slotsPerStage.toNat ≤ call.nodePool.length := by
  simp only [select, bind_eq_ok_iff, require_eq_ok_iff, pure_eq_ok_iff] at h
  obtain ⟨-, hStages, -, hSlots, -, -, -, hRoom, rfl⟩ := h
  refine ⟨⟨_, lib.perm seed call.nodePool, rfl⟩, ?_⟩
  zify
  rwa [Int.toNat_of_nonneg hStages.le, Int.toNat_of_nonneg hSlots.le]

theorem firstDistinct_ok {recentWindow : List String} {attempts : List ℕ}
    (h : firstDistinct lib sha call recentWindow attempts = .ok t) :
    t.stableHash sha ∉ recentWindow ∧ ∃ seed, select lib call seed = .ok t := by
  induction attempts with
  | nil => cases h
  | cons attempt rest ih =>
      rw [firstDistinct, bind_eq_ok_iff] at h
      obtain ⟨candidate, hCandidate, h⟩ := h
      split at h
      case isTrue => exact ih h
      case isFalse hNew =>
        obtain rfl := pure_eq_ok_iff.mp h
        exact ⟨hNew, _, hCandidate⟩

theorem Drawable.sound (h : Drawable call t)
    (hRoom : call.stageCount.toNat * call.slotsPerStage.toNat ≤ call.nodePool.length)
    (hPool : call.nodePool.Nodup ∨ call.stageCount.toNat * call.slotsPerStage.toNat ≤ 1) :
    Sound t := by
  obtain ⟨shuffled, hPerm, rfl⟩ := h
  rw [sound_assign_iff (by rwa [hPerm.length_eq])]
  rcases hPool with hNodup | hSingle
  · exact (hPerm.nodup_iff.mpr hNodup).sublist (List.take_sublist _ _)
  · exact List.Nodup.sublist (List.take_sublist_take_left hSingle) (by
      cases shuffled <;> simp)

end Returned

/-! ## Sequences -/

section Sequences

variable {lib : Shuffle} {sha : Sha256} {window : ℕ} {s s' : Rotation} {call : TopologyCall}

/-- What the verifier still compares with, and the history has forgotten. -/
def forgotten (window : ℕ) (s : Rotation) : List TopologyAssignment :=
  (s.returned.take window).drop s.history.maxEntries

/-- No topology with two equal nodes can be drawn, and none that the history has forgotten. -/
structure DrawsFresh (sha : Sha256) (window : ℕ) (s : Rotation) (call : TopologyCall) : Prop where
  pool : call.nodePool.Nodup ∨ call.stageCount.toNat * call.slotsPerStage.toNat ≤ 1
  fresh : ∀ old ∈ forgotten window s, ∀ t, Drawable call t → t.stableHash sha ≠ old.stableHash sha

theorem forgotten_of_le (h : window ≤ s.history.maxEntries) : forgotten window s = [] := by
  rw [forgotten, List.drop_eq_nil_iff, List.length_take]
  omega

/-- The history holds the last topologies, and all that were returned satisfy the verifier. -/
structure Rotating (sha : Sha256) (window : ℕ) (s : Rotation) : Prop where
  history : s.history.entries = s.returned.take s.history.maxEntries
  sound : ∀ t ∈ s.returned, Sound t
  spaced : SpacedOut window (s.returned.map (·.stableHash sha))

theorem Rotating.step (h : Rotating sha window s) (hFresh : DrawsFresh sha window s call)
    (hStep : (rotation lib sha ⟨.antiRepeat, window⟩).step s call = some s') :
    Rotating sha window s' := by
  simp only [rotation, TopologyRotationPolicy.nextTopology] at hStep
  split at hStep
  case h_2 => cases hStep
  case h_1 t hNext =>
    obtain rfl := Option.some.inj hStep
    obtain ⟨hNew, seed, hSelect⟩ := firstDistinct_ok hNext
    obtain ⟨hDrawable, hRoom⟩ := select_ok hSelect
    refine ⟨?_, ?_, ?_, h.spaced⟩
    · simp only [TopologyHistory.record, h.history]
      exact take_cons_take _ _ _
    · exact List.forall_mem_cons.mpr ⟨hDrawable.sound hRoom hFresh.pool, h.sound⟩
    · intro hMem
      rw [← List.map_take, List.mem_map] at hMem
      obtain ⟨old, hOld, hSame⟩ := hMem
      rw [← List.take_append_drop s.history.maxEntries (s.returned.take window),
        List.mem_append] at hOld
      rcases hOld with hRecent | hForgotten
      · refine hNew ?_
        rw [TopologyHistory.recentHashes, h.history, ← List.map_take, List.mem_map]
        exact ⟨old, by rwa [List.take_take, Nat.min_comm, ← List.take_take], hSame⟩
      · exact hFresh.fresh old hForgotten t hDrawable hSame.symm

/-- Nothing has been returned yet. -/
def fresh (history : TopologyHistory) : Rotation := ⟨{ history with entries := [] }, []⟩

theorem rotating_fresh (history : TopologyHistory) : Rotating sha window (fresh history) where
  history := by simp [fresh]
  sound := by simp [fresh]
  spaced := trivial

end Sequences

def keepOrder : Shuffle := ⟨fun _ xs => xs, fun _ xs => List.Perm.refl xs⟩

def shortHistory : TopologyHistory := ⟨1, [], Nat.one_pos⟩

end Prsm.Inference.TopologyRotation
