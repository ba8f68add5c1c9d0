import Prsm.PrivacyBudget.Restart

/-!
# The journal across crashes

One process at a time writes the journal.  A replacement of a file may raise in an append, and
the process may die in one or while it opens the journal; then it is started again with the same
key and the same budget.  Amounts are added exactly.

What carries the proof is a list of the calls whose entries the journal holds.  An append adds
its call to the list with the replacement of `latest.json` and not before, so whatever a restart
finds is the list, and the tracker that runs has spent what the list says.
-/

namespace Prsm.PrivacyBudget

open Foundations

/-! ## The system -/

/-- The directory, the process if one is running, the calls with an entry in the journal, and
those that have returned that they are recorded. -/
structure World where
  directory : Directory
  process : Option (PrivacyBudgetTracker × FilesystemPrivacyBudgetStore)
  journaled : List Call
  reported : List Call

/-- Nothing is there but the root. -/
def World.start : World := ⟨Directory.empty, none, [], []⟩

/-- What may happen next.  A call may end with the death of the process, after the replacements
that come before the fault; opening may be cut off after some of the changes that it makes. -/
inductive Happening
  | call (a : Attempt) (fault : Fault) (dies : Bool)
  | crash
  | restart
  | restartCut (changes : ℕ)

section System

variable {lib : Library} (identity : NodeIdentity lib) (maxEpsilon : PyFloat)

namespace World

def afterCall (w : World) (t : PrivacyBudgetTracker) (memory : FilesystemPrivacyBudgetStore)
    (a : Attempt) (fault : Fault) (dies : Bool) : World :=
  let result := perform (Journal.store lib) identity fault t ⟨w.directory, memory⟩ a
  { directory := result.1.2.directory,
    process := if dies then none else some (result.1.1, result.1.2.memory),
    journaled := if result.2 = .ok true then w.journaled ++ [a.call] else w.journaled,
    reported :=
      if result.2 = .ok true ∧ dies = false then w.reported ++ [a.call] else w.reported }

/-- A store is opened and a tracker made over it. -/
def restarted (w : World) : World :=
  match openStore lib identity.publicKeyB64 w.directory with
  | .error _ => { w with process := none }
  | .ok s =>
      match PersistentPrivacyBudgetTracker.construct (Journal.store lib) identity maxEpsilon s with
      | .error _ => { w with directory := s.directory, process := none }
      | .ok t => { w with directory := s.directory, process := some (t, s.memory) }

/-- The process dies while it opens the store. -/
def restartedCut (w : World) (changes : ℕ) : World :=
  match bindSigner lib identity.publicKeyB64 w.directory with
  | .error _ => { w with process := none }
  | .ok changed =>
      { w with directory := ((w.directory :: changed)[changes]?).getD w.directory, process := none }

def next (w : World) : Happening → World
  | .call a fault dies =>
      match w.process with
      | none => w
      | some (t, memory) => w.afterCall identity t memory a fault dies
  | .crash => { w with process := none }
  | .restart => w.restarted identity maxEpsilon
  | .restartCut changes => w.restartedCut identity changes

end World

/-- The system; every happening takes it to a next state. -/
def journalMachine : Machine World Happening where
  step := fun w h => some (w.next identity maxEpsilon h)

end System

/-! ## What is spent -/

/-- The amounts spent after one more call. -/
def spentAfter (spent : List PyFloat) : Call → List PyFloat
  | .recordSpend ε _ _ => spent ++ [ε]
  | .reset => []

/-- The amounts of the spends since the last reset. -/
def spentSinceReset (calls : List Call) : List PyFloat := calls.foldl spentAfter []

theorem spentSinceReset_concat (calls : List Call) (call : Call) :
    spentSinceReset (calls ++ [call]) = spentAfter (spentSinceReset calls) call := by
  simp [spentSinceReset]

/-- The sum of amounts. -/
def total (amounts : List PyFloat) : ℚ := (amounts.map fun x => x.value.getD 0).sum

/-- Amounts are added exactly. -/
structure Library.Exact (lib : Library) : Prop where
  sum : ∀ xs, (∀ x ∈ xs, x.value.isSome) → (lib.sum xs).value = some (total xs)
  add : ∀ x y p q, x.value = some p → y.value = some q → (lib.add x y).value = some (p + q)

/-- The amounts are numbers and the budget, where it is one, covers them. -/
structure Covered (m : ℚ) (amounts : List PyFloat) : Prop where
  finite : ∀ x ∈ amounts, x.value.isSome
  bounded : total amounts ≤ max 0 m

theorem covered_nil (m : ℚ) : Covered m [] := ⟨by simp, le_max_left _ _⟩

theorem covered_spentAfter {lib : Library} (hExact : lib.Exact) {t : PrivacyBudgetTracker} {m : ℚ}
    (hMax : t.maxEpsilon.value = some m) {call : Call} (h : Covered m (t.spends.map (·.epsilon)))
    (hAllowed : call.allowed lib t = true) :
    Covered m (spentAfter (t.spends.map (·.epsilon)) call) := by
  cases call with
  | reset => exact covered_nil m
  | recordSpend ε op model =>
      simp only [Call.allowed, Bool.and_eq_true] at hAllowed
      obtain ⟨hPositive, hBudget⟩ := hAllowed
      cases hValue : ε.value with
      | none => simp [isFinitePositive, hValue] at hPositive
      | some q =>
          have hSum : (t.totalSpent lib).value = some (total (t.spends.map (·.epsilon))) :=
            hExact.sum _ h.finite
          have hAdd := hExact.add _ _ _ _ hSum hValue
          have hLe : total (t.spends.map (·.epsilon)) + q ≤ m := by
            simpa [PrivacyBudgetTracker.canSpend, lessEq, hAdd, hMax] using hBudget
          constructor
          · intro x hx
            rcases List.mem_append.mp hx with hOld | hNew
            · exact h.finite x hOld
            · obtain rfl := List.mem_singleton.mp hNew
              simp [hValue]
          · have hTotal : total (spentAfter (t.spends.map (·.epsilon)) (.recordSpend ε op model)) =
                total (t.spends.map (·.epsilon)) + q := by
              simp [spentAfter, total, hValue]
            rw [hTotal]
            exact hLe.trans (le_max_right 0 m)

theorem spends_after (t : PrivacyBudgetTracker) (later : PyFloat) (call : Call) :
    (call.after t later).spends.map (·.epsilon) =
      spentAfter (t.spends.map (·.epsilon)) call := by
  cases call <;> simp [Call.after, spentAfter, PrivacyBudgetTracker.reset]

/-- The entry is that of the call. -/
structure Records (entry : PrivacyBudgetEntry) (call : Call) : Prop where
  entryType : entry.entryType = call.entryType
  epsilon : entry.epsilon = call.epsilon
  operation : entry.operation = call.operation
  modelId : entry.modelId = call.modelId

theorem foldl_replayEntry {entries : List PrivacyBudgetEntry} {calls : List Call}
    (h : List.Forall₂ Records entries calls) (spends : List PrivacySpend) :
    (entries.foldl replayEntry spends).map (·.epsilon) =
      calls.foldl spentAfter (spends.map (·.epsilon)) := by
  induction h generalizing spends with
  | nil => rfl
  | @cons entry call entries calls hRecords _ ih =>
      rw [List.foldl_cons, List.foldl_cons, ih]
      congr 1
      cases call with
      | recordSpend ε op model =>
          have hType : entry.entryType = .spend := hRecords.entryType
          have hEpsilon : entry.epsilon = ε := hRecords.epsilon
          simp [replayEntry, spentAfter, hType, hEpsilon]
      | reset =>
          have hType : entry.entryType = .reset := hRecords.entryType
          simp [replayEntry, spentAfter, hType]

theorem spends_replayed {entries : List PrivacyBudgetEntry} {calls : List Call}
    (h : List.Forall₂ Records entries calls) :
    (replayedSpends entries).map (·.epsilon) = spentSinceReset calls :=
  foldl_replayEntry h []

section Invariant

variable {lib : Library} (identity : NodeIdentity lib) (maxEpsilon : PyFloat) (m : ℚ)

/-- The journal holds the entries of the calls, and a running process knows it. -/
structure World.Consistent (w : World) (entries : List PrivacyBudgetEntry) : Prop where
  openable : w.directory.Openable lib identity.publicKeyB64 entries
  verified : Verified lib identity.publicKeyB64 entries
  records : List.Forall₂ Records entries w.journaled
  covered : Covered m (spentSinceReset w.journaled)
  reported : w.reported.Sublist w.journaled
  running : ∀ t memory, w.process = some (t, memory) →
    (⟨w.directory, memory⟩ : Journal).Holds lib identity.publicKeyB64 entries ∧
      t.maxEpsilon = maxEpsilon ∧ t.spends.map (·.epsilon) = spentSinceReset w.journaled

/-- The numbers of a happening are read back from their texts. -/
def Happening.Readable (read : String → Option PyFloat) : Happening → Prop
  | .call a _ _ => a.Readable read
  | _ => True

variable {identity maxEpsilon m} {read : String → Option PyFloat} {w : World}
  {entries : List PrivacyBudgetEntry}

theorem consistent_start : World.start.Consistent identity maxEpsilon m [] where
  openable := .inl ⟨rfl, rfl, rfl, rfl⟩
  verified := verified_nil _
  records := .nil
  covered := covered_nil m
  reported := .slnil
  running := by simp [World.start]

theorem World.Consistent.stopped (h : w.Consistent identity maxEpsilon m entries)
    {directory : Directory}
    (hOpenable : directory.Openable lib identity.publicKeyB64 entries) :
    ({ w with directory := directory, process := none } : World).Consistent identity maxEpsilon m
      entries where
  openable := hOpenable
  verified := h.verified
  records := h.records
  covered := h.covered
  reported := h.reported
  running := by simp

theorem consistent_afterCall (hRead : lib.py.ReadsIndented read) (hExact : lib.Exact)
    (hMax : maxEpsilon.value = some m) (h : w.Consistent identity maxEpsilon m entries)
    {t : PrivacyBudgetTracker} {memory : FilesystemPrivacyBudgetStore}
    (hProcess : w.process = some (t, memory)) {a : Attempt} (ha : a.Readable read) (fault : Fault)
    (dies : Bool) :
    ∃ entries', (w.afterCall identity t memory a fault dies).Consistent identity maxEpsilon m
      entries' := by
  obtain ⟨hHolds, hBudget, hSpent⟩ := h.running t memory hProcess
  have hCases := perform_cases (lawful_filesystem hRead) hHolds h.verified
    (fun entry hEntry => readable_of_isEntryOf ha hEntry) fault t
  rcases hCases with ⟨entry, hNext, hAllowed, hOk, hAfter, hRep, hVerified⟩ | ⟨hNot, hSame, hRep⟩
  · refine ⟨entries ++ [entry], ?_⟩
    have hRecords : List.Forall₂ Records (entries ++ [entry]) (w.journaled ++ [a.call]) :=
      List.rel_append h.records
        (.cons ⟨hNext.entryType, hNext.epsilon, hNext.operation, hNext.modelId⟩ .nil)
    have hCovered : Covered m (spentSinceReset (w.journaled ++ [a.call])) := by
      rw [spentSinceReset_concat, ← hSpent]
      apply covered_spentAfter hExact (by rw [hBudget, hMax]) _ hAllowed
      rw [hSpent]
      exact h.covered
    constructor
    · exact .inr hRep.directory
    · exact hVerified
    · simpa [World.afterCall, hOk] using hRecords
    · simpa [World.afterCall, hOk] using hCovered
    · cases dies with
      | false => simpa [World.afterCall, hOk] using
          h.reported.append (List.Sublist.refl [a.call])
      | true =>
          simpa [World.afterCall, hOk] using
            h.reported.trans (List.sublist_append_left w.journaled [a.call])
    · intro t' memory' hRunning
      cases dies with
      | true => simp [World.afterCall] at hRunning
      | false =>
          simp only [World.afterCall, Bool.false_eq_true, if_false, Option.some.injEq,
            Prod.mk.injEq] at hRunning
          obtain ⟨rfl, rfl⟩ := hRunning
          refine ⟨hRep, ?_, ?_⟩
          · rw [hAfter]
            cases a.call <;> exact hBudget
          · rw [hAfter, spends_after, hSpent]
            simp [World.afterCall, hOk, spentSinceReset_concat]
  · refine ⟨entries, ?_⟩
    constructor
    · exact .inr hRep.directory
    · exact h.verified
    · simpa [World.afterCall, hNot] using h.records
    · simpa [World.afterCall, hNot] using h.covered
    · simpa [World.afterCall, hNot] using h.reported
    · intro t' memory' hRunning
      cases dies with
      | true => simp [World.afterCall] at hRunning
      | false =>
          simp only [World.afterCall, Bool.false_eq_true, if_false, Option.some.injEq,
            Prod.mk.injEq] at hRunning
          obtain ⟨rfl, rfl⟩ := hRunning
          refine ⟨hRep, ?_, ?_⟩
          · rw [hSame, hBudget]
          · rw [hSame, hSpent]
            simp [World.afterCall, hNot]

theorem exists_restart (hRead : lib.py.ReadsIndented read)
    (h : w.Consistent identity maxEpsilon m entries) :
    ∃ s, openStore lib identity.publicKeyB64 w.directory = .ok s ∧
      s.Holds lib identity.publicKeyB64 entries ∧
      PersistentPrivacyBudgetTracker.construct (Journal.store lib) identity maxEpsilon s =
        .ok ⟨maxEpsilon, replayedSpends entries⟩ := by
  obtain ⟨changes, s, -, hOpen, hHolds, -⟩ :=
    openStore_holds identity.stripped h.openable h.verified.chained
  exact ⟨s, hOpen, hHolds, construct_eq (lawful_filesystem hRead) hHolds h.verified maxEpsilon⟩

theorem consistent_restarted (hRead : lib.py.ReadsIndented read)
    (h : w.Consistent identity maxEpsilon m entries) :
    (w.restarted identity maxEpsilon).Consistent identity maxEpsilon m entries := by
  obtain ⟨s, hOpen, hHolds, hConstruct⟩ := exists_restart hRead h
  have hWorld : w.restarted identity maxEpsilon =
      { w with directory := s.directory,
               process := some (⟨maxEpsilon, replayedSpends entries⟩, s.memory) } := by
    rw [World.restarted, hOpen]
    simp only [hConstruct]
  rw [hWorld]
  constructor
  · exact .inr hHolds.directory
  · exact h.verified
  · exact h.records
  · exact h.covered
  · exact h.reported
  · intro t memory hRunning
    cases hRunning
    exact ⟨hHolds, rfl, spends_replayed h.records⟩

theorem consistent_restartedCut (h : w.Consistent identity maxEpsilon m entries) (changes : ℕ) :
    (w.restartedCut identity changes).Consistent identity maxEpsilon m entries := by
  obtain ⟨changed, s, hBind, -, -, -, hAll⟩ :=
    openStore_holds identity.stripped h.openable h.verified.chained
  rw [World.restartedCut, hBind]
  apply h.stopped
  cases hCut : (w.directory :: changed)[changes]? with
  | none => exact h.openable
  | some directory =>
      rcases List.mem_cons.mp (List.mem_of_getElem? hCut) with rfl | hMem
      · exact h.openable
      · exact hAll directory hMem

theorem consistent_next (hRead : lib.py.ReadsIndented read) (hExact : lib.Exact)
    (hMax : maxEpsilon.value = some m) (h : w.Consistent identity maxEpsilon m entries)
    {happening : Happening} (hReadable : happening.Readable read) :
    ∃ entries', (w.next identity maxEpsilon happening).Consistent identity maxEpsilon m
      entries' := by
  cases happening with
  | call a fault dies =>
      cases hProcess : w.process with
      | none =>
          refine ⟨entries, ?_⟩
          simpa only [World.next, hProcess] using h
      | some process =>
          obtain ⟨t, memory⟩ := process
          simp only [World.next, hProcess]
          exact consistent_afterCall hRead hExact hMax h hProcess hReadable fault dies
  | crash => exact ⟨entries, h.stopped h.openable⟩
  | restart => exact ⟨entries, consistent_restarted hRead h⟩
  | restartCut changes => exact ⟨entries, consistent_restartedCut h changes⟩

variable (identity maxEpsilon m) in
/-- What a restart from here finds, and what a process that runs knows. -/
def World.Survives (w : World) : Prop :=
  ∃ s t entries,
    openStore lib identity.publicKeyB64 w.directory = .ok s ∧
    verifyChain lib identity.publicKeyB64 (s.replay lib) 0 genesisPrevHash = .ok true ∧
    PersistentPrivacyBudgetTracker.construct (Journal.store lib) identity maxEpsilon s = .ok t ∧
    s.replay lib = entries.map .ok ∧ List.Forall₂ Records entries w.journaled ∧
    w.reported.Sublist w.journaled ∧
    (t.totalSpent lib).value = some (total (spentSinceReset w.journaled)) ∧
    total (spentSinceReset w.journaled) ≤ max 0 m ∧
    ∀ t' memory, w.process = some (t', memory) →
      (t'.totalSpent lib).value = some (total (spentSinceReset w.journaled))

theorem World.Consistent.survives (hRead : lib.py.ReadsIndented read) (hExact : lib.Exact)
    (h : w.Consistent identity maxEpsilon m entries) : w.Survives identity maxEpsilon m := by
  obtain ⟨s, hOpen, hHolds, hConstruct⟩ := exists_restart hRead h
  have hTotal : ∀ t : PrivacyBudgetTracker,
      t.spends.map (·.epsilon) = spentSinceReset w.journaled →
        (t.totalSpent lib).value = some (total (spentSinceReset w.journaled)) := by
    intro t hSpent
    rw [PrivacyBudgetTracker.totalSpent, hSpent]
    exact hExact.sum _ h.covered.finite
  refine ⟨s, _, entries, hOpen, ?_, hConstruct, hHolds.replay_eq, h.records, h.reported, ?_,
    h.covered.bounded, ?_⟩
  · exact verifyChain_genesis_iff.mpr ⟨entries, hHolds.replay_eq, h.verified⟩
  · exact hTotal _ (spends_replayed h.records)
  · intro t' memory hRunning
    exact hTotal t' (h.running t' memory hRunning).2.2

end Invariant

/-- Whatever fails and whenever the process dies, in every state of every run a restart opens and
verifies the journal and reads from it the entries of the journaled calls, among them all that
have been reported; its tracker has spent what they spent since the last reset, and so has one
that runs; and that is not more than the budget, if it is more than nothing. -/
theorem journal_survives {lib : Library} (identity : NodeIdentity lib)
    {read : String → Option PyFloat} (hRead : lib.py.ReadsIndented read) (hExact : lib.Exact)
    {maxEpsilon : PyFloat} {m : ℚ} (hMax : maxEpsilon.value = some m)
    {happenings : List Happening} (hReadable : ∀ h ∈ happenings, h.Readable read) :
    (journalMachine identity maxEpsilon).EveryState (World.Survives identity maxEpsilon m)
      World.start happenings := by
  have hAlong : (journalMachine identity maxEpsilon).EveryState
      (fun w => ∃ entries, w.Consistent identity maxEpsilon m entries) World.start happenings := by
    refine Machine.everyState_of_everyStep _ _ (fun _ h => h ∈ happenings) ?_
      ⟨[], consistent_start⟩ (Machine.everyStep_mem _ _ _)
    rintro w h w' ⟨entries, hHere⟩ hMem hStep
    cases hStep
    exact consistent_next hRead hExact hMax hHere (hReadable h hMem)
  intro visited hVisited
  obtain ⟨entries, hThere⟩ := hAlong visited hVisited
  exact hThere.survives hRead hExact

namespace Sample

theorem exact_library : library.Exact where
  sum := fun _ _ => rfl
  add := by
    intro x y p q hx hy
    show some (x.value.getD 0 + y.value.getD 0) = _
    rw [hx, hy]
    rfl

/-- A spend is cut off between its two files, another is made after the restart, and the process
dies in a third before it has reported it. -/
def crashes : List Happening :=
  [.restart, .call (spend "m") .latestFile true, .restart, .call (spend "") .none false,
    .call (spend "m") .none true, .restart]

end Sample

open Sample in
theorem journal_survives_crashes :
    (journalMachine identity (Wire.Sample.floatOf 100)).EveryState
      (World.Survives identity (Wire.Sample.floatOf 100) 100) World.start crashes :=
  journal_survives identity Wire.Sample.filePython_readsIndented exact_library rfl (by
    intro h hh
    simp only [crashes, List.mem_cons, List.not_mem_nil, or_false] at hh
    rcases hh with rfl | rfl | rfl | rfl | rfl | rfl
    · trivial
    · exact readable_spend "m"
    · trivial
    · exact readable_spend ""
    · exact readable_spend "m"
    · trivial)

end Prsm.PrivacyBudget
