import Prsm.Foundations.Machine
import Prsm.PrivacyBudget.Journals

/-!
# Restarting a tracker

A new tracker on the same store has the spends of the old one, in the same order, with the same
amounts and operations.  It does not have the same records: what the journal keeps as the model,
the inherited method keeps as the job, so a spend that names a model comes back differently.
-/

namespace Prsm.PrivacyBudget

open Foundations
open Evm (Bytes)
open Settlement (utf8)

/-- Two records agree, but for the time at which they were made. -/
structure PrivacySpend.Agrees (x y : PrivacySpend) : Prop where
  epsilon : x.epsilon = y.epsilon
  operation : x.operation = y.operation
  jobId : x.jobId = y.jobId
  modelId : x.modelId = y.modelId

/-- The call names no model. -/
def Call.NamesNoModel (call : Call) : Prop := call.modelId = ""

instance (call : Call) : Decidable call.NamesNoModel := inferInstanceAs (Decidable (_ = _))

section Restart

variable {σ : Type} {lib : Library} (store : PrivacyBudgetStore σ) (identity : NodeIdentity lib)

/-- A tracker with its store.  A call that is not recorded, because it returns false or raises,
is refused. -/
def trackerMachine : Machine (PrivacyBudgetTracker × σ) Attempt where
  step := fun ts a =>
    if (perform store identity .none ts.1 ts.2 a).2 = .ok true then
      some (perform store identity .none ts.1 ts.2 a).1
    else none

/-- A new tracker on the same store agrees with this one. -/
def RestartAgrees (ts : PrivacyBudgetTracker × σ) : Prop :=
  ∃ t', PersistentPrivacyBudgetTracker.construct store identity ts.1.maxEpsilon ts.2 = .ok t' ∧
    List.Forall₂ PrivacySpend.Agrees ts.1.spends t'.spends

variable {store identity} {Rep : σ → List PrivacyBudgetEntry → Prop}
  {Writable : PrivacyBudgetEntry → Prop}

/-- The store stands for a journal of the signer. -/
def Stands (lib : Library) (key : String) (Rep : σ → List PrivacyBudgetEntry → Prop)
    (ts : PrivacyBudgetTracker × σ) : Prop :=
  ∃ entries, Rep ts.2 entries ∧ Verified lib key entries

theorem restartAgrees_iff (hStore : LawfulStore lib store Rep Writable)
    {ts : PrivacyBudgetTracker × σ} {entries : List PrivacyBudgetEntry} (h : Rep ts.2 entries)
    (hVerified : Verified lib identity.publicKeyB64 entries) :
    RestartAgrees store identity ts ↔
      List.Forall₂ PrivacySpend.Agrees ts.1.spends (replayedSpends entries) := by
  have hConstruct : PersistentPrivacyBudgetTracker.construct store identity ts.1.maxEpsilon ts.2 =
      .ok ⟨ts.1.maxEpsilon, replayedSpends entries⟩ :=
    construct_eq hStore h hVerified ts.1.maxEpsilon
  constructor
  · rintro ⟨t', hNew, hAgree⟩
    rw [hConstruct] at hNew
    cases hNew
    exact hAgree
  · intro hAgree
    exact ⟨_, hConstruct, hAgree⟩

theorem forall₂_concat_iff {α β : Type} {R : α → β → Prop} {xs : List α} {ys : List β} {x : α}
    {y : β} (h : List.Forall₂ R xs ys) : List.Forall₂ R (xs ++ [x]) (ys ++ [y]) ↔ R x y := by
  constructor
  · intro hAll
    have hReversed := List.forall₂_reverse_iff.mpr hAll
    rw [List.reverse_append, List.reverse_append] at hReversed
    exact (List.forall₂_cons.mp hReversed).1
  · intro hLast
    exact List.rel_append h (.cons hLast .nil)

theorem restartAgrees_step (hStore : LawfulStore lib store Rep Writable)
    {ts ts' : PrivacyBudgetTracker × σ} {a : Attempt}
    (h : Stands lib identity.publicKeyB64 Rep ts)
    (hWritable : ∀ entry, IsEntryOf store identity ts.2 a entry → Writable entry)
    (hStep : (trackerMachine store identity).step ts a = some ts') :
    Stands lib identity.publicKeyB64 Rep ts' ∧
      (RestartAgrees store identity ts →
        (RestartAgrees store identity ts' ↔ a.call.NamesNoModel)) := by
  obtain ⟨entries, hRep, hVerified⟩ := h
  have hOk : (perform store identity .none ts.1 ts.2 a).2 = .ok true := by
    by_contra hOk
    simp [trackerMachine, hOk] at hStep
  obtain rfl : (perform store identity .none ts.1 ts.2 a).1 = ts' := by
    simpa [trackerMachine, hOk] using hStep
  rcases perform_cases hStore hRep hVerified hWritable .none ts.1 with
    ⟨entry, hNext, hAllowed, -, hAfter, hNewRep, hNewVerified⟩ | ⟨hRefused, -⟩
  · refine ⟨⟨_, hNewRep, hNewVerified⟩, fun hAgree => ?_⟩
    rw [restartAgrees_iff hStore hRep hVerified] at hAgree
    rw [restartAgrees_iff hStore hNewRep hNewVerified, hAfter, replayedSpends_concat]
    obtain ⟨call, now, later⟩ := a
    cases call with
    | recordSpend ε op model =>
        have hType : entry.entryType = .spend := hNext.entryType
        have hEpsilon : entry.epsilon = ε := hNext.epsilon
        have hOperation : entry.operation = op := hNext.operation
        have hModel : entry.modelId = model := hNext.modelId
        rw [replayEntry, hType]
        simp only [Call.after]
        rw [forall₂_concat_iff hAgree, hEpsilon, hOperation, hModel]
        constructor
        · intro hLast
          exact hLast.jobId
        · intro hNone
          have hEmpty : model = "" := hNone
          exact ⟨rfl, rfl, hEmpty, hEmpty.symm⟩
    | reset =>
        have hType : entry.entryType = .reset := hNext.entryType
        rw [replayEntry, hType]
        exact iff_of_true .nil rfl
  · exact absurd hOk hRefused

theorem Agrees.refl (x : PrivacySpend) : x.Agrees x := ⟨rfl, rfl, rfl, rfl⟩

theorem restartAgrees_run_iff (hStore : LawfulStore lib store Rep Writable)
    {t : PrivacyBudgetTracker} {s : σ} {entries : List PrivacyBudgetEntry} (h : Rep s entries)
    (hVerified : Verified lib identity.publicKeyB64 entries) {maxEpsilon : PyFloat}
    (hNew : PersistentPrivacyBudgetTracker.construct store identity maxEpsilon s = .ok t)
    {attempts : List Attempt}
    (hWritable : ∀ a ∈ attempts, ∀ s entry, IsEntryOf store identity s a entry →
      Writable entry) :
    (trackerMachine store identity).EveryState (RestartAgrees store identity) (t, s) attempts ↔
      (trackerMachine store identity).EveryStep (fun _ a => a.call.NamesNoModel) (t, s)
        attempts := by
  rw [construct_eq hStore h hVerified, Except.ok.injEq] at hNew
  subst hNew
  have hAgree : RestartAgrees store identity (⟨maxEpsilon, replayedSpends entries⟩, s) :=
    (restartAgrees_iff hStore h hVerified).mpr (List.forall₂_same.mpr fun x _ => Agrees.refl x)
  apply Machine.everyState_iff_everyStep_within _ (Stands lib identity.publicKeyB64 Rep) _
    (fun _ a => a ∈ attempts) _ _ _ ⟨entries, h, hVerified⟩ hAgree
  · exact Machine.everyStep_mem _ _ _
  · intro ts a ts' hStands hMem hStep
    exact (restartAgrees_step hStore hStands (hWritable a hMem ts.2) hStep).1
  · intro ts a ts' hStands hMem hHere hStep
    exact (restartAgrees_step hStore hStands (hWritable a hMem ts.2) hStep).2 hHere

end Restart

/-- The numbers of the call are read back from their texts. -/
structure Attempt.Readable (read : String → Option PyFloat) (a : Attempt) : Prop where
  epsilon : Json.ReadsBack read a.call.epsilon
  now : Json.ReadsBack read a.now

theorem readable_of_isEntryOf {σ : Type} {lib : Library} {store : PrivacyBudgetStore σ}
    {identity : NodeIdentity lib} {read : String → Option PyFloat} {s : σ} {a : Attempt}
    {entry : PrivacyBudgetEntry} (ha : a.Readable read)
    (h : IsEntryOf store identity s a entry) : entry.Readable read := by
  constructor
  · rw [h.epsilon]
    exact ha.epsilon
  · rw [h.timestamp]
    exact ha.now

/-- A new tracker on the same store, in memory or on disk, agrees with the old one in every state
of a run exactly when no recorded spend of the run names a model. -/
theorem restart_agrees_iff {lib : Library} (identity : NodeIdentity lib)
    {read : String → Option PyFloat} (hRead : lib.py.ReadsIndented read) (maxEpsilon : PyFloat)
    {entries : List PrivacyBudgetEntry} (hVerified : Verified lib identity.publicKeyB64 entries)
    {attempts : List Attempt} (hReadable : ∀ a ∈ attempts, a.Readable read)
    (t : PrivacyBudgetTracker) :
    (∀ s : InMemoryPrivacyBudgetStore, s.Holds lib entries →
      PersistentPrivacyBudgetTracker.construct (InMemoryPrivacyBudgetStore.store lib) identity
        maxEpsilon s = .ok t →
      ((trackerMachine (InMemoryPrivacyBudgetStore.store lib) identity).EveryState
          (RestartAgrees (InMemoryPrivacyBudgetStore.store lib) identity) (t, s) attempts ↔
        (trackerMachine (InMemoryPrivacyBudgetStore.store lib) identity).EveryStep
          (fun _ a => a.call.NamesNoModel) (t, s) attempts)) ∧
    ∀ s : Journal, s.Holds lib identity.publicKeyB64 entries →
      PersistentPrivacyBudgetTracker.construct (Journal.store lib) identity maxEpsilon s = .ok t →
      ((trackerMachine (Journal.store lib) identity).EveryState
          (RestartAgrees (Journal.store lib) identity) (t, s) attempts ↔
        (trackerMachine (Journal.store lib) identity).EveryStep
          (fun _ a => a.call.NamesNoModel) (t, s) attempts) := by
  constructor
  · intro s hHolds hNew
    exact restartAgrees_run_iff (lawful_inMemory lib) hHolds hVerified hNew
      fun _ _ _ _ _ => trivial
  · intro s hHolds hNew
    exact restartAgrees_run_iff (lawful_filesystem hRead) hHolds hVerified hNew
      fun a ha _ _ hEntry => readable_of_isEntryOf (hReadable a ha) hEntry

/-! ## A spend that names a model -/

namespace Sample

open Wire.Sample (floatOf filePython readFloat)

/-- 32 bytes in base64. -/
def publicKey : String := "AAAAAAAAAAAAAAAAAAAAAAAAAAAAAAAAAAAAAAAAAAA="

def signature : Bytes := List.replicate 64 1

def library : Library where
  py := filePython
  floatOfText := readFloat
  sum := fun xs => floatOf ((xs.map fun x => x.value.getD 0).sum)
  add := fun x y => floatOf (x.value.getD 0 + y.value.getD 0)
  sha := Storage.Sha256.ofTable []
  strippedText := Wire.Sample.decodeUtf8
  verifySignature := fun _ _ sig => sig = signature

def identity : NodeIdentity library where
  nodeId := "00000000000000000000000000000000"
  publicKeyB64 := publicKey
  sign := fun _ => signature
  derived := by rfl
  stripped := Wire.Sample.decodeUtf8_utf8 publicKey
  length_sign := fun _ => rfl
  verifies := fun _ => rfl

/-- A spend on a journal's first day. -/
def spend (modelId : String) : Attempt :=
  ⟨.recordSpend (floatOf 1) "inference" modelId, floatOf 2, floatOf 3⟩

def tracker : PrivacyBudgetTracker := ⟨floatOf 100, []⟩

theorem readsBack_floatOf (q : ℚ) (h : double q = some q) :
    Json.ReadsBack readFloat (floatOf q) :=
  Wire.Sample.roundTrips.readsBack_floatOf q h

/-- The directory of a new journal. -/
def journal : Journal :=
  ⟨⟨some (utf8 publicKey), some [], none⟩, ⟨0, genesisPrevHash⟩⟩

theorem journal_holds : journal.Holds library publicKey [] :=
  ⟨⟨⟨_, rfl, Wire.Sample.decodeUtf8_utf8 publicKey⟩, by simp, rfl⟩, rfl, trivial⟩

theorem readable_spend (modelId : String) : (spend modelId).Readable readFloat :=
  ⟨readsBack_floatOf 1 (by decide +kernel), readsBack_floatOf 2 (by decide +kernel)⟩

end Sample

open Sample in
/-- On disk, two spends that name no model survive a restart. -/
theorem restart_agrees_sample :
    (trackerMachine (Journal.store library) identity).EveryState
      (RestartAgrees (Journal.store library) identity) (tracker, journal)
      [spend "", spend ""] :=
  ((restart_agrees_iff identity Wire.Sample.filePython_readsIndented (Wire.Sample.floatOf 100)
    (verified_nil publicKey) (by
      intro a ha
      obtain rfl : a = spend "" := by simpa using ha
      exact readable_spend "") tracker).2 journal journal_holds rfl).mpr (by
      intro before a hPrefix _
      obtain rfl : a = spend "" := by simpa using hPrefix.subset (by simp : a ∈ before ++ [a])
      rfl)

open Sample in
/-- A spend that names a model does not. -/
theorem restart_disagrees :
    ¬ RestartAgrees (InMemoryPrivacyBudgetStore.store library) identity
      ((trackerMachine (InMemoryPrivacyBudgetStore.store library) identity).run
        (tracker, .empty) [spend "m"]) := by
  have hRep : InMemoryPrivacyBudgetStore.empty.Holds library [] := ⟨rfl, rfl⟩
  have hStands : Stands library identity.publicKeyB64 (InMemoryPrivacyBudgetStore.Holds library)
      (tracker, .empty) := ⟨[], hRep, verified_nil _⟩
  have hOk : (perform (InMemoryPrivacyBudgetStore.store library) identity .none tracker .empty
      (spend "m")).2 = .ok true := by decide +kernel
  have hStep : (trackerMachine (InMemoryPrivacyBudgetStore.store library) identity).step
      (tracker, .empty) (spend "m") =
        some (perform (InMemoryPrivacyBudgetStore.store library) identity .none tracker .empty
          (spend "m")).1 := if_pos hOk
  have hHere : RestartAgrees (InMemoryPrivacyBudgetStore.store library) identity
      (tracker, .empty) := ⟨tracker, rfl, .nil⟩
  have hExact := (restartAgrees_step (lawful_inMemory library) hStands (fun _ _ => trivial)
    hStep).2 hHere
  rw [Machine.run_cons, Machine.run_nil, Machine.exec_of_step _ hStep, hExact]
  decide

end Prsm.PrivacyBudget
