import Prsm.PrivacyBudget.Tracker

/-!
# Journals and what they hold

A store stands for a list of entries.  Both stores keep to one interface: they read the list
back, know where it ends, and an append either adds its entry or, where it raises, leaves the
list as it was.  What a tracker does to the list is said once, for any store.
-/

namespace Prsm.PrivacyBudget

open Foundations
open Wire (Decoder)
open Evm (Bytes)
open Settlement (utf8)

/-! ## Verifying -/

section Verifying

variable {lib : Library}
variable {reads : List (Decoder StoreError PrivacyBudgetEntry)}

theorem verifyChain_eq_true_iff {key : String} {n : ℤ} {prev : Bytes} :
    verifyChain lib key reads n prev = .ok true ↔
      ∃ entries, reads = entries.map .ok ∧ Chained (nextPlace lib) place (n, prev) entries ∧
        ∀ entry ∈ entries, verifyEntry lib key entry = true := by
  induction reads generalizing n prev with
  | nil =>
      constructor
      · intro _
        exact ⟨[], rfl, trivial, by simp⟩
      · intro _
        rfl
  | cons read rest ih =>
      cases read with
      | error e =>
          constructor
          · intro h
            cases h
          · rintro ⟨entries, hReads, -, -⟩
            cases entries with
            | nil => cases hReads
            | cons entry entries =>
                injection hReads with hHead
                cases hHead
      | ok entry =>
          rw [verifyChain, ok_bind]
          constructor
          · intro h
            by_cases hSeq : entry.sequenceNumber.value = n
            · by_cases hPrev : entry.prevEntryHash = prev
              · by_cases hEntry : verifyEntry lib key entry = true
                · have hRest : verifyChain lib key rest (n + 1) (hashEntryPayload lib entry) =
                      .ok true := by
                    simpa [hSeq, hPrev, hEntry] using h
                  obtain ⟨entries, rfl, hChained, hSigned⟩ := ih.mp hRest
                  refine ⟨entry :: entries, rfl, ⟨by rw [place, hSeq, hPrev], ?_⟩, ?_⟩
                  · rw [nextPlace, hSeq]
                    exact hChained
                  · exact List.forall_mem_cons.mpr ⟨hEntry, hSigned⟩
                · simp [hSeq, hPrev, hEntry, pure, Except.pure] at h
              · simp [hSeq, hPrev, pure, Except.pure] at h
            · simp [hSeq, pure, Except.pure] at h
          · rintro ⟨entries, hReads, hChained, hSigned⟩
            cases entries with
            | nil => cases hReads
            | cons first entries =>
                rw [List.map_cons, List.cons.injEq, Except.ok.injEq] at hReads
                obtain ⟨rfl, rfl⟩ := hReads
                obtain ⟨hPlace, hChained⟩ := hChained
                obtain ⟨hEntry, hSigned⟩ := List.forall_mem_cons.mp hSigned
                have hSeq : entry.sequenceNumber.value = n := congrArg Prod.fst hPlace
                have hPrev : entry.prevEntryHash = prev := congrArg Prod.snd hPlace
                have hRest := ih.mpr ⟨entries, rfl, by rwa [nextPlace, hSeq] at hChained, hSigned⟩
                simpa [hSeq, hPrev, hEntry] using hRest

theorem verifyChain_genesis_iff {key : String} :
    verifyChain lib key reads 0 genesisPrevHash = .ok true ↔
      ∃ entries, reads = entries.map .ok ∧ Verified lib key entries := by
  rw [verifyChain_eq_true_iff]
  constructor
  · rintro ⟨entries, hReads, hChained, hSigned⟩
    exact ⟨entries, hReads, hChained, hSigned⟩
  · rintro ⟨entries, hReads, hVerified⟩
    exact ⟨entries, hReads, hVerified.chained, hVerified.signed⟩

theorem verified_nil (key : String) : Verified lib key [] := ⟨trivial, by simp⟩

theorem fst_journalEnd {entries : List PrivacyBudgetEntry}
    (h : Chained (nextPlace lib) place genesis entries) :
    (journalEnd lib entries).1 = entries.length := by
  induction entries using List.reverseRecOn with
  | nil => rfl
  | append_singleton entries entry ih =>
      obtain ⟨hFront, hPlace⟩ := chained_concat.mp h
      have hSeq : entry.sequenceNumber.value = (journalEnd lib entries).1 :=
        congrArg Prod.fst hPlace
      rw [journalEnd, lastLink_concat, nextPlace, hSeq, ih hFront]
      simp

theorem verified_concat {key : String} {entries : List PrivacyBudgetEntry}
    {entry : PrivacyBudgetEntry} (h : Verified lib key entries)
    (hPlace : place entry = journalEnd lib entries) (hEntry : verifyEntry lib key entry = true) :
    Verified lib key (entries ++ [entry]) where
  chained := chained_concat.mpr ⟨h.chained, hPlace⟩
  signed := by
    intro e he
    rcases List.mem_append.mp he with hOld | hNew
    · exact h.signed e hOld
    · obtain rfl := List.mem_singleton.mp hNew
      exact hEntry

end Verifying

/-! ## Replaying -/

/-- The spends after one more entry of the journal. -/
def replayEntry (spends : List PrivacySpend) (entry : PrivacyBudgetEntry) : List PrivacySpend :=
  match entry.entryType with
  | .reset => []
  | .spend =>
      spends ++ [⟨entry.epsilon, entry.operation, "", entry.modelId, entry.timestamp⟩]

def replayedSpends (entries : List PrivacyBudgetEntry) : List PrivacySpend :=
  entries.foldl replayEntry []

@[simp] theorem replayedSpends_concat (entries : List PrivacyBudgetEntry)
    (entry : PrivacyBudgetEntry) :
    replayedSpends (entries ++ [entry]) = replayEntry (replayedSpends entries) entry := by
  simp [replayedSpends]

theorem replay_eq (entries : List PrivacyBudgetEntry) (spends : List PrivacySpend) :
    PersistentPrivacyBudgetTracker.replay (entries.map .ok) spends =
      .ok (entries.foldl replayEntry spends) := by
  induction entries generalizing spends with
  | nil => rfl
  | cons entry entries ih =>
      rw [List.map_cons, PersistentPrivacyBudgetTracker.replay, ok_bind, List.foldl_cons]
      cases hType : entry.entryType with
      | reset => simp only [replayEntry, hType, ih]
      | spend => simp only [replayEntry, hType, ih]

/-! ## Stores that stand for a list of entries -/

/-- `Rep s entries` says that the store `s` stands for the entries.  Only what is `Writable` is
read back after it is appended. -/
structure LawfulStore {σ : Type} (lib : Library) (store : PrivacyBudgetStore σ)
    (Rep : σ → List PrivacyBudgetEntry → Prop) (Writable : PrivacyBudgetEntry → Prop) : Prop where
  replay : ∀ {s entries}, Rep s entries → store.replay s = entries.map .ok
  len : ∀ {s entries}, Rep s entries → store.len s = .ok entries.length
  latestHash : ∀ {s entries}, Rep s entries → store.latestHash s = (journalEnd lib entries).2
  append : ∀ {s entries entry} fault, Rep s entries → place entry = journalEnd lib entries →
    Writable entry →
      (store.append fault s entry).2 = .ok () ∧
          Rep (store.append fault s entry).1 (entries ++ [entry]) ∨
        (∃ e, (store.append fault s entry).2 = .error e) ∧
          Rep (store.append fault s entry).1 entries
  append_error : ∀ {s entry e}, (store.append .none s entry).2 = .error e →
    (store.append .none s entry).1 = s

section Lawful

variable {σ : Type} {lib : Library} {store : PrivacyBudgetStore σ} {identity : NodeIdentity lib}
  {Rep : σ → List PrivacyBudgetEntry → Prop} {Writable : PrivacyBudgetEntry → Prop}
  {s : σ} {entries : List PrivacyBudgetEntry}

theorem construct_eq (hStore : LawfulStore lib store Rep Writable) (h : Rep s entries)
    (hVerified : Verified lib identity.publicKeyB64 entries) (maxEpsilon : PyFloat) :
    PersistentPrivacyBudgetTracker.construct store identity maxEpsilon s =
      .ok ⟨maxEpsilon, replayedSpends entries⟩ := by
  have hReads := hStore.replay h
  have hChain : verifyChain lib identity.publicKeyB64 (store.replay s) 0 genesisPrevHash =
      .ok true :=
    verifyChain_genesis_iff.mpr ⟨entries, hReads, hVerified⟩
  rw [PersistentPrivacyBudgetTracker.construct, hChain, ok_bind, if_neg (by simp), hReads,
    replay_eq]
  rfl

variable {t : PrivacyBudgetEntryType} {ε now later : PyFloat} {operation modelId : String}

theorem place_of_isNext (hStore : LawfulStore lib store Rep Writable) (h : Rep s entries)
    (hChained : Chained (nextPlace lib) place genesis entries) {entry : PrivacyBudgetEntry}
    (hNext : IsNext store identity s t ε operation modelId now entry) :
    place entry = journalEnd lib entries := by
  have hLen : entries.length = entry.sequenceNumber.value.toNat :=
    Except.ok.inj ((hStore.len h).symm.trans hNext.len)
  have hNonneg := entry.nonneg
  have hSeq : entry.sequenceNumber.value = (journalEnd lib entries).1 := by
    rw [fst_journalEnd hChained]
    omega
  have hPrev : entry.prevEntryHash = (journalEnd lib entries).2 := by
    rw [hNext.prevEntryHash, hStore.latestHash h]
  exact Prod.ext hSeq hPrev

theorem appendEntry_cases (hStore : LawfulStore lib store Rep Writable) (h : Rep s entries)
    (hVerified : Verified lib identity.publicKeyB64 entries)
    (hWritable : ∀ entry, IsNext store identity s t ε operation modelId now entry →
      Writable entry) (fault : Fault) :
    (∃ entry, IsNext store identity s t ε operation modelId now entry ∧
        (appendEntry store identity fault s t ε operation modelId now).2 = .ok () ∧
        Rep (appendEntry store identity fault s t ε operation modelId now).1
          (entries ++ [entry]) ∧
        Verified lib identity.publicKeyB64 (entries ++ [entry])) ∨
      (∃ e, (appendEntry store identity fault s t ε operation modelId now).2 = .error e) ∧
        Rep (appendEntry store identity fault s t ε operation modelId now).1 entries := by
  unfold appendEntry
  cases hEntry : nextEntry store identity s t ε operation modelId now with
  | error e => exact .inr ⟨⟨e, rfl⟩, h⟩
  | ok entry =>
      have hNext := isNext_of_nextEntry hEntry
      have hPlace := place_of_isNext hStore h hVerified.chained hNext
      rcases hStore.append fault h hPlace (hWritable entry hNext) with ⟨hOk, hRep⟩ | hFail
      · refine .inl ⟨entry, hNext, hOk, hRep, ?_⟩
        exact verified_concat hVerified hPlace (verifyEntry_of_signedBy identity hNext.signedBy)
      · exact .inr hFail

end Lawful

/-! ## Calls -/

/-- A call on a tracker. -/
inductive Call
  | recordSpend (epsilon : PyFloat) (operation modelId : String)
  | reset

namespace Call

def entryType : Call → PrivacyBudgetEntryType
  | recordSpend _ _ _ => .spend
  | reset => .reset

def epsilon : Call → PyFloat
  | recordSpend ε _ _ => ε
  | reset => zeroFloat

def operation : Call → String
  | recordSpend _ op _ => op
  | reset => ""

def modelId : Call → String
  | recordSpend _ _ model => model
  | reset => ""

/-- The checks before anything is written. -/
def allowed (lib : Library) (t : PrivacyBudgetTracker) : Call → Bool
  | recordSpend ε _ _ => isFinitePositive ε && t.canSpend lib ε
  | reset => true

/-- The tracker after the call is recorded. -/
def after (t : PrivacyBudgetTracker) (later : PyFloat) : Call → PrivacyBudgetTracker
  | recordSpend ε op model =>
      { t with spends := t.spends ++ [⟨ε, op, model, "", later⟩] }
  | reset => t.reset

end Call

/-- A call, and the two readings of the clock in it. -/
structure Attempt where
  call : Call
  now : PyFloat
  later : PyFloat

/-- What is returned where a method without a value returns. -/
def returned : Decoder StoreError Unit → Decoder StoreError Bool
  | .ok () => .ok true
  | .error e => .error e

/-- The tracker after the entry of a call is written, or not. -/
def Call.settled (call : Call) (t : PrivacyBudgetTracker) (later : PyFloat) :
    Decoder StoreError Unit → PrivacyBudgetTracker
  | .ok () => call.after t later
  | .error _ => t

section Performing

variable {σ : Type} {lib : Library} (store : PrivacyBudgetStore σ) (identity : NodeIdentity lib)

/-- What the call does and returns; `reset` returns nothing, for which `true` stands. -/
def perform (fault : Fault) (t : PrivacyBudgetTracker) (s : σ) (a : Attempt) :
    (PrivacyBudgetTracker × σ) × Decoder StoreError Bool :=
  match a.call with
  | .recordSpend ε op model =>
      PersistentPrivacyBudgetTracker.recordSpend store identity fault t s ε op model a.now
        a.later
  | .reset =>
      ((PersistentPrivacyBudgetTracker.reset store identity fault t s a.now).1,
        returned (PersistentPrivacyBudgetTracker.reset store identity fault t s a.now).2)

/-- The entry that a call is written as. -/
def IsEntryOf (s : σ) (a : Attempt) (entry : PrivacyBudgetEntry) : Prop :=
  IsNext store identity s a.call.entryType a.call.epsilon a.call.operation a.call.modelId a.now
    entry

/-- `_append_entry` of a call. -/
def appendCall (fault : Fault) (s : σ) (a : Attempt) : σ × Decoder StoreError Unit :=
  appendEntry store identity fault s a.call.entryType a.call.epsilon a.call.operation
    a.call.modelId a.now

variable {store identity}

theorem perform_eq (fault : Fault) (t : PrivacyBudgetTracker) (s : σ) (a : Attempt) :
    perform store identity fault t s a =
      if a.call.allowed lib t = true then
        ((a.call.settled t a.later (appendCall store identity fault s a).2,
          (appendCall store identity fault s a).1),
          returned (appendCall store identity fault s a).2)
      else ((t, s), .ok false) := by
  obtain ⟨call, now, later⟩ := a
  cases call with
  | recordSpend ε op model =>
      simp only [perform, PersistentPrivacyBudgetTracker.recordSpend, Call.allowed,
        Bool.and_eq_true]
      by_cases hPositive : isFinitePositive ε = true
      · by_cases hBudget : t.canSpend lib ε = true
        · rw [if_neg (by simp [hPositive]), if_neg (by simp [hBudget]),
            if_pos ⟨hPositive, hBudget⟩]
          simp only [appendCall, Call.entryType, Call.epsilon, Call.operation, Call.modelId]
          generalize appendEntry store identity fault s .spend ε op model now = result
          obtain ⟨s', result⟩ := result
          cases result with
          | error e => rfl
          | ok done =>
              simp [returned, Call.settled, Call.after, PrivacyBudgetTracker.recordSpend, hPositive,
                hBudget]
        · rw [if_neg (by simp [hPositive]), if_pos (by simpa using hBudget),
            if_neg fun h => hBudget h.2]
      · rw [if_pos (by simpa using hPositive), if_neg fun h => hPositive h.1]
  | reset =>
      simp only [perform, PersistentPrivacyBudgetTracker.reset, Call.allowed, if_true,
        appendCall, Call.entryType, Call.epsilon, Call.operation, Call.modelId]
      generalize appendEntry store identity fault s .reset zeroFloat "" "" now = result
      obtain ⟨s', result⟩ := result
      cases result with
      | error e => rfl
      | ok done => rfl

variable {Rep : σ → List PrivacyBudgetEntry → Prop} {Writable : PrivacyBudgetEntry → Prop}
  {s : σ} {entries : List PrivacyBudgetEntry} {a : Attempt}

theorem perform_cases (hStore : LawfulStore lib store Rep Writable) (h : Rep s entries)
    (hVerified : Verified lib identity.publicKeyB64 entries)
    (hWritable : ∀ entry, IsEntryOf store identity s a entry → Writable entry)
    (fault : Fault) (t : PrivacyBudgetTracker) :
    (∃ entry, IsEntryOf store identity s a entry ∧ a.call.allowed lib t = true ∧
        (perform store identity fault t s a).2 = .ok true ∧
        (perform store identity fault t s a).1.1 = a.call.after t a.later ∧
        Rep (perform store identity fault t s a).1.2 (entries ++ [entry]) ∧
        Verified lib identity.publicKeyB64 (entries ++ [entry])) ∨
      (perform store identity fault t s a).2 ≠ .ok true ∧
        (perform store identity fault t s a).1.1 = t ∧
        Rep (perform store identity fault t s a).1.2 entries := by
  rw [perform_eq]
  by_cases hAllowed : a.call.allowed lib t = true
  · rw [if_pos hAllowed]
    have hCases := appendEntry_cases hStore h hVerified hWritable fault
    rcases hCases with ⟨entry, hNext, hOk, hRep, hNew⟩ | ⟨⟨e, hError⟩, hRep⟩
    · refine .inl ⟨entry, hNext, hAllowed, ?_, ?_, hRep, hNew⟩
      · simp [appendCall, hOk, returned]
      · simp [appendCall, hOk, Call.settled]
    · refine .inr ⟨?_, ?_, hRep⟩
      · simp [appendCall, hError, returned]
      · simp [appendCall, hError, Call.settled]
  · rw [if_neg hAllowed]
    exact .inr ⟨by simp, rfl, h⟩

end Performing

/-! ## The store in memory -/

/-- The list and the hash that is kept beside it. -/
structure InMemoryPrivacyBudgetStore.Holds (lib : Library) (s : InMemoryPrivacyBudgetStore)
    (entries : List PrivacyBudgetEntry) : Prop where
  entries_eq : s.entries = entries
  latestHash_eq : s.latestHash = (journalEnd lib entries).2

theorem lawful_inMemory (lib : Library) :
    LawfulStore lib (InMemoryPrivacyBudgetStore.store lib) (·.Holds lib) (fun _ => True) where
  replay := fun h => congrArg (List.map Except.ok) h.entries_eq
  len := fun h => congrArg Except.ok (congrArg List.length h.entries_eq)
  latestHash := fun h => h.latestHash_eq
  append := by
    intro s entries entry fault h hPlace _
    show (s.append lib entry).2 = .ok () ∧ (s.append lib entry).1.Holds lib (entries ++ [entry]) ∨
      (∃ e, (s.append lib entry).2 = .error e) ∧ (s.append lib entry).1.Holds lib entries
    unfold InMemoryPrivacyBudgetStore.append
    split_ifs with hSeq hPrev
    · exact .inr ⟨⟨_, rfl⟩, h⟩
    · exact .inr ⟨⟨_, rfl⟩, h⟩
    · refine .inl ⟨rfl, ?_, ?_⟩
      · rw [h.entries_eq]
      · rw [journalEnd, lastLink_concat]
        rfl
  append_error := by
    intro s entry e h
    change (s.append lib entry).2 = .error e at h
    show (s.append lib entry).1 = s
    unfold InMemoryPrivacyBudgetStore.append at h ⊢
    split_ifs with hSeq hPrev
    · rfl
    · rfl
    · rw [if_neg hSeq, if_neg hPrev] at h
      cases h

/-! ## The store on disk -/

section Filesystem

variable {lib : Library} {read : String → Option PyFloat} {key : String}

/-- What a text file says of where a journal ends. -/
def endMemory (lib : Library) (entries : List PrivacyBudgetEntry) :
    FilesystemPrivacyBudgetStore :=
  ⟨(journalEnd lib entries).1, (journalEnd lib entries).2⟩

/-- A directory with the files of a journal.  Others may lie beside them. -/
structure Directory.Holds (lib : Library) (key : String) (directory : Directory)
    (entries : List PrivacyBudgetEntry) : Prop where
  signer : ∃ bytes, directory.nodePubkey = some bytes ∧ lib.strippedText bytes = some key
  files : ∀ n (h : n < entries.length), readEntry lib directory n = .ok entries[n]
  latest : readLatest lib directory = .ok (endMemory lib entries)

/-- The store knows where the journal ends. -/
structure Journal.Holds (lib : Library) (key : String) (s : Journal)
    (entries : List PrivacyBudgetEntry) : Prop where
  directory : s.directory.Holds lib key entries
  memory : s.memory = endMemory lib entries
  chained : Chained (nextPlace lib) place genesis entries

variable {n : ℕ} {directory : Directory} {files : List (EntryFile × Bytes)}

theorem entryPath_natCast {k : ℕ} : entryPath n = .ok k ↔ n = k ∧ n < entryLimit := by
  rw [entryPath, if_neg (by omega), Int.toNat_natCast]
  by_cases h : entryLimit ≤ n
  · rw [if_pos h]
    constructor
    · intro hPath
      cases hPath
    · rintro ⟨-, hLt⟩
      omega
  · rw [if_neg h]
    constructor
    · intro hPath
      cases hPath
      exact ⟨rfl, by omega⟩
    · rintro ⟨rfl, -⟩
      rfl

theorem readEntry_congr {directory' : Directory}
    (h : directory'.entryText n = directory.entryText n) :
    readEntry lib directory' n = readEntry lib directory n := by
  unfold readEntry
  cases hPath : (entryPath n : Decoder StoreError ℕ) with
  | error e => rfl
  | ok k =>
      obtain ⟨rfl, -⟩ := entryPath_natCast.mp hPath
      rw [ok_bind, ok_bind, h]

/-- The directory after the first replacement of an append. -/
def Directory.withEntry (directory : Directory) (files : List (EntryFile × Bytes))
    (entry : PrivacyBudgetEntry) (n : ℕ) : Directory :=
  { directory with entries := some ((.numbered n, entry.fileText) :: files) }

theorem entryText_withEntry
    (h : directory.entries = some files) (entry : PrivacyBudgetEntry) (n k : ℕ) :
    (directory.withEntry files entry n).entryText k =
      if k = n then some entry.fileText else directory.entryText k := by
  rw [Directory.entryText, Directory.entryText, h, Directory.withEntry, Option.getD_some,
    Option.getD_some, List.lookup_cons]
  by_cases hSame : k = n
  · simp [hSame]
  · have hName : (EntryFile.numbered k == EntryFile.numbered n) = false := by simp [hSame]
    rw [hName, if_neg hSame]

variable {s : Journal} {entries : List PrivacyBudgetEntry} {entry : PrivacyBudgetEntry}

theorem readEntry_written (hRead : lib.py.ReadsIndented read) (h : entry.Readable read)
    (hLimit : n < entryLimit)
    (hText : directory.entryText n = some entry.fileText) :
    readEntry lib directory n = .ok entry := by
  have hPath : (entryPath n : Decoder StoreError ℕ) = .ok n := entryPath_natCast.mpr ⟨rfl, hLimit⟩
  obtain ⟨data, hData, hEntry⟩ := fromDict_fileText hRead h
  rw [readEntry, hPath, ok_bind, hText]
  simp only [loadEntry, hData, ok_bind, hEntry, corruptIfSchemaError]

theorem readLatest_latestText (hRead : lib.py.ReadsIndented read)
    {n : PyInt} {hash : Bytes} (hWidth : hash.length = 32)
    (h : directory.latest = some (latestText n hash)) :
    readLatest lib directory = .ok ⟨n.value + 1, hash⟩ := by
  have hKeys : ((latestFields n hash).map Prod.fst).Nodup := by simp [latestFields]
  have hPrintable : Json.Printable read 4 (.object (latestFields n hash)) := by
    refine ⟨hKeys, ?_⟩
    simp only [latestFields, List.forall_mem_cons, List.not_mem_nil, false_imp_iff, implies_true,
      and_true]
    exact ⟨by cases n <;> trivial, trivial⟩
  have hLoad : lib.py.loads (latestText n hash) =
      .ok (.object (Json.sortedFields (latestFields n hash))) := hRead _ hPrintable
  have hItem : ∀ key v, Json.lookup key (latestFields n hash) = some v → v.canonical = v →
      item key (.object (Json.sortedFields (latestFields n hash))) = .ok v := by
    intro key v hLookup hLeaf
    rw [item, Json.lookup_sortedFields hKeys, hLookup, Option.map_some, hLeaf]
  have hInt : Wire.toInt lib.py n.json = (.ok n.value : Decoder StoreError ℤ) := by
    cases n <;> rfl
  rw [readLatest, h]
  simp only [loadLatest, hLoad, ok_bind,
    hItem "sequence_number" _ rfl (PyInt.canonical_json _), hInt, corruptIfValueError,
    hItem "entry_hash" _ rfl rfl, bytesArgument_hex, hWidth, if_true]

theorem Directory.Holds.withEntry
    (h : directory.Holds lib key entries) (hFiles : directory.entries = some files) :
    (directory.withEntry files entry entries.length).Holds lib key entries where
  signer := h.signer
  files := by
    intro n hn
    rw [← h.files n hn]
    apply readEntry_congr
    rw [entryText_withEntry hFiles, if_neg (by omega)]
  latest := h.latest

theorem Directory.Holds.concat
    (hRead : lib.py.ReadsIndented read) (hEntry : entry.Readable read)
    (h : directory.Holds lib key entries) (hFiles : directory.entries = some files)
    (hLimit : entries.length < entryLimit) :
    ({ directory.withEntry files entry entries.length with
      latest := some (latestText entry.sequenceNumber (hashEntryPayload lib entry)) } :
        Directory).Holds lib key (entries ++ [entry]) where
  signer := h.signer
  files := by
    intro n hn
    have hText := entryText_withEntry hFiles entry entries.length n
    by_cases hOld : n < entries.length
    · rw [List.getElem_append_left hOld, ← h.files n hOld]
      apply readEntry_congr
      rw [if_neg (by omega)] at hText
      exact hText
    · obtain rfl : n = entries.length := by
        rw [List.length_append, List.length_singleton] at hn
        omega
      rw [if_pos rfl] at hText
      rw [List.getElem_concat_length rfl]
      exact readEntry_written hRead hEntry hLimit hText
  latest := by
    rw [readLatest_latestText hRead (lib.sha.length_digest _) rfl, endMemory, journalEnd,
      lastLink_concat]
    rfl

theorem Journal.Holds.count_eq (h : s.Holds lib key entries) :
    s.memory.count = entries.length := by
  rw [h.memory, endMemory, fst_journalEnd h.chained]

theorem Journal.Holds.replay_eq (h : s.Holds lib key entries) :
    s.replay lib = entries.map .ok := by
  rw [Journal.replay, h.count_eq, Int.toNat_natCast]
  apply List.ext_getElem
  · simp
  · intro n hn hn'
    have hLt : n < entries.length := by simpa using hn'
    simpa using h.directory.files n hLt

variable (lib) in
theorem Journal.append_cases (s : Journal) (fault : Fault) (entry : PrivacyBudgetEntry) :
    (∃ e, s.append lib fault entry = (s, .error e)) ∨
      ∃ files n, s.directory.entries = some files ∧ entry.sequenceNumber.value = s.memory.count ∧
        entryPath entry.sequenceNumber.value = (.ok n : Decoder StoreError ℕ) ∧
        ((fault = .latestFile ∧
            s.append lib fault entry =
              (⟨s.directory.withEntry files entry n, s.memory⟩, .error (.protocol .osError))) ∨
          fault = .none ∧
            s.append lib fault entry =
              (⟨{ s.directory.withEntry files entry n with
                  latest :=
                    some (latestText entry.sequenceNumber (hashEntryPayload lib entry)) },
                ⟨s.memory.count + 1, hashEntryPayload lib entry⟩⟩, .ok ())) := by
  unfold Journal.append
  by_cases hSeq : entry.sequenceNumber.value = s.memory.count
  · by_cases hPrev : entry.prevEntryHash = s.memory.latestHash
    · rw [if_neg (by simp [hSeq]), if_neg (by simp [hPrev])]
      cases hPath : (entryPath entry.sequenceNumber.value : Decoder StoreError ℕ) with
      | error e => exact .inl ⟨e, rfl⟩
      | ok n =>
          cases hFiles : s.directory.entries with
          | none => exact .inl ⟨_, rfl⟩
          | some files =>
              cases fault with
              | entryFile => exact .inl ⟨_, rfl⟩
              | latestFile => exact .inr ⟨files, n, rfl, hSeq, rfl, .inl ⟨rfl, rfl⟩⟩
              | none => exact .inr ⟨files, n, rfl, hSeq, rfl, .inr ⟨rfl, rfl⟩⟩
    · rw [if_neg (by simp [hSeq]), if_pos (by simp [hPrev])]
      exact .inl ⟨_, rfl⟩
  · rw [if_pos (by simp [hSeq])]
    exact .inl ⟨_, rfl⟩

theorem lawful_filesystem (hRead : lib.py.ReadsIndented read) :
    LawfulStore lib (Journal.store lib) (·.Holds lib key) (·.Readable read) where
  replay := fun h => h.replay_eq
  len := by
    intro s entries h
    show (if s.memory.count < 0 then .error .valueError else .ok s.memory.count.toNat :
      Decoder StoreError ℕ) = _
    rw [h.count_eq, if_neg (by omega), Int.toNat_natCast]
  latestHash := by
    intro s entries h
    show s.memory.latestHash = _
    rw [h.memory, endMemory]
  append := by
    intro s entries entry fault h hPlace hEntry
    show (s.append lib fault entry).2 = .ok () ∧
        (s.append lib fault entry).1.Holds lib key (entries ++ [entry]) ∨
      (∃ e, (s.append lib fault entry).2 = .error e) ∧
        (s.append lib fault entry).1.Holds lib key entries
    rcases s.append_cases lib fault entry with
      ⟨e, hSame⟩ | ⟨files, n, hFiles, hSeq, hPath, hWritten⟩
    · rw [hSame]
      exact .inr ⟨⟨e, rfl⟩, h⟩
    · rw [hSeq, h.count_eq] at hPath
      obtain ⟨rfl, hLimit⟩ := entryPath_natCast.mp hPath
      rcases hWritten with ⟨-, hSame⟩ | ⟨-, hSame⟩
      · rw [hSame]
        exact .inr ⟨⟨_, rfl⟩, h.directory.withEntry hFiles, h.memory, h.chained⟩
      · rw [hSame]
        refine .inl ⟨rfl, h.directory.concat hRead hEntry hFiles hLimit, ?_, ?_⟩
        · rw [endMemory, journalEnd, lastLink_concat, nextPlace, hSeq]
        · exact chained_concat.mpr ⟨h.chained, hPlace⟩
  append_error := by
    intro s entry e h
    change (s.append lib .none entry).2 = .error e at h
    show (s.append lib .none entry).1 = s
    rcases s.append_cases lib .none entry with
      ⟨e', hSame⟩ | ⟨files, n, -, -, -, ⟨hFault, -⟩ | ⟨-, hSame⟩⟩
    · rw [hSame]
    · cases hFault
    · rw [hSame] at h
      cases h

/-- A directory that the constructor of the store makes a journal of: a new one, or one that
holds a journal. -/
def Directory.Openable (lib : Library) (key : String) (directory : Directory)
    (entries : List PrivacyBudgetEntry) : Prop :=
  (directory.nodePubkey = none ∧ directory.entries.getD [] = [] ∧ directory.latest = none ∧
      entries = []) ∨
    directory.Holds lib key entries

theorem openStore_holds (hKey : lib.strippedText (utf8 key) = some key)
    (h : directory.Openable lib key entries)
    (hChained : Chained (nextPlace lib) place genesis entries) :
    ∃ changes s, bindSigner lib key directory = .ok changes ∧
      openStore lib key directory = .ok s ∧ s.Holds lib key entries ∧
      s.directory = changes.getLast?.getD directory ∧
      ∀ changed ∈ changes, changed.Openable lib key entries := by
  rcases h with ⟨hPubkey, hFiles, hLatest, rfl⟩ | hHolds
  · have hNew : ∀ files, (⟨some (utf8 key), files, none⟩ : Directory).Holds lib key [] := by
      intro files
      exact ⟨⟨_, rfl, hKey⟩, by simp, rfl⟩
    have hBind : bindSigner lib key directory =
        .ok [⟨some (utf8 key), directory.entries, none⟩, ⟨some (utf8 key), some [], none⟩] := by
      rw [bindSigner, hPubkey]
      simp [hFiles, hLatest]
    refine ⟨_, ⟨⟨some (utf8 key), some [], none⟩, endMemory lib []⟩, hBind, ?_,
      ⟨hNew _, rfl, trivial⟩, rfl, ?_⟩
    · rw [openStore, hBind]
      rfl
    · intro changed hChanged
      rcases List.mem_pair.mp hChanged with rfl | rfl <;> exact .inr (hNew _)
  · obtain ⟨bytes, hPubkey, hText⟩ := hHolds.signer
    have hBind : bindSigner lib key directory = .ok [] := by
      rw [bindSigner, hPubkey]
      simp only [hText, if_true]
    refine ⟨[], ⟨directory, endMemory lib entries⟩, hBind, ?_, ⟨hHolds, rfl, hChained⟩, rfl,
      by simp⟩
    rw [openStore, hBind, ok_bind]
    have hMemory := hHolds.latest
    simp only [List.getLast?_nil, Option.getD_none, hMemory, ok_bind]
    rfl

end Filesystem

end Prsm.PrivacyBudget
