import Prsm.PrivacyBudget.Restart

/-!
# A journal that someone else has written to

Whatever the files hold, a journal that opens and verifies is a chain of entries that the key has
signed, each as far as it is printed, and its last hash fixes the whole of it.  That does not make
it one that can be continued: `verify_chain` walks the entries and does not look at the hash in
`latest.json`, which the next entry names.
-/

namespace Prsm.PrivacyBudget

open Foundations
open Wire (Decoder)
open Evm (Bytes)
open Settlement (utf8)

/-! ## What the entries are -/

section Signed

variable {lib : Library} {key : String} {entries chain ledger : List PrivacyBudgetEntry}

theorem place_of_printed {e e' : PrivacyBudgetEntry} (h : e.Printed e') : place e = place e' :=
  Prod.ext (congrArg PyInt.value h.sequenceNumber) h.prevEntryHash

theorem chained_of_printed {start : ℤ × Bytes}
    (h : List.Forall₂ (fun e e' => PrivacyBudgetEntry.signingPayload e = e'.signingPayload)
      entries chain)
    (hChained : Chained (nextPlace lib) place start entries) :
    Chained (nextPlace lib) place start chain := by
  induction h generalizing start with
  | nil => trivial
  | @cons e e' entries chain hSame _ ih =>
      obtain ⟨hPlace, hRest⟩ := hChained
      have hPrinted := printed_of_signingPayload hSame
      have hNext : nextPlace lib e' = nextPlace lib e := by
        rw [nextPlace, nextPlace, hashEntryPayload, hashEntryPayload, hSame,
          hPrinted.sequenceNumber]
      constructor
      · rw [← place_of_printed hPrinted]
        exact hPlace
      · rw [hNext]
        exact ih hRest

theorem exists_forall₂ {α β : Type} {P : β → Prop} {R : α → β → Prop} {xs : List α}
    (h : ∀ x ∈ xs, ∃ y, P y ∧ R x y) : ∃ ys, (∀ y ∈ ys, P y) ∧ List.Forall₂ R xs ys := by
  induction xs with
  | nil => exact ⟨[], by simp, .nil⟩
  | cons x xs ih =>
      obtain ⟨y, hy, hxy⟩ := h x List.mem_cons_self
      obtain ⟨ys, hys, hRest⟩ := ih fun z hz => h z (List.mem_cons_of_mem x hz)
      exact ⟨y :: ys, List.forall_mem_cons.mpr ⟨hy, hys⟩, .cons hxy hRest⟩

/-- The bytes under each signature in the journal are those of an entry in the set. -/
def SignedIn (signed : Set PrivacyBudgetEntry) (entries : List PrivacyBudgetEntry) : Prop :=
  ∀ e ∈ entries, ∃ e', e' ∈ signed ∧ e.signingPayload = e'.signingPayload

theorem verifySignature_of_verifyEntry {e : PrivacyBudgetEntry}
    (h : verifyEntry lib key e = true) :
    lib.verifySignature key e.signingPayload e.signature = true := by
  unfold verifyEntry at h
  split_ifs at h
  split at h
  · cases h
  · exact (Bool.and_eq_true_iff.mp h).2

variable {signed : Set PrivacyBudgetEntry}

theorem exists_signed_chain (hSigned : SignedIn signed entries)
    (hChained : Chained (nextPlace lib) place genesis entries) :
    ∃ chain, (∀ e ∈ chain, e ∈ signed) ∧ Chained (nextPlace lib) place genesis chain ∧
      List.Forall₂ PrivacyBudgetEntry.Printed entries chain := by
  obtain ⟨chain, hMem, hSame⟩ := exists_forall₂ hSigned
  exact ⟨chain, hMem, chained_of_printed hSame hChained,
    hSame.imp fun _ _ => printed_of_signingPayload⟩

theorem sequenceNumber_getElem (h : Chained (nextPlace lib) place genesis entries) (n : ℕ)
    (hn : n < entries.length) : entries[n].sequenceNumber.value = n := by
  have hSplit : entries = entries.take n ++ entries[n] :: entries.drop (n + 1) := by
    rw [List.getElem_cons_drop, List.take_append_drop]
  rw [hSplit] at h
  have hPlace := prev_eq_of_chained h
  have hFront := (chained_append.mp h).1
  have hCount := fst_journalEnd hFront
  have hSeq : entries[n].sequenceNumber.value = (journalEnd lib (entries.take n)).1 :=
    congrArg Prod.fst hPlace
  rw [hSeq, hCount, List.length_take, Nat.min_eq_left hn.le]

theorem prefix_of_forall_mem (hChain : Chained (nextPlace lib) place genesis chain)
    (hLedger : Chained (nextPlace lib) place genesis ledger) (hMem : ∀ e ∈ chain, e ∈ ledger) :
    chain <+: ledger := by
  have hPlace : ∀ n (hn : n < chain.length), ∃ h : n < ledger.length, ledger[n] = chain[n] := by
    intro n hn
    obtain ⟨k, hk, hSame⟩ := List.mem_iff_getElem.mp (hMem _ (List.getElem_mem hn))
    have hNumber := sequenceNumber_getElem hLedger k hk
    have hNumber' := sequenceNumber_getElem hChain n hn
    rw [hSame, hNumber'] at hNumber
    obtain rfl : n = k := by exact_mod_cast hNumber
    exact ⟨hk, hSame⟩
  rw [List.prefix_iff_getElem?]
  intro n hn
  obtain ⟨h, hSame⟩ := hPlace n hn
  rw [List.getElem?_eq_getElem h, hSame]

theorem printed_of_journalEnd_eq
    (hCollision : Set.InjOn lib.sha.digest (PrivacyBudgetEntry.signingPayload '' signed))
    (hSigned : SignedIn signed entries) (hMem : ∀ e ∈ chain, e ∈ signed)
    (hChained : Chained (nextPlace lib) place genesis entries)
    (hChain : Chained (nextPlace lib) place genesis chain)
    (hEnd : journalEnd lib entries = journalEnd lib chain) :
    List.Forall₂ PrivacyBudgetEntry.Printed entries chain := by
  have hLength : entries.length = chain.length := by
    have hCount := fst_journalEnd hChained
    rw [hEnd, fst_journalEnd hChain] at hCount
    exact_mod_cast hCount.symm
  have hSame : List.Forall₂ (fun e e' => PrivacyBudgetEntry.signingPayload e = e'.signingPayload)
      entries chain := by
    apply forall₂_of_lastLink_eq _ _ hChained hChain hLength hEnd
    · intro e he e' he' hLink
      obtain ⟨e'', he'', hPayload⟩ := hSigned e he
      apply hCollision ⟨e'', he'', hPayload.symm⟩ ⟨e', hMem e' he', rfl⟩
      exact congrArg Prod.snd hLink
    · intro e e' h
      exact place_of_printed (printed_of_signingPayload h)
  exact hSame.imp fun _ _ => printed_of_signingPayload

end Signed

/-! ## Whether it can be continued -/

section Extending

variable {lib : Library} (identity : NodeIdentity lib) (read : String → Option PyFloat)

/-- Whatever the next call of the tracker is, its entry is appended and the journal verifies
still.  The fields of the call are free of the characters that no entry may contain. -/
def Extends (s : Journal) : Prop :=
  ∀ a : Attempt, a.Readable read → a.call.operation.toList.any isReserved = false →
    a.call.modelId.toList.any isReserved = false →
      (appendCall (Journal.store lib) identity .none s a).2 = .ok () ∧
        verifyChain lib identity.publicKeyB64
          (Journal.replay lib (appendCall (Journal.store lib) identity .none s a).1) 0
          genesisPrevHash = .ok true

/-- `latest.json` names the last of the entries, and there is room for another. -/
structure NamesLast (lib : Library) (s : Journal) (entries : List PrivacyBudgetEntry) :
    Prop where
  hash : s.memory.latestHash = (journalEnd lib entries).2
  counted : 0 ≤ s.memory.count
  room : s.memory.count < entryLimit
  folder : s.directory.entries ≠ none

variable {identity read} {s : Journal} {directory : Directory}
  {entries : List PrivacyBudgetEntry}

theorem length_latestHash {memory : FilesystemPrivacyBudgetStore}
    (h : readLatest lib directory = .ok memory) : memory.latestHash.length = 32 := by
  unfold readLatest at h
  split at h
  · cases h
    rfl
  · simp only [bind_eq_ok_iff] at h
    obtain ⟨latestData, -, value, -, sequenceNumber, -, text, -, latestHash, -, h⟩ := h
    split_ifs at h with hWidth
    cases h
    exact hWidth

theorem readLatest_of_openStore (h : openStore lib identity.publicKeyB64 directory = .ok s) :
    readLatest lib s.directory = .ok s.memory := by
  rw [openStore, bind_eq_ok_iff] at h
  obtain ⟨changes, -, h⟩ := h
  obtain ⟨memory, hLatest, hSame⟩ := bind_eq_ok_iff.mp h
  cases hSame
  exact hLatest

variable (identity) in
theorem exists_nextEntry {a : Attempt} (hCounted : 0 ≤ s.memory.count)
    (hWidth : s.memory.latestHash.length = 32)
    (hOperation : a.call.operation.toList.any isReserved = false)
    (hModel : a.call.modelId.toList.any isReserved = false) :
    ∃ entry, nextEntry (Journal.store lib) identity s a.call.entryType a.call.epsilon
        a.call.operation a.call.modelId a.now = .ok entry := by
  have hUnreserved : ∀ text ∈ [identity.nodeId, a.call.operation, a.call.modelId],
      text.toList.any isReserved = false := by
    simp only [List.forall_mem_cons, List.not_mem_nil, false_imp_iff, implies_true, and_true]
    exact ⟨identity.unreserved, hOperation, hModel⟩
  have hNonneg : 0 ≤ (PyInt.int s.memory.count.toNat).value := Int.natCast_nonneg _
  have hLen : (Journal.store lib).len s = .ok s.memory.count.toNat := if_neg (by omega)
  have hHash : (Journal.store lib).latestHash s = s.memory.latestHash := rfl
  let unsigned : PrivacyBudgetEntry :=
    ⟨.int s.memory.count.toNat, a.call.entryType, identity.nodeId, a.call.epsilon,
      a.call.operation, a.call.modelId, a.now, s.memory.latestHash, .int entrySchemaVersion, [],
      hWidth, hNonneg, hUnreserved⟩
  refine ⟨{ unsigned with signature := identity.sign unsigned.signingPayload }, ?_⟩
  rw [nextEntry, hLen, ok_bind, hHash, create_eq_ok_iff (e := unsigned) |>.mpr (by simp [unsigned]),
    ok_bind, signEntry, create_eq_ok_iff (e := unsigned) |>.mpr (by simp [unsigned]), ok_bind]
  exact create_eq_ok_iff.mpr (by simp)

variable (lib) in
theorem append_eq_ok {entry : PrivacyBudgetEntry} {files : List (EntryFile × Bytes)}
    (hSeq : entry.sequenceNumber.value = s.memory.count)
    (hPrev : entry.prevEntryHash = s.memory.latestHash) (hCounted : 0 ≤ s.memory.count)
    (hRoom : s.memory.count < entryLimit) (hFiles : s.directory.entries = some files) :
    (s.append lib .none entry).2 = .ok () := by
  have hNat : s.memory.count = (s.memory.count.toNat : ℕ) := (Int.toNat_of_nonneg hCounted).symm
  have hPath : (entryPath s.memory.count : Decoder StoreError ℕ) = .ok s.memory.count.toNat := by
    rw [hNat, Int.toNat_natCast]
    exact entryPath_natCast.mpr ⟨rfl, by omega⟩
  unfold Journal.append
  rw [if_neg (by simp [hSeq]), if_neg (by simp [hPrev]), hSeq, hPath, hFiles]

theorem replay_written (hRead : lib.py.ReadsIndented read) {entry : PrivacyBudgetEntry}
    (hEntry : entry.Readable read) (hReplay : s.replay lib = entries.map .ok)
    (hAppend : (s.append lib .none entry).2 = .ok ()) :
    (s.append lib .none entry).1.replay lib = (entries ++ [entry]).map .ok := by
  rcases s.append_cases lib .none entry with
    ⟨e, hSame⟩ | ⟨files, n, hFiles, hSeq, hPath, ⟨hFault, -⟩ | ⟨-, hSame⟩⟩
  · rw [hSame] at hAppend
    cases hAppend
  · cases hFault
  · have hNonneg := entry.nonneg
    have hCount : s.memory.count = (s.memory.count.toNat : ℕ) :=
      (Int.toNat_of_nonneg (by omega)).symm
    rw [hSeq, hCount] at hPath
    obtain ⟨rfl, hLimit⟩ := entryPath_natCast.mp hPath
    have hNext : (s.memory.count + 1).toNat = s.memory.count.toNat + 1 := by omega
    rw [hSame, Journal.replay, hNext, List.range_succ, List.map_append, List.map_append, ← hReplay,
      Journal.replay]
    congr 1
    · apply List.map_congr_left
      intro k hk
      have hLt : k < s.memory.count.toNat := List.mem_range.mp hk
      apply readEntry_congr
      exact (entryText_withEntry hFiles entry _ k).trans (if_neg (by omega))
    · rw [List.map_singleton, List.map_singleton, List.cons.injEq]
      refine ⟨readEntry_written hRead hEntry hLimit ?_, rfl⟩
      exact (entryText_withEntry hFiles entry _ _).trans (if_pos rfl)

theorem map_ok_injective {xs ys : List PrivacyBudgetEntry}
    (h : xs.map (Except.ok : _ → Decoder StoreError PrivacyBudgetEntry) = ys.map .ok) :
    xs = ys :=
  List.map_injective_iff.mpr (fun _ _ hSame => Except.ok.inj hSame) h

theorem call_eq_append {a : Attempt} {entry : PrivacyBudgetEntry}
    (h : nextEntry (Journal.store lib) identity s a.call.entryType a.call.epsilon
      a.call.operation a.call.modelId a.now = .ok entry) :
    appendCall (Journal.store lib) identity .none s a = s.append lib .none entry := by
  rw [appendCall, appendEntry, h]
  rfl

theorem namesLast_of_extends (hRead : lib.py.ReadsIndented read)
    (hZero : Json.ReadsBack read zeroFloat) (hReplay : s.replay lib = entries.map .ok)
    (h : Extends identity read s) : NamesLast lib s entries := by
  -- a reset can be tried on every journal
  have hReadable : Attempt.Readable read ⟨.reset, zeroFloat, zeroFloat⟩ := ⟨hZero, hZero⟩
  obtain ⟨hAppend, hVerify⟩ := h _ hReadable rfl rfl
  cases hEntry : nextEntry (Journal.store lib) identity s Call.reset.entryType
      Call.reset.epsilon Call.reset.operation Call.reset.modelId zeroFloat with
  | error e =>
      simp [appendCall, appendEntry, hEntry] at hAppend
  | ok entry =>
      have hNext := isNext_of_nextEntry hEntry
      rw [call_eq_append (a := ⟨.reset, zeroFloat, zeroFloat⟩) hEntry] at hAppend hVerify
      have hWritten := replay_written hRead
        (readable_of_isEntryOf (a := ⟨.reset, zeroFloat, zeroFloat⟩) hReadable hNext) hReplay
        hAppend
      rw [hWritten] at hVerify
      obtain ⟨entries', hSame, hNew⟩ := verifyChain_genesis_iff.mp hVerify
      obtain rfl := map_ok_injective hSame
      obtain ⟨-, hPlace⟩ := chained_concat.mp hNew.chained
      rcases s.append_cases lib .none entry with
        ⟨e, hFail⟩ | ⟨files, n, hFiles, hSeq, hPath, -⟩
      · rw [hFail] at hAppend
        cases hAppend
      · have hNonneg := entry.nonneg
        have hCount : s.memory.count = (s.memory.count.toNat : ℕ) :=
          (Int.toNat_of_nonneg (by omega)).symm
        rw [hSeq, hCount] at hPath
        obtain ⟨-, hLimit⟩ := entryPath_natCast.mp hPath
        constructor
        · exact hNext.prevEntryHash.symm.trans (congrArg Prod.snd hPlace)
        · omega
        · omega
        · simp [hFiles]

theorem extends_of_namesLast (hRead : lib.py.ReadsIndented read)
    (hOpen : openStore lib identity.publicKeyB64 directory = .ok s)
    (hReplay : s.replay lib = entries.map .ok)
    (hVerified : Verified lib identity.publicKeyB64 entries) (h : NamesLast lib s entries) :
    Extends identity read s := by
  intro a hReadable hOperation hModel
  obtain ⟨hHash, hCounted, hRoom, hFolder⟩ := h
  have hLatest := readLatest_of_openStore hOpen
  have hLength : entries.length = s.memory.count.toNat := by
    have hLengths := congrArg List.length hReplay
    simpa [Journal.replay] using hLengths.symm
  obtain ⟨files, hFiles⟩ := Option.ne_none_iff_exists'.mp hFolder
  obtain ⟨entry, hEntry⟩ := exists_nextEntry identity hCounted (length_latestHash hLatest)
    hOperation hModel
  have hNext := isNext_of_nextEntry hEntry
  have hSeq : entry.sequenceNumber.value = s.memory.count := by
    have hLen : (.ok s.memory.count.toNat : Decoder StoreError ℕ) =
        .ok entry.sequenceNumber.value.toNat := by
      rw [← hNext.len]
      exact (if_neg (by omega)).symm
    have hSame := Except.ok.inj hLen
    have hNonneg := entry.nonneg
    omega
  have hPlace : place entry = journalEnd lib entries := by
    apply Prod.ext
    · show entry.sequenceNumber.value = _
      rw [fst_journalEnd hVerified.chained]
      omega
    · exact hNext.prevEntryHash.trans hHash
  have hAppend := append_eq_ok lib hSeq hNext.prevEntryHash hCounted hRoom hFiles
  have hEntryReadable : entry.Readable read := readable_of_isEntryOf hReadable hNext
  have hWritten := replay_written hRead hEntryReadable hReplay hAppend
  have hNew := verified_concat hVerified hPlace (verifyEntry_of_signedBy identity hNext.signedBy)
  rw [call_eq_append hEntry]
  exact ⟨hAppend, verifyChain_genesis_iff.mpr ⟨_, hWritten, hNew⟩⟩

end Extending

/-- A journal that opens and verifies holds the beginning of a chain of entries that the key has
signed, which its length and its last hash fix as far as it is printed; where the key has signed
one chain only, it is the beginning of that one.  The tracker can continue it exactly when
`latest.json` names the last of its entries and there is room for another. -/
theorem tamper_evident_and_extends_iff {lib : Library} (identity : NodeIdentity lib)
    {read : String → Option PyFloat} (hRead : lib.py.ReadsIndented read)
    (hZero : Json.ReadsBack read zeroFloat) {directory : Directory} {s : Journal}
    (hOpen : openStore lib identity.publicKeyB64 directory = .ok s)
    (hVerify : verifyChain lib identity.publicKeyB64 (s.replay lib) 0 genesisPrevHash = .ok true)
    {signed : Set PrivacyBudgetEntry}
    (hUnforgeable : ∀ e, .ok e ∈ s.replay lib →
      lib.verifySignature identity.publicKeyB64 e.signingPayload e.signature = true →
        ∃ e', e' ∈ signed ∧ e.signingPayload = e'.signingPayload)
    (hCollision : Set.InjOn lib.sha.digest (PrivacyBudgetEntry.signingPayload '' signed)) :
    ∃ entries, s.replay lib = entries.map .ok ∧
      (∃ chain, (∀ e ∈ chain, e ∈ signed) ∧ Chained (nextPlace lib) place genesis chain ∧
        List.Forall₂ PrivacyBudgetEntry.Printed entries chain) ∧
      (∀ chain, (∀ e ∈ chain, e ∈ signed) → Chained (nextPlace lib) place genesis chain →
        journalEnd lib entries = journalEnd lib chain →
          List.Forall₂ PrivacyBudgetEntry.Printed entries chain) ∧
      (∀ ledger, Chained (nextPlace lib) place genesis ledger → (∀ e ∈ signed, e ∈ ledger) →
        ∃ front, front <+: ledger ∧ List.Forall₂ PrivacyBudgetEntry.Printed entries front) ∧
      (Extends identity read s ↔ NamesLast lib s entries) := by
  obtain ⟨entries, hReplay, hVerified⟩ := verifyChain_genesis_iff.mp hVerify
  have hSigned : SignedIn signed entries := by
    intro e he
    apply hUnforgeable e
    · rw [hReplay]
      exact List.mem_map_of_mem he
    · exact verifySignature_of_verifyEntry (hVerified.signed e he)
  obtain ⟨chain, hMem, hChain, hPrinted⟩ := exists_signed_chain hSigned hVerified.chained
  refine ⟨entries, hReplay, ⟨chain, hMem, hChain, hPrinted⟩, ?_, ?_, ?_, ?_⟩
  · intro chain' hMem' hChain' hEnd
    exact printed_of_journalEnd_eq hCollision hSigned hMem' hVerified.chained hChain' hEnd
  · intro ledger hLedger hAll
    exact ⟨chain, prefix_of_forall_mem hChain hLedger fun e he => hAll e (hMem e he), hPrinted⟩
  · exact namesLast_of_extends hRead hZero hReplay
  · exact extends_of_namesLast hRead hOpen hReplay hVerified

/-! ## A journal of one entry -/

namespace Sample

open Wire.Sample (floatOf filePython_readsIndented readFloat)

theorem unreserved_nodeId : ∀ s ∈ [identity.nodeId, "", ""], s.toList.any isReserved = false := by
  simp only [List.forall_mem_cons, List.not_mem_nil, false_imp_iff, implies_true, and_true]
  exact ⟨identity.unreserved, rfl, rfl⟩

theorem nonneg_first : 0 ≤ (PyInt.int 0).value := le_refl 0

/-- A reset of the budget, signed. -/
def entry : PrivacyBudgetEntry :=
  ⟨.int 0, .reset, identity.nodeId, zeroFloat, "", "", zeroFloat, genesisPrevHash, .int 1,
    signature, rfl, nonneg_first, unreserved_nodeId⟩

theorem readsBack_zeroFloat : Json.ReadsBack readFloat zeroFloat := by
  have hZero : zeroFloat = floatOf 0 := rfl
  rw [hZero]
  exact readsBack_floatOf 0 (by decide +kernel)

def journalWith (hash : Bytes) : Journal :=
  ⟨⟨some (utf8 publicKey), some [(.numbered 0, entry.fileText)], some (latestText (.int 0) hash)⟩,
    ⟨1, hash⟩⟩

variable {hash : Bytes}

theorem openStore_journalWith (hWidth : hash.length = 32) :
    openStore library publicKey (journalWith hash).directory = .ok (journalWith hash) := by
  have hBind : bindSigner library publicKey (journalWith hash).directory = .ok [] := by
    have hText : library.strippedText (utf8 publicKey) = some publicKey := identity.stripped
    simp only [bindSigner, journalWith, hText, if_true]
  have hLatest : readLatest library (journalWith hash).directory =
      .ok ⟨(PyInt.int 0).value + 1, hash⟩ :=
    readLatest_latestText filePython_readsIndented hWidth rfl
  rw [openStore, hBind, ok_bind]
  simp only [List.getLast?_nil, Option.getD_none, hLatest, ok_bind]
  rfl

theorem replay_journalWith : (journalWith hash).replay library = [entry].map .ok := by
  have hRead : readEntry library (journalWith hash).directory 0 = .ok entry :=
    readEntry_written filePython_readsIndented ⟨readsBack_zeroFloat, readsBack_zeroFloat⟩
      (by decide) rfl
  exact congrArg (fun read => [read]) hRead

theorem verified_entry : Verified library publicKey [entry] :=
  verified_concat (verified_nil publicKey) rfl (verifyEntry_of_signedBy identity ⟨rfl, rfl⟩)

end Sample

open Sample in
/-- With the hash of its entry in `latest.json` the journal can be continued. -/
theorem extends_journalWith : Extends identity Wire.Sample.readFloat
    (journalWith (hashEntryPayload library entry)) := by
  have hOne : ∀ e, .ok e ∈ (journalWith (hashEntryPayload library entry)).replay library →
      e = entry := by
    intro e he
    rw [replay_journalWith] at he
    simpa using he
  obtain ⟨entries, hReplay, -, -, -, hExact⟩ := tamper_evident_and_extends_iff identity
    Wire.Sample.filePython_readsIndented readsBack_zeroFloat
    (openStore_journalWith (library.sha.length_digest _))
    (verifyChain_genesis_iff.mpr ⟨_, replay_journalWith, verified_entry⟩)
    (fun e he _ => ⟨entry, rfl, by rw [hOne e he]⟩ : ∀ e, _ → _ → ∃ e', e' ∈ ({entry} : Set _) ∧ _)
    (by simp)
  rw [replay_journalWith] at hReplay
  obtain rfl := map_ok_injective hReplay
  exact hExact.mpr ⟨rfl, by decide, by decide, by simp [journalWith]⟩

open Sample in
/-- With another hash there, the journal opens and verifies all the same, and no entry after it
does. -/
theorem verified_not_extends :
    openStore library publicKey (journalWith (List.replicate 32 1)).directory =
        .ok (journalWith (List.replicate 32 1)) ∧
      verifyChain library publicKey ((journalWith (List.replicate 32 1)).replay library) 0
        genesisPrevHash = .ok true ∧
      ¬ Extends identity Wire.Sample.readFloat (journalWith (List.replicate 32 1)) := by
  refine ⟨openStore_journalWith rfl,
    verifyChain_genesis_iff.mpr ⟨_, replay_journalWith, verified_entry⟩, fun hExtends => ?_⟩
  have hNames := namesLast_of_extends Wire.Sample.filePython_readsIndented readsBack_zeroFloat
    replay_journalWith hExtends
  have hHash := hNames.hash
  exact absurd hHash (by decide +kernel)

end Prsm.PrivacyBudget
