import Prsm.Foundations.Chained
import Prsm.PrivacyBudget.Entries

/-!
# Journal stores

The chain that `verify_chain` walks, and the two stores: a list in memory, and a directory with
a file for each entry, a file that says where the journal ends, and the signer's key.  A file is
replaced as a whole or not at all.
-/

namespace Prsm.PrivacyBudget

open Foundations
open Wire (Decoder)
open Evm (Bytes)
open Settlement (utf8 hex b64decode)

section Chain

variable (lib : Library)

def hashEntryPayload (entry : PrivacyBudgetEntry) : Bytes := lib.sha.digest entry.signingPayload

def nodeIdForPublicKey (publicBytes : Bytes) : String :=
  String.ofList ((lib.sha.hexdigest publicBytes).toList.take 32)

/-- `verify_entry` with a key. -/
def verifyEntry (publicKeyB64 : String) (entry : PrivacyBudgetEntry) : Bool :=
  if entry.signature = [] then false
  else
    match b64decode publicKeyB64 with
    | none => false
    | some publicBytes =>
        nodeIdForPublicKey lib publicBytes = entry.nodeId &&
          lib.verifySignature publicKeyB64 entry.signingPayload entry.signature

/-- `verify_chain`.  An entry is read when its turn comes. -/
def verifyChain (publicKeyB64 : String) :
    List (Decoder StoreError PrivacyBudgetEntry) → ℤ → Bytes → Decoder StoreError Bool
  | [], _, _ => .ok true
  | read :: rest, expectedSeq, prevHash => do
      let entry ← read
      if entry.sequenceNumber.value ≠ expectedSeq then return false
      if entry.prevEntryHash ≠ prevHash then return false
      if verifyEntry lib publicKeyB64 entry = false then return false
      verifyChain publicKeyB64 rest (expectedSeq + 1) (hashEntryPayload lib entry)

/-- The place of an entry: its number, and the hash that it names. -/
def place (entry : PrivacyBudgetEntry) : ℤ × Bytes :=
  (entry.sequenceNumber.value, entry.prevEntryHash)

/-- The place after an entry. -/
def nextPlace (entry : PrivacyBudgetEntry) : ℤ × Bytes :=
  (entry.sequenceNumber.value + 1, hashEntryPayload lib entry)

/-- Where the journal starts. -/
def genesis : ℤ × Bytes := (0, genesisPrevHash)

/-- Where a journal with these entries ends. -/
def journalEnd (entries : List PrivacyBudgetEntry) : ℤ × Bytes :=
  lastLink (nextPlace lib) genesis entries

/-- A journal that verifies: the entries follow one another and the key has signed each. -/
structure Verified (publicKeyB64 : String) (entries : List PrivacyBudgetEntry) : Prop where
  chained : Chained (nextPlace lib) place genesis entries
  signed : ∀ entry ∈ entries, verifyEntry lib publicKeyB64 entry = true

end Chain

/-- Which replacement of a file raises in an append, if one does. -/
inductive Fault
  | none
  | entryFile
  | latestFile

/-- What the tracker uses of a store, with the state it is in. -/
structure PrivacyBudgetStore (σ : Type) where
  append : Fault → σ → PrivacyBudgetEntry → σ × Decoder StoreError Unit
  replay : σ → List (Decoder StoreError PrivacyBudgetEntry)
  latestHash : σ → Bytes
  len : σ → Decoder StoreError ℕ

/-! ## In memory -/

structure InMemoryPrivacyBudgetStore where
  entries : List PrivacyBudgetEntry
  latestHash : Bytes

namespace InMemoryPrivacyBudgetStore

def empty : InMemoryPrivacyBudgetStore := ⟨[], genesisPrevHash⟩

def append (lib : Library) (s : InMemoryPrivacyBudgetStore) (entry : PrivacyBudgetEntry) :
    InMemoryPrivacyBudgetStore × Decoder StoreError Unit :=
  if entry.sequenceNumber.value ≠ s.entries.length then
    (s, .error (.protocol .outOfOrderAppend))
  else if entry.prevEntryHash ≠ s.latestHash then
    (s, .error (.protocol .outOfOrderAppend))
  else (⟨s.entries ++ [entry], hashEntryPayload lib entry⟩, .ok ())

def store (lib : Library) : PrivacyBudgetStore InMemoryPrivacyBudgetStore where
  append := fun _ => append lib
  replay := fun s => s.entries.map .ok
  latestHash := latestHash
  len := fun s => .ok s.entries.length

end InMemoryPrivacyBudgetStore

/-! ## On disk -/

/-- A file in `entries/`: `NNNNNN.json`, or any other. -/
inductive EntryFile
  | numbered (sequenceNumber : ℕ)
  | other (name : String)
  deriving DecidableEq

/-- The root of a journal.  `entries/` is `none` while it has not been made. -/
structure Directory where
  nodePubkey : Option Bytes
  entries : Option (List (EntryFile × Bytes))
  latest : Option Bytes

def Directory.empty : Directory := ⟨none, none, none⟩

/-- The limit of `_entry_path`, `10 ** _ENTRY_DIGITS`. -/
def entryLimit : ℕ := 10 ^ 6

/-- The store's own memory: `_count` and `_latest_hash`. -/
structure FilesystemPrivacyBudgetStore where
  count : ℤ
  latestHash : Bytes

/-- A store with the directory that it is over. -/
structure Journal where
  directory : Directory
  memory : FilesystemPrivacyBudgetStore

section Filesystem

variable (lib : Library)

/-- `d[key]`, of the value in `latest.json`. -/
def item (key : String) : Json → Decoder StoreError Json
  | .object fields =>
      match Json.lookup key fields with
      | some x => .ok x
      | none => .error (.protocol .journalCorruption)
  | _ => .error .typeError

/-- What `__init__` makes of a `ValueError`. -/
def corruptIfValueError {α : Type} : Decoder StoreError α → Decoder StoreError α
  | .error .valueError => .error (.protocol .journalCorruption)
  | x => x

/-- `json.loads(path.read_text())` of `latest.json`. -/
def loadLatest (bytes : Bytes) : Decoder StoreError Json :=
  match lib.py.loads bytes with
  | .ok data => .ok data
  | .error .recursionError => .error .recursionError
  | .error _ => .error (.protocol .journalCorruption)

/-- Where the journal ends, by `latest.json`. -/
def readLatest (directory : Directory) : Decoder StoreError FilesystemPrivacyBudgetStore :=
  match directory.latest with
  | none => .ok ⟨0, genesisPrevHash⟩
  | some bytes => do
      let latestData ← loadLatest lib bytes
      let sequenceNumber ←
        corruptIfValueError (Wire.toInt lib.py (← item "sequence_number" latestData))
      let latestHash ← corruptIfValueError (bytesArgument (← item "entry_hash" latestData))
      if latestHash.length = 32 then .ok ⟨sequenceNumber + 1, latestHash⟩
      else .error (.protocol .journalCorruption)

/-- The directory after each change that the constructor makes to it: the key is written, then
`entries/` is made. -/
def bindSigner (publicKeyB64 : String) (directory : Directory) :
    Decoder StoreError (List Directory) :=
  match directory.nodePubkey with
  | some bytes =>
      match lib.strippedText bytes with
      | none => .error .unicodeDecodeError
      | some existing =>
          if existing = publicKeyB64 then .ok [] else .error (.protocol .journalCorruption)
  | none =>
      if (directory.entries.getD []).isEmpty then
        .ok [{ directory with nodePubkey := some (utf8 publicKeyB64) },
          { directory with
            nodePubkey := some (utf8 publicKeyB64),
            entries := some (directory.entries.getD []) }]
      else .error (.protocol .journalCorruption)

/-- `FilesystemPrivacyBudgetStore(root, public_key_b64)`. -/
def openStore (publicKeyB64 : String) (directory : Directory) : Decoder StoreError Journal := do
  let changes ← bindSigner lib publicKeyB64 directory
  let bound := changes.getLast?.getD directory
  let memory ← readLatest lib bound
  return ⟨bound, memory⟩

/-- The file of an entry, by `_entry_path`. -/
def entryPath (sequenceNumber : ℤ) : Decoder StoreError ℕ :=
  if sequenceNumber < 0 then .error .valueError
  else if entryLimit ≤ sequenceNumber.toNat then .error .valueError
  else .ok sequenceNumber.toNat

/-- What a file in `entries/` holds. -/
def Directory.entryText (directory : Directory) (n : ℕ) : Option Bytes :=
  (directory.entries.getD []).lookup (.numbered n)

/-- What `_read_entry` makes of what `from_dict` raises. -/
def corruptIfSchemaError {α : Type} : Decoder StoreError α → Decoder StoreError α
  | .error .typeError | .error .valueError => .error (.protocol .journalCorruption)
  | x => x

def loadEntry (bytes : Bytes) : Decoder StoreError Json :=
  match lib.py.loads bytes with
  | .ok data => .ok data
  | .error .jsonDecodeError => .error (.protocol .journalCorruption)
  | .error .unicodeDecodeError => .error .unicodeDecodeError
  | .error .recursionError => .error .recursionError

def readEntry (directory : Directory) (sequenceNumber : ℕ) :
    Decoder StoreError PrivacyBudgetEntry := do
  let n ← entryPath sequenceNumber
  match directory.entryText n with
  | none => .error (.protocol .journalCorruption)
  | some bytes =>
      let data ← loadEntry lib bytes
      corruptIfSchemaError (PrivacyBudgetEntry.fromDict lib data)

def latestFields (sequenceNumber : PyInt) (entryHash : Bytes) : List (String × Json) :=
  [("sequence_number", sequenceNumber.json), ("entry_hash", .str (hex entryHash))]

/-- The text of `latest.json`. -/
def latestText (sequenceNumber : PyInt) (entryHash : Bytes) : Bytes :=
  utf8 (Wire.indentedText (.object (latestFields sequenceNumber entryHash)))

namespace Journal

def append (fault : Fault) (s : Journal) (entry : PrivacyBudgetEntry) :
    Journal × Decoder StoreError Unit :=
  if entry.sequenceNumber.value ≠ s.memory.count then
    (s, .error (.protocol .outOfOrderAppend))
  else if entry.prevEntryHash ≠ s.memory.latestHash then
    (s, .error (.protocol .outOfOrderAppend))
  else
    match entryPath entry.sequenceNumber.value, s.directory.entries with
    | .error e, _ => (s, .error e)
    | .ok _, none => (s, .error (.protocol .osError))
    | .ok n, some files =>
        let written := { s.directory with
          entries := some ((.numbered n, entry.fileText) :: files) }
        match fault with
        | .entryFile => (s, .error (.protocol .osError))
        | .latestFile => (⟨written, s.memory⟩, .error (.protocol .osError))
        | .none =>
            (⟨{ written with
                latest := some (latestText entry.sequenceNumber (hashEntryPayload lib entry)) },
              ⟨s.memory.count + 1, hashEntryPayload lib entry⟩⟩, .ok ())

def replay (s : Journal) : List (Decoder StoreError PrivacyBudgetEntry) :=
  (List.range s.memory.count.toNat).map (readEntry lib s.directory)

def store : PrivacyBudgetStore Journal where
  append := append lib
  replay := replay lib
  latestHash := fun s => s.memory.latestHash
  len := fun s => if s.memory.count < 0 then .error .valueError else .ok s.memory.count.toNat

end Journal

end Filesystem

end Prsm.PrivacyBudget
