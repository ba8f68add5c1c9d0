import Prsm.ConsensusQueue.Operations
import Prsm.Foundations.JsonText
import Prsm.Foundations.Sqlite

/-!
# What a drain writes

`enqueue_from_drained` inserts a row for each minority receipt on the connection that all
methods of the queue share, and commits once, at the end.  A Python integer that does not fit
SQLite's 64 bits raises, with the rows before it inserted and not committed.
-/

namespace Prsm.ConsensusQueue.Draining

open Foundations
open Settlement (ShardExecutionReceipt)
open Evm (Bytes)

/-! ## Receipts as JSON -/

/-- What `json.loads` does with the text of a float, and how deep it goes. -/
structure Loader where
  readFloat : String → Option PyFloat
  nesting : ℕ

def dumps (v : Json) : String :=
  String.ofList v.chars

def Loader.loads (py : Loader) (text : String) : Option Json :=
  match Json.readValue py.readFloat (py.nesting + 1) text.toList with
  | some (v, []) => some v
  | _ => none

/-- `tee_attestation`, which a receipt holds in serialised form. -/
def attestation (py : Loader) (r : ShardExecutionReceipt) : Json :=
  match r.teeAttestation with
  | none => .null
  | some text => (py.loads text).getD .null

def toDict (py : Loader) (r : ShardExecutionReceipt) : List (String × Json) :=
  [("job_id", .str r.jobId), ("shard_index", .int r.shardIndex),
    ("provider_id", .str r.providerId), ("provider_pubkey_b64", .str r.providerPubkeyB64),
    ("output_hash", .str r.outputHash), ("executed_at_unix", .int r.executedAtUnix),
    ("signature", .str r.signature), ("tee_attestation", attestation py r)]

def strField (fields : List (String × Json)) (key : String) : Option String :=
  match Json.lookup key fields with
  | some (.str s) => some s
  | _ => none

def intField (fields : List (String × Json)) (key : String) : Option ℤ :=
  match Json.lookup key fields with
  | some (.int n) => some n
  | _ => none

/-- An attestation in serialised form. -/
def serialised : Json → Option String
  | .null => none
  | v => some (dumps v)

/-- `data.get("tee_attestation")`. -/
def attestationField (fields : List (String × Json)) : Option String :=
  (Json.lookup "tee_attestation" fields).bind serialised

/-- `from_dict`, of an object with fields of the types declared. -/
def fromDict (fields : List (String × Json)) : Option ShardExecutionReceipt := do
  let jobId ← strField fields "job_id"
  let shardIndex ← intField fields "shard_index"
  let providerId ← strField fields "provider_id"
  let providerPubkeyB64 ← strField fields "provider_pubkey_b64"
  let outputHash ← strField fields "output_hash"
  let executedAtUnix ← intField fields "executed_at_unix"
  let signature ← strField fields "signature"
  return ⟨jobId, shardIndex, providerId, providerPubkeyB64, outputHash, executedAtUnix,
    signature, attestationField fields⟩

/-- `ShardExecutionReceipt.from_dict(json.loads(…))`. -/
def receiptOf (py : Loader) (text : String) : Option ShardExecutionReceipt := do
  match ← py.loads text with
  | .object fields => fromDict fields
  | _ => none

/-! ## The table -/

/-- A row of `consensus_challenges` as SQLite keeps it. -/
structure Row where
  rowId : ℕ
  jobId : String
  shardIndex : ℤ
  agreedOutputHash : String
  valueFtnsPerProviderWei : ℤ
  minorityProviderId : String
  minorityReceiptJson : String
  majorityProviderId : String
  majorityReceiptJson : String
  minorityBatchId : Option Bytes
  majorityBatchId : Option Bytes
  status : Status
  attempts : ℕ
  lastError : Option String
  lastTxHash : Option String
  claimedBy : Option String
  claimedAt : Option ℚ
  leaseExpiresAt : Option ℚ
  createdAt : ℚ
  updatedAt : ℚ

/-- The rows, which `AUTOINCREMENT` has numbered. -/
structure Table where
  rows : List Row
  numbered : rows.map Row.rowId = List.range' 1 rows.length

/-- The new row of an `INSERT`. -/
def newRow (py : Loader) (now : ℚ) (rowId : ℕ) (entry : DrainedEntry)
    (majority minority : ShardExecutionReceipt) : Row where
  rowId := rowId
  jobId := entry.jobId
  shardIndex := entry.shardIndex
  agreedOutputHash := entry.agreedOutputHash
  valueFtnsPerProviderWei := entry.valueFtnsPerProviderWei
  minorityProviderId := minority.providerId
  minorityReceiptJson := dumps (.object (toDict py minority))
  majorityProviderId := majority.providerId
  majorityReceiptJson := dumps (.object (toDict py majority))
  minorityBatchId := none
  majorityBatchId := none
  status := .pending
  attempts := 0
  lastError := none
  lastTxHash := none
  claimedBy := none
  claimedAt := none
  leaseExpiresAt := none
  createdAt := now
  updatedAt := now

theorem numbered_append {rows : List Row} {r : Row}
    (h : rows.map Row.rowId = List.range' 1 rows.length) (hId : r.rowId = rows.length + 1) :
    (rows ++ [r]).map Row.rowId = List.range' 1 (rows ++ [r]).length := by
  rw [List.map_append, h, List.length_append, List.length_singleton, List.range'_concat]
  simp [hId, Nat.add_comm]

def Table.insert (py : Loader) (now : ℚ) (entry : DrainedEntry)
    (majority minority : ShardExecutionReceipt) (t : Table) : Table where
  rows := t.rows ++ [newRow py now (t.rows.length + 1) entry majority minority]
  numbered := numbered_append t.numbered rfl

def rowToDataclass (py : Loader) (r : Row) : Option PendingChallenge := do
  let minorityReceipt ← receiptOf py r.minorityReceiptJson
  let majorityReceipt ← receiptOf py r.majorityReceiptJson
  return {
    rowId := r.rowId
    jobId := r.jobId
    shardIndex := r.shardIndex
    agreedOutputHash := r.agreedOutputHash
    valueFtnsPerProviderWei := r.valueFtnsPerProviderWei
    minorityProviderId := r.minorityProviderId
    minorityReceipt := minorityReceipt
    majorityProviderId := r.majorityProviderId
    majorityReceipt := majorityReceipt
    minorityBatchId := r.minorityBatchId
    majorityBatchId := r.majorityBatchId
    status := r.status
    attempts := r.attempts
    lastError := r.lastError
    lastTxHash := r.lastTxHash
    claimedBy := r.claimedBy
    claimedAt := r.claimedAt
    leaseExpiresAt := r.leaseExpiresAt
    createdAt := r.createdAt
    updatedAt := r.updatedAt }

/-- `get`: nothing without such a row, else what its decoding gives. -/
def get (py : Loader) (rowId : ℕ) (c : Connection Table) : Option (Option PendingChallenge) :=
  (c.live.rows.find? fun r => r.rowId = rowId).map (rowToDataclass py)

/-! ## `enqueue_from_drained` -/

/-- What fits a column of type `INTEGER`. -/
def FitsInteger (n : ℤ) : Prop :=
  -2 ^ 63 ≤ n ∧ n < 2 ^ 63

instance (n : ℤ) : Decidable (FitsInteger n) :=
  inferInstanceAs (Decidable (_ ∧ _))

/-- The integers of the entry that its rows have fit. -/
def Fits (entry : DrainedEntry) : Prop :=
  FitsInteger entry.shardIndex ∧ FitsInteger entry.valueFtnsPerProviderWei

instance (entry : DrainedEntry) : Decidable (Fits entry) :=
  inferInstanceAs (Decidable (_ ∧ _))

inductive Raised
  | overflowError
  deriving DecidableEq

/-- What a call returns or raises, and the connection it leaves. -/
@[reducible] def Outcome : Type := Except Raised (List ℕ) × Connection Table

/-- The inner loop, with the ids of the rows so far.  The transaction begins before the
parameters are bound. -/
def enqueueMinorities (py : Loader) (now : ℚ) (entry : DrainedEntry)
    (majority : ShardExecutionReceipt) :
    List ShardExecutionReceipt → List ℕ → Connection Table → Outcome
  | [], rowIds, c => (.ok rowIds, c)
  | minority :: rest, rowIds, c =>
      if Fits entry then
        enqueueMinorities py now entry majority rest (rowIds ++ [c.live.rows.length + 1])
          (c.update (·.insert py now entry majority minority))
      else (.error .overflowError, c.begin)

/-- The outer loop. -/
def enqueueEntries (py : Loader) (now : ℚ) :
    List DrainedEntry → List ℕ → Connection Table → Outcome
  | [], rowIds, c => (.ok rowIds, c)
  | entry :: rest, rowIds, c =>
      match canonicalMajority entry.majorityReceipts with
      | none => enqueueEntries py now rest rowIds c
      | some majority =>
          match enqueueMinorities py now entry majority entry.minorityReceipts rowIds c with
          | (.ok rowIds', c') => enqueueEntries py now rest rowIds' c'
          | (.error e, c') => (.error e, c')

def enqueueFromDrained (py : Loader) (now : ℚ) (drainedEntries : List DrainedEntry)
    (c : Connection Table) : Outcome :=
  match enqueueEntries py now drainedEntries [] c with
  | (.ok rowIds, c') => (.ok rowIds, c'.commit)
  | (.error e, c') => (.error e, c')

/-! ## Later operations -/

/-- What a method of the queue does to the connection: a statement, a commit, or a restart of
the process. -/
inductive Later
  | statement (f : Table → Table)
  | commit
  | reopen

def Later.run (c : Connection Table) : Later → Connection Table
  | .statement f => c.update f
  | .commit => c.commit
  | .reopen => Connection.opened c.durable

/-- The table that is seen after some operations. -/
def seen (later : List Later) (c : Connection Table) : Table :=
  (later.foldl Later.run c).live

/-- When the call raises, the queue looks then and ever after as if it had not been made. -/
def Invisible (c : Connection Table) (outcome : Outcome) : Prop :=
  ∀ e, outcome.1 = .error e → ∀ later, seen later outcome.2 = seen later c

theorem seen_congr {c c' : Connection Table} (hLive : c.live = c'.live)
    (hDurable : c.durable = c'.durable) (later : List Later) : seen later c = seen later c' := by
  induction later generalizing c c' with
  | nil => exact hLive
  | cons op later ih =>
      show seen later (op.run c) = seen later (op.run c')
      cases op with
      | statement f => exact ih (congrArg f hLive) hDurable
      | commit => exact ih hLive hLive
      | reopen => exact ih hDurable hDurable

/-! ## Receipts are read back -/

section Readback

variable {py : Loader} {r : ShardExecutionReceipt}

/-- The attestation is the text of a value that can be written and read. -/
def Serialised (py : Loader) (r : ShardExecutionReceipt) : Prop :=
  ∀ text, r.teeAttestation = some text →
    ∃ v, v ≠ .null ∧ Json.Printable py.readFloat py.nesting v ∧ text = dumps v

theorem printable_succ {read : String → Option PyFloat} {n : ℕ} {v : Json}
    (h : Json.Printable read n v) : Json.Printable read (n + 1) v := by
  induction n generalizing v with
  | zero =>
      cases v with
      | array items => exact h.elim
      | object fields => exact h.elim
      | _ => exact h
  | succ n ih =>
      cases v with
      | array items => exact fun x hx => ih (h x hx)
      | object fields => exact ⟨h.1, fun f hf => ih (h.2 f hf)⟩
      | _ => exact h

theorem printable_leaf (read : String → Option PyFloat) (n : ℕ) :
    (∀ s, Json.Printable read n (.str s)) ∧ (∀ k, Json.Printable read n (.int k)) ∧
      Json.Printable read n .null := by
  cases n <;> exact ⟨fun _ => trivial, fun _ => trivial, trivial⟩

theorem loads_dumps {v : Json} (h : Json.Printable py.readFloat (py.nesting + 1) v) :
    py.loads (dumps v) = some v := by
  have hEnds : Json.Ends [] := by simp [Json.Ends]
  have hRead := Json.readValue_chars h hEnds
  rw [List.append_nil] at hRead
  rw [Loader.loads, dumps, String.toList_ofList, hRead]

theorem serialised_of_ne {v : Json} (h : v ≠ .null) : serialised v = some (dumps v) := by
  cases v with
  | null => exact absurd rfl h
  | _ => rfl

theorem attestation_printable (h : Serialised py r) :
    Json.Printable py.readFloat py.nesting (attestation py r) ∧
      attestationField (toDict py r) = r.teeAttestation := by
  have hField : attestationField (toDict py r) = serialised (attestation py r) := by
    simp [attestationField, toDict]
  rw [hField, attestation]
  cases hText : r.teeAttestation with
  | none => exact ⟨(printable_leaf _ _).2.2, rfl⟩
  | some text =>
      obtain ⟨v, hv, hPrintable, rfl⟩ := h text hText
      simp only [loads_dumps (printable_succ hPrintable), Option.getD_some]
      exact ⟨hPrintable, serialised_of_ne hv⟩

theorem printable_toDict (h : Serialised py r) :
    Json.Printable py.readFloat (py.nesting + 1) (.object (toDict py r)) := by
  obtain ⟨hStr, hInt, -⟩ := printable_leaf py.readFloat py.nesting
  refine ⟨by simp [toDict], ?_⟩
  simp only [toDict, List.forall_mem_cons, List.not_mem_nil, false_imp_iff, implies_true,
    and_true]
  exact ⟨hStr _, hInt _, hStr _, hStr _, hStr _, hInt _, hStr _, (attestation_printable h).1⟩

theorem receiptOf_toDict (h : Serialised py r) :
    receiptOf py (dumps (.object (toDict py r))) = some r := by
  have hAttestation := (attestation_printable h).2
  rw [receiptOf, loads_dumps (printable_toDict h)]
  show fromDict (toDict py r) = some r
  rw [fromDict, hAttestation]
  simp [toDict, strField, intField]

end Readback

/-! ## The rows of a call -/

section Rows

variable {py : Loader} {now : ℚ} {c : Connection Table}

/-- What the statement for one row is given. -/
@[reducible] def Pairing : Type := DrainedEntry × ShardExecutionReceipt × ShardExecutionReceipt

/-- The pairings of an entry: its minority receipts, each with the canonical majority. -/
def pairings (entry : DrainedEntry) : List Pairing :=
  match canonicalMajority entry.majorityReceipts with
  | none => []
  | some majority => entry.minorityReceipts.map fun minority => (entry, majority, minority)

def insertPairing (py : Loader) (now : ℚ) (c : Connection Table) (p : Pairing) :
    Connection Table :=
  c.update (·.insert py now p.1 p.2.1 p.2.2)

/-- The connection after the rows of some pairings. -/
def inserted (py : Loader) (now : ℚ) (ps : List Pairing) (c : Connection Table) :
    Connection Table :=
  ps.foldl (insertPairing py now) c

theorem inserted_append (ps qs : List Pairing) (c : Connection Table) :
    inserted py now (ps ++ qs) c = inserted py now qs (inserted py now ps c) :=
  List.foldl_append

theorem inserted_rows (py : Loader) (now : ℚ) (ps : List Pairing) (c : Connection Table) :
    (inserted py now ps c).live.rows = c.live.rows ++ ps.mapIdx (fun i p =>
        newRow py now (c.live.rows.length + 1 + i) p.1 p.2.1 p.2.2) ∧
      (inserted py now ps c).durable = c.durable := by
  induction ps generalizing c with
  | nil => simp [inserted]
  | cons p ps ih =>
      obtain ⟨hRows, hDurable⟩ := ih (insertPairing py now c p)
      refine ⟨?_, hDurable⟩
      show (inserted py now ps (insertPairing py now c p)).live.rows = _
      rw [hRows, List.mapIdx_cons]
      simp [insertPairing, Table.insert, Nat.add_assoc, Nat.add_comm 1, Nat.add_comm 2]

theorem inserted_row {ps : List Pairing} {i : ℕ} {p : Pairing} (h : ps[i]? = some p)
    (c : Connection Table) :
    (inserted py now ps c).live.rows[c.live.rows.length + i]? =
      some (newRow py now (c.live.rows.length + 1 + i) p.1 p.2.1 p.2.2) := by
  rw [(inserted_rows py now ps c).1, List.getElem?_append_right (Nat.le_add_right _ _),
    Nat.add_sub_cancel_left, List.getElem?_mapIdx, h, Option.map_some]

theorem length_inserted (py : Loader) (now : ℚ) (ps : List Pairing)
    (c : Connection Table) :
    (inserted py now ps c).live.rows.length = c.live.rows.length + ps.length := by
  rw [(inserted_rows py now ps c).1, List.length_append, List.length_mapIdx]

variable {entry : DrainedEntry}

theorem enqueueMinorities_of_fits (hFits : Fits entry)
    (majority : ShardExecutionReceipt) (minorities : List ShardExecutionReceipt)
    (rowIds : List ℕ) (c : Connection Table) :
    enqueueMinorities py now entry majority minorities rowIds c =
      (.ok (rowIds ++ List.range' (c.live.rows.length + 1) minorities.length),
        inserted py now (minorities.map fun minority => (entry, majority, minority)) c) := by
  induction minorities generalizing rowIds c with
  | nil => simp [enqueueMinorities, inserted]
  | cons minority rest ih =>
      rw [enqueueMinorities, if_pos hFits, ih]
      have hLength : (c.update (·.insert py now entry majority minority)).live.rows.length =
          c.live.rows.length + 1 := by simp [Table.insert]
      rw [hLength, List.append_assoc, List.length_cons, List.range'_succ]
      rfl

/-- The entry gives no row, or its integers fit. -/
def Acceptable (entry : DrainedEntry) : Prop :=
  entry.minorityReceipts ≠ [] → Fits entry

theorem enqueueMinorities_of_acceptable (h : Acceptable entry)
    (majority : ShardExecutionReceipt) (rowIds : List ℕ) (c : Connection Table) :
    enqueueMinorities py now entry majority entry.minorityReceipts rowIds c =
      (.ok (rowIds ++ List.range' (c.live.rows.length + 1) entry.minorityReceipts.length),
        inserted py now
          (entry.minorityReceipts.map fun minority => (entry, majority, minority)) c) := by
  by_cases hNone : entry.minorityReceipts = []
  · simp [hNone, enqueueMinorities, inserted]
  · exact enqueueMinorities_of_fits (h hNone) majority _ rowIds c

theorem enqueueEntries_append (py : Loader) (now : ℚ) {front : List DrainedEntry}
    (h : ∀ e ∈ front, Acceptable e)
    (rest : List DrainedEntry) (rowIds : List ℕ) (c : Connection Table) :
    enqueueEntries py now (front ++ rest) rowIds c =
      enqueueEntries py now rest
        (rowIds ++ List.range' (c.live.rows.length + 1) (front.flatMap pairings).length)
        (inserted py now (front.flatMap pairings) c) := by
  induction front generalizing rowIds c with
  | nil => simp [inserted]
  | cons entry front ih =>
      rw [List.forall_mem_cons] at h
      rw [List.cons_append, enqueueEntries, List.flatMap_cons, inserted_append,
        List.length_append]
      cases hMajority : canonicalMajority entry.majorityReceipts with
      | none =>
          have hPairings : pairings entry = [] := by rw [pairings, hMajority]
          simp only [hPairings, List.length_nil, Nat.zero_add]
          exact ih h.2 rowIds c
      | some majority =>
          have hPairings : pairings entry =
              entry.minorityReceipts.map fun minority => (entry, majority, minority) := by
            rw [pairings, hMajority]
          simp only [enqueueMinorities_of_acceptable h.1, hPairings]
          rw [ih h.2, length_inserted, List.append_assoc, List.length_map, Nat.add_right_comm,
            List.range'_append_1]

theorem enqueueEntries_of_not_fits (hFits : ¬ Fits entry)
    (hMinority : entry.minorityReceipts ≠ []) (hMajority : entry.majorityReceipts ≠ [])
    (rest : List DrainedEntry) (rowIds : List ℕ) (c : Connection Table) :
    enqueueEntries py now (entry :: rest) rowIds c = (.error .overflowError, c.begin) := by
  obtain ⟨majority, others, hMajority⟩ := List.exists_cons_of_ne_nil hMajority
  obtain ⟨minority, more, hMinority⟩ := List.exists_cons_of_ne_nil hMinority
  rw [enqueueEntries, hMajority, canonicalMajority, hMinority]
  simp only [enqueueMinorities, if_neg hFits]

theorem mem_pairings {p : Pairing} (h : p ∈ pairings entry) :
    p.1 = entry ∧ canonicalMajority entry.majorityReceipts = some p.2.1 ∧
      p.2.2 ∈ entry.minorityReceipts := by
  unfold pairings at h
  cases hMajority : canonicalMajority entry.majorityReceipts with
  | none =>
      rw [hMajority] at h
      cases h
  | some majority =>
      rw [hMajority] at h
      obtain ⟨minority, hMem, rfl⟩ := List.mem_map.mp h
      exact ⟨rfl, rfl, hMem⟩

theorem pairings_eq_nil (hMajority : entry.majorityReceipts ≠ []) :
    pairings entry = [] ↔ entry.minorityReceipts = [] := by
  obtain ⟨majority, others, hMajority⟩ := List.exists_cons_of_ne_nil hMajority
  rw [pairings, hMajority, canonicalMajority]
  exact List.map_eq_nil_iff

theorem acceptable_or_first (entries : List DrainedEntry) :
    (∀ e ∈ entries, Acceptable e) ∨
      ∃ front e rest, entries = front ++ e :: rest ∧ (∀ x ∈ front, Acceptable x) ∧
        e.minorityReceipts ≠ [] ∧ ¬ Fits e := by
  induction entries with
  | nil => exact Or.inl (by simp)
  | cons entry entries ih =>
      by_cases hEntry : Acceptable entry
      · rcases ih with hAll | ⟨front, e, rest, rfl, hFront, hBad⟩
        · exact Or.inl (List.forall_mem_cons.mpr ⟨hEntry, hAll⟩)
        · exact Or.inr ⟨entry :: front, e, rest, rfl,
            List.forall_mem_cons.mpr ⟨hEntry, hFront⟩, hBad⟩
      · obtain ⟨hMinority, hFits⟩ := Classical.not_imp.mp hEntry
        exact Or.inr ⟨[], entry, entries, rfl, by simp, hMinority, hFits⟩

theorem enqueueFromDrained_of_acceptable {entries : List DrainedEntry}
    (h : ∀ e ∈ entries, Acceptable e) (c : Connection Table) :
    enqueueFromDrained py now entries c =
      (.ok (List.range' (c.live.rows.length + 1) (entries.flatMap pairings).length),
        (inserted py now (entries.flatMap pairings) c).commit) := by
  have hLoop := enqueueEntries_append py now h [] [] c
  rw [List.append_nil, List.nil_append, enqueueEntries] at hLoop
  rw [enqueueFromDrained, hLoop]

theorem enqueueFromDrained_of_not_fits {front rest : List DrainedEntry}
    (hFront : ∀ e ∈ front, Acceptable e) (hMinority : entry.minorityReceipts ≠ [])
    (hFits : ¬ Fits entry) (hMajority : entry.majorityReceipts ≠ []) (c : Connection Table) :
    enqueueFromDrained py now (front ++ entry :: rest) c =
      (.error .overflowError, (inserted py now (front.flatMap pairings) c).begin) := by
  rw [enqueueFromDrained, enqueueEntries_append py now hFront,
    enqueueEntries_of_not_fits hFits hMinority hMajority]

end Rows

/-! ## No minority receipt is lost -/

/-- The lowest provider id of some receipts. -/
def IsLowest (r : ShardExecutionReceipt) (receipts : List ShardExecutionReceipt) : Prop :=
  r ∈ receipts ∧ ∀ r' ∈ receipts, r.providerId ≤ r'.providerId

theorem isLowest_canonicalMajority {receipts : List ShardExecutionReceipt}
    {r : ShardExecutionReceipt} (h : canonicalMajority receipts = some r) :
    IsLowest r receipts := by
  cases receipts with
  | nil => cases h
  | cons first rest =>
      obtain rfl := Option.some.inj h
      induction rest generalizing first with
      | nil => exact ⟨by simp, by simp⟩
      | cons next rest ih =>
          rw [List.foldl_cons]
          split
          case isTrue hLess =>
            obtain ⟨hMem, hLowest⟩ := ih next rfl
            refine ⟨List.mem_cons_of_mem first hMem, ?_⟩
            rw [List.forall_mem_cons]
            exact ⟨String.le_trans (hLowest next (by simp)) (String.lt_asymm hLess), hLowest⟩
          case isFalse hLess =>
            obtain ⟨hMem, hLowest⟩ := ih first rfl
            rw [List.forall_mem_cons] at hLowest
            refine ⟨?_, ?_⟩
            · rcases List.mem_cons.mp hMem with hFirst | hRest
              · rw [hFirst]
                simp
              · exact List.mem_cons_of_mem _ (List.mem_cons_of_mem _ hRest)
            · rw [List.forall_mem_cons, List.forall_mem_cons]
              exact ⟨hLowest.1, String.le_trans hLowest.1 hLess, hLowest.2⟩

/-- The minority receipts of some entries, in order. -/
def minorities (entries : List DrainedEntry) : List (DrainedEntry × ShardExecutionReceipt) :=
  entries.flatMap fun e => e.minorityReceipts.map fun minority => (e, minority)

/-- What `get` gives of the row for a minority receipt. -/
structure Decoded (entry : DrainedEntry) (minority : ShardExecutionReceipt)
    (row : PendingChallenge) : Prop where
  status : row.status = .pending
  minority : row.minorityReceipt = minority
  majority : IsLowest row.majorityReceipt entry.majorityReceipts
  value : row.valueFtnsPerProviderWei = entry.valueFtnsPerProviderWei
  jobId : row.jobId = entry.jobId
  shardIndex : row.shardIndex = entry.shardIndex
  agreedOutputHash : row.agreedOutputHash = entry.agreedOutputHash

/-- The call has returned, with one new row for each minority receipt and no other. -/
structure Enqueued (py : Loader) (entries : List DrainedEntry) (before after : Connection Table)
    (rowIds : List ℕ) : Prop where
  ids : rowIds = List.range' (before.live.rows.length + 1) (minorities entries).length
  kept : after.live.rows.take before.live.rows.length = before.live.rows
  count : after.live.rows.length = before.live.rows.length + (minorities entries).length
  committed : after.durable = after.live
  decoded : ∀ (i : ℕ) entry minority, (minorities entries)[i]? = some (entry, minority) →
    ∃ (rowId : ℕ) (row : PendingChallenge), rowIds[i]? = some rowId ∧
      get py rowId after = some (some row) ∧ Decoded entry minority row

section Claims

variable {py : Loader} {now : ℚ} {c : Connection Table}

theorem find_row {t : Table} {i : ℕ} {r : Row} (h : t.rows[i]? = some r) :
    t.rows.find? (fun r' => r'.rowId = i + 1) = some r := by
  have hNumber : ∀ (j : ℕ) (r' : Row), t.rows[j]? = some r' → r'.rowId = j + 1 := by
    intro j r' hj
    have hId := congrArg (·[j]?) t.numbered
    obtain ⟨hLt, -⟩ := List.getElem?_eq_some_iff.mp hj
    simp only [List.getElem?_map, hj, Option.map_some, List.getElem?_range' hLt] at hId
    have hSame := Option.some.inj hId
    omega
  obtain ⟨hLt, hGet⟩ := List.getElem?_eq_some_iff.mp h
  rw [List.find?_eq_some_iff_getElem]
  refine ⟨by simpa using hNumber i r h, i, hLt, hGet, fun j hj => ?_⟩
  have hBefore := hNumber j t.rows[j] (List.getElem?_eq_getElem (by omega))
  simp only [hBefore, Bool.not_eq_true', decide_eq_false_iff_not]
  omega

theorem minorities_eq (entries : List DrainedEntry)
    (hMajority : ∀ e ∈ entries, e.majorityReceipts ≠ []) :
    minorities entries = (entries.flatMap pairings).map fun p => (p.1, p.2.2) := by
  induction entries with
  | nil => rfl
  | cons entry entries ih =>
      rw [List.forall_mem_cons] at hMajority
      obtain ⟨majority, others, hEntry⟩ := List.exists_cons_of_ne_nil hMajority.1
      have ih := ih hMajority.2
      rw [minorities] at ih
      rw [minorities, List.flatMap_cons, ih, List.flatMap_cons, List.map_append, pairings, hEntry,
        canonicalMajority]
      simp

theorem rowToDataclass_newRow (py : Loader) (now : ℚ) (rowId : ℕ) {entry : DrainedEntry}
    {majority minority : ShardExecutionReceipt} (hMajority : Serialised py majority)
    (hMinority : Serialised py minority) (hLowest : IsLowest majority entry.majorityReceipts) :
    ∃ row, rowToDataclass py (newRow py now rowId entry majority minority) = some row ∧
      Decoded entry minority row := by
  rw [rowToDataclass, newRow, receiptOf_toDict hMajority, receiptOf_toDict hMinority]
  exact ⟨_, rfl, rfl, rfl, hLowest, rfl, rfl, rfl, rfl⟩

/-- Every receipt of the entries has an attestation that can be written and read. -/
def AllSerialised (py : Loader) (entries : List DrainedEntry) : Prop :=
  ∀ e ∈ entries, (∀ r ∈ e.majorityReceipts, Serialised py r) ∧
    ∀ r ∈ e.minorityReceipts, Serialised py r

theorem enqueued_of_acceptable {entries : List DrainedEntry}
    (hMajority : ∀ e ∈ entries, e.majorityReceipts ≠ []) (hReceipts : AllSerialised py entries)
    (hAcceptable : ∀ e ∈ entries, Acceptable e) (c : Connection Table) :
    ∃ rowIds after, enqueueFromDrained py now entries c = (.ok rowIds, after) ∧
      Enqueued py entries c after rowIds := by
  have hLength : (entries.flatMap pairings).length = (minorities entries).length := by
    rw [minorities_eq entries hMajority, List.length_map]
  have hRows := (inserted_rows py now (entries.flatMap pairings) c).1
  refine ⟨_, _, enqueueFromDrained_of_acceptable hAcceptable c,
    ⟨by rw [hLength], ?_, ?_, rfl, ?_⟩⟩
  · rw [Connection.commit_live, hRows, List.take_left]
  · rw [Connection.commit_live, length_inserted, hLength]
  · intro i entry minority hMinority
    rw [minorities_eq entries hMajority, List.getElem?_map, Option.map_eq_some_iff] at hMinority
    obtain ⟨p, hPairing, hSame⟩ := hMinority
    obtain ⟨rfl, rfl⟩ := Prod.mk.inj hSame
    obtain ⟨hLt, -⟩ := List.getElem?_eq_some_iff.mp hPairing
    obtain ⟨e, he, hp⟩ := List.mem_flatMap.mp (List.mem_of_getElem? hPairing)
    obtain ⟨hEntry, hCanonical, hMem⟩ := mem_pairings hp
    rw [← hEntry] at hCanonical hMem he
    have hLowest := isLowest_canonicalMajority hCanonical
    obtain ⟨row, hRow, hDecoded⟩ := rowToDataclass_newRow py now
      (c.live.rows.length + 1 + i) ((hReceipts p.1 he).1 _ hLowest.1)
      ((hReceipts p.1 he).2 _ hMem) hLowest
    refine ⟨c.live.rows.length + i + 1, row, ?_, ?_, hDecoded⟩
    · rw [List.getElem?_range' hLt]
      exact congrArg some (by omega)
    · rw [get, Connection.commit_live, find_row (inserted_row hPairing c), Option.map_some, hRow]

theorem invisible_of_none_inserted {front rest : List DrainedEntry} {entry : DrainedEntry}
    (hFront : ∀ e ∈ front, e.minorityReceipts = []) (hMinority : entry.minorityReceipts ≠ [])
    (hFits : ¬ Fits entry) (hMajority : ∀ e ∈ front ++ entry :: rest, e.majorityReceipts ≠ [])
    (c : Connection Table) :
    Invisible c (enqueueFromDrained py now (front ++ entry :: rest) c) := by
  have hNone : front.flatMap pairings = [] := List.flatMap_eq_nil_iff.mpr fun e he =>
    (pairings_eq_nil (hMajority e (by simp [he]))).mpr (hFront e he)
  rw [enqueueFromDrained_of_not_fits (fun e he hSome => absurd (hFront e he) hSome) hMinority
    hFits (hMajority entry (by simp)), hNone]
  intro e _ later
  refine seen_congr ?_ ?_ later
  · rfl
  · rfl

theorem none_inserted_of_invisible {front rest : List DrainedEntry} {entry : DrainedEntry}
    (hAcceptable : ∀ e ∈ front, Acceptable e) (hMinority : entry.minorityReceipts ≠ [])
    (hFits : ¬ Fits entry) (hMajority : ∀ e ∈ front ++ entry :: rest, e.majorityReceipts ≠ [])
    (h : Invisible c (enqueueFromDrained py now (front ++ entry :: rest) c)) :
    ∀ e ∈ front, e.minorityReceipts = [] := by
  rw [enqueueFromDrained_of_not_fits hAcceptable hMinority hFits
    (hMajority entry (by simp))] at h
  have hSeen : (inserted py now (front.flatMap pairings) c).live.rows.length =
      c.live.rows.length := congrArg (fun t => t.rows.length) (h _ rfl [])
  have hCount := length_inserted py now (front.flatMap pairings) c
  have hNone : front.flatMap pairings = [] := by
    rw [← List.length_eq_zero_iff]
    omega
  intro e he
  exact (pairings_eq_nil (hMajority e (by simp [he]))).mp (List.flatMap_eq_nil_iff.mp hNone e he)

/-- A drain loses no minority receipt exactly when the integers of every entry with a minority
receipt fit; when it raises, it leaves nothing behind exactly when it raises at its first row. -/
theorem enqueueFromDrained_keeps_iff (py : Loader) (now : ℚ) (entries : List DrainedEntry)
    (c : Connection Table) (hMajority : ∀ e ∈ entries, e.majorityReceipts ≠ [])
    (hReceipts : AllSerialised py entries) :
    ((∃ rowIds after, enqueueFromDrained py now entries c = (.ok rowIds, after) ∧
          Enqueued py entries c after rowIds) ∧
        Invisible c (enqueueFromDrained py now entries c) ↔
      ∀ e ∈ entries, Acceptable e) ∧
    (Invisible c (enqueueFromDrained py now entries c) ↔
      (∀ e ∈ entries, Acceptable e) ∨
        ∃ front e rest, entries = front ++ e :: rest ∧
          (∀ x ∈ front, x.minorityReceipts = []) ∧ e.minorityReceipts ≠ [] ∧ ¬ Fits e) := by
  have hReturns : (∀ e ∈ entries, Acceptable e) →
      Invisible c (enqueueFromDrained py now entries c) := by
    intro h e hError
    rw [enqueueFromDrained_of_acceptable h] at hError
    cases hError
  constructor
  · constructor
    · rintro ⟨⟨rowIds, after, hOk, -⟩, -⟩
      rcases acceptable_or_first entries with hAll | ⟨front, e, rest, rfl, hFront, hMinority, hFits⟩
      · exact hAll
      · rw [enqueueFromDrained_of_not_fits hFront hMinority hFits
          (hMajority e (by simp))] at hOk
        cases (Prod.mk.inj hOk).1
    · intro h
      exact ⟨enqueued_of_acceptable hMajority hReceipts h c, hReturns h⟩
  · constructor
    · intro h
      rcases acceptable_or_first entries with hAll | ⟨front, e, rest, rfl, hFront, hMinority, hFits⟩
      · exact Or.inl hAll
      · exact Or.inr ⟨front, e, rest, rfl,
          none_inserted_of_invisible hFront hMinority hFits hMajority h, hMinority, hFits⟩
    · rintro (h | ⟨front, e, rest, rfl, hFront, hMinority, hFits⟩)
      · exact hReturns h
      · exact invisible_of_none_inserted hFront hMinority hFits hMajority c

end Claims

/-! ## Two shards, one at ten FTNS -/

def receiptFrom (providerId outputHash : String) : ShardExecutionReceipt :=
  ⟨"job", 0, providerId, "", outputHash, 1700000000, "", none⟩

/-- One provider against two, at a price in wei. -/
def disputed (wei : ℤ) : DrainedEntry :=
  ⟨"job", 0, "aa", wei, [receiptFrom "p1" "aa", receiptFrom "p2" "aa"], [receiptFrom "p3" "bb"]⟩

def newQueue : Connection Table :=
  Connection.opened ⟨[], rfl⟩

def noFloats : Loader :=
  ⟨fun _ => none, 4⟩

theorem disputed_serialised {wei : ℤ} {r : ShardExecutionReceipt}
    (h : r ∈ (disputed wei).majorityReceipts ++ (disputed wei).minorityReceipts) :
    Serialised noFloats r := by
  have hNone : r.teeAttestation = none := by
    simp only [disputed, List.mem_append, List.mem_cons, List.not_mem_nil, or_false] at h
    rcases h with (rfl | rfl) | rfl <;> rfl
  intro text hText
  rw [hNone] at hText
  cases hText

theorem enqueueFromDrained_one_wei :
    ∃ rowIds after, enqueueFromDrained noFloats 0 [disputed 1] newQueue = (.ok rowIds, after) ∧
      Enqueued noFloats [disputed 1] newQueue after rowIds :=
  ((enqueueFromDrained_keeps_iff noFloats 0 [disputed 1] newQueue
    (List.forall_mem_singleton.mpr (List.cons_ne_nil _ _))
    (List.forall_mem_singleton.mpr
      ⟨fun _ hr => disputed_serialised (List.mem_append_left _ hr),
        fun _ hr => disputed_serialised (List.mem_append_right _ hr)⟩)).1.mpr
    (List.forall_mem_singleton.mpr fun _ => by decide)).1

/-- The second shard costs 10^19 wei: the call raises, and the row of the first shard is seen
at once, and on the disk after the next commit. -/
theorem enqueueFromDrained_ten_ftns :
    (enqueueFromDrained noFloats 0 [disputed 1, disputed (10 ^ 19)] newQueue).1 =
        .error .overflowError ∧
      (seen [] (enqueueFromDrained noFloats 0 [disputed 1, disputed (10 ^ 19)]
        newQueue).2).rows.length = 1 ∧
      (seen [.commit, .reopen] (enqueueFromDrained noFloats 0 [disputed 1, disputed (10 ^ 19)]
        newQueue).2).rows.length = 1 ∧
      ¬ Invisible newQueue
        (enqueueFromDrained noFloats 0 [disputed 1, disputed (10 ^ 19)] newQueue) := by
  refine ⟨by decide +kernel, by decide +kernel, by decide +kernel, fun h => ?_⟩
  have hSeen := congrArg (fun t => t.rows.length) (h .overflowError (by decide +kernel) [])
  exact absurd hSeen (by decide +kernel)

end Prsm.ConsensusQueue.Draining
