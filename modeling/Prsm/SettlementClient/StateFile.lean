import Prsm.Foundations.CompactJson
import Prsm.SettlementClient.Coherence
import Prsm.Settlement.AddressText

/-!
# The state file

`_serialize_state` writes the client as JSON, record by record, and `_apply_state` reads it.
Bytes are written in hexadecimal, tuples as arrays and the value of a receipt as text.  The
attestation of a receipt is an object; `Attestations` says which one a serialised form stands
for.

The decoders fail where the source raises.  They also fail on a field of another type than
the one that was written, which the source would keep as it is.

Finalisation only adds to the finalized ids, so that a reachable state of the client is one
that a run reaches, with any set of them.
-/

namespace Prsm.SettlementClient.StateFile

open Foundations
open Foundations.Json (field lookup Printable)
open Evm Settlement

/-- `bytes.fromhex`, of 32 bytes. -/
def readHex (s : String) : Option Bytes32 :=
  (fromhex s).bind fun bytes => if bytes.length = 32 then some (toWord bytes) else none

def strOf : Json → Option String
  | .str s => some s
  | _ => none

def intOf : Json → Option Int
  | .int n => some n
  | _ => none

def natOf : Json → Option Nat
  | .int n => if 0 ≤ n then some n.toNat else none
  | _ => none

/-- `int(x)` of a text. -/
def textIntOf (v : Json) : Option Int := (strOf v).bind String.toInt?

def bytesOf (v : Json) : Option Bytes32 := (strOf v).bind readHex

def itemsOf {α : Type} (f : Json → Option α) : Json → Option (List α)
  | .array items => items.mapM f
  | _ => none

/-- `f(d[key])`. -/
def get {α : Type} (d : List (String × Json)) (key : String) (f : Json → Option α) : Option α :=
  (lookup key d).bind f

/-- `d.get(key) or default`. -/
def getOr (d : List (String × Json)) (key : String) (default : Json) : Json :=
  if (field d key .null).truthy then field d key .null else default

def bytesArray (hashes : List Bytes32) : Json := .array (hashes.map fun h => .str (hex h))

def ofDict {κ α : Type} (key : κ → String) (value : α → Json) (d : Dict κ α) : Json :=
  .object (d.entries.map fun entry => (key entry.1, value entry.2))

def dictOf {κ α : Type} [DecidableEq κ] (key : String → Option κ) (value : Json → Option α) :
    Json → Option (Dict κ α)
  | .object fields =>
      (fields.mapM fun (f : String × Json) => do some (← key f.1, ← value f.2)).map Dict.ofEntries
  | _ => none

def fromKeys (ids : List String) : EscrowLedger where
  ids := (Dict.ofEntries (ids.map fun id => (id, ()))).entries.map Prod.fst
  nodup := (Dict.ofEntries (ids.map fun id => (id, ()))).nodup

/-- `TriggerReason.value`. -/
def triggerValue : TriggerReason → String
  | .count => "count"
  | .time => "time"
  | .value => "value"

def triggerOf (v : Json) : Option TriggerReason :=
  (strOf v).bind fun s => [TriggerReason.count, .time, .value].find? fun t => triggerValue t = s

def keyToList (key : AccumulatorKey) : Json :=
  .array [.str key.requesterAddress, .str key.providerAddress, .str (hex key.groupId),
    .int key.slashRateBps]

def keyFromList : Json → Option AccumulatorKey
  | .array [requester, provider, groupHex, slashBps] => do
      some ⟨← strOf requester, ← strOf provider, ← bytesOf groupHex, ← intOf slashBps⟩
  | _ => none

def committedToDict (cb : CommittedBatch) : Json :=
  .object
    [("batch_id", .str (hex cb.batchId)),
      ("tx_hash", .str cb.txHash),
      ("provider_address", .str cb.providerAddress),
      ("requester_address", .str cb.requesterAddress),
      ("merkle_root", .str (hex cb.merkleRoot)),
      ("receipt_count", .int cb.receiptCount),
      ("total_value_ftns", .int cb.totalValueFtns),
      ("commit_timestamp", .int cb.commitTimestamp),
      ("leaf_hashes", bytesArray cb.leafHashes),
      ("trigger_reason", .str (triggerValue cb.triggerReason))]

def committedFromDict : Json → Option CommittedBatch
  | .object d => do
      some
        { batchId := ← get d "batch_id" bytesOf
          txHash := ← get d "tx_hash" strOf
          providerAddress := ← get d "provider_address" strOf
          requesterAddress := ← get d "requester_address" strOf
          merkleRoot := ← get d "merkle_root" bytesOf
          receiptCount := ← get d "receipt_count" natOf
          totalValueFtns := ← get d "total_value_ftns" intOf
          commitTimestamp := ← get d "commit_timestamp" natOf
          leafHashes := ← get d "leaf_hashes" (itemsOf bytesOf)
          triggerReason := ← get d "trigger_reason" triggerOf }
  | _ => none

def pendingToDict (pc : PendingCommit) : Json :=
  .object
    [("accumulator_key", keyToList pc.accumulatorKey),
      ("tx_hash", .str pc.txHash),
      ("merkle_root", .str (hex pc.merkleRoot)),
      ("leaf_hashes", bytesArray pc.leafHashes),
      ("receipt_count", .int pc.receiptCount),
      ("total_value_ftns", .int pc.totalValueFtns),
      ("provider_address", .str pc.providerAddress),
      ("requester_address", .str pc.requesterAddress),
      ("trigger_reason", .str (triggerValue pc.triggerReason))]

def pendingFromDict : Json → Option PendingCommit
  | .object d => do
      some
        { accumulatorKey := ← get d "accumulator_key" keyFromList
          txHash := ← get d "tx_hash" strOf
          merkleRoot := ← get d "merkle_root" bytesOf
          leafHashes := ← get d "leaf_hashes" (itemsOf bytesOf)
          receiptCount := ← get d "receipt_count" natOf
          totalValueFtns := ← get d "total_value_ftns" intOf
          providerAddress := ← get d "provider_address" strOf
          requesterAddress := ← get d "requester_address" strOf
          triggerReason := ← get d "trigger_reason" triggerOf }
  | _ => none

def intentToDict (ci : CommitIntent) : Json :=
  .object
    [("accumulator_key", keyToList ci.accumulatorKey),
      ("merkle_root", .str (hex ci.merkleRoot)),
      ("leaf_hashes", bytesArray ci.leafHashes),
      ("receipt_count", .int ci.receiptCount),
      ("total_value_ftns", .int ci.totalValueFtns),
      ("provider_address", .str ci.providerAddress),
      ("requester_address", .str ci.requesterAddress),
      ("trigger_reason", .str (triggerValue ci.triggerReason))]

def intentFromDict : Json → Option CommitIntent
  | .object d => do
      some
        { accumulatorKey := ← get d "accumulator_key" keyFromList
          merkleRoot := ← get d "merkle_root" bytesOf
          leafHashes := ← get d "leaf_hashes" (itemsOf bytesOf)
          receiptCount := ← get d "receipt_count" natOf
          totalValueFtns := ← get d "total_value_ftns" intOf
          providerAddress := ← get d "provider_address" strOf
          requesterAddress := ← get d "requester_address" strOf
          triggerReason := ← get d "trigger_reason" triggerOf }
  | _ => none

/-! ## Receipts -/

/-- The attestation objects behind their serialised forms, nested no deeper than `depth`. -/
structure Attestations (read : String → Option PyFloat) where
  fields : String → List (String × Json)
  serialised : List (String × Json) → Option String
  depth : ℕ
  serialised_fields : ∀ s, serialised (fields s) = some s
  printable : ∀ s, Printable read (depth + 1) (.object (fields s))

variable {read : String → Option PyFloat} (codec : Attestations read)

def attestationToJson : Option String → Json
  | none => .null
  | some s => .object (codec.fields s)

def attestationOf : Json → Option (Option String)
  | .null => some none
  | .object fields => (codec.serialised fields).map some
  | _ => none

/-- `ShardExecutionReceipt.to_dict`. -/
def shardReceiptToDict (r : ShardExecutionReceipt) : Json :=
  .object
    [("job_id", .str r.jobId),
      ("shard_index", .int r.shardIndex),
      ("provider_id", .str r.providerId),
      ("provider_pubkey_b64", .str r.providerPubkeyB64),
      ("output_hash", .str r.outputHash),
      ("executed_at_unix", .int r.executedAtUnix),
      ("signature", .str r.signature),
      ("tee_attestation", attestationToJson codec r.teeAttestation)]

def shardReceiptFromDict : Json → Option ShardExecutionReceipt
  | .object d => do
      some
        { jobId := ← get d "job_id" strOf
          shardIndex := ← get d "shard_index" intOf
          providerId := ← get d "provider_id" strOf
          providerPubkeyB64 := ← get d "provider_pubkey_b64" strOf
          outputHash := ← get d "output_hash" strOf
          executedAtUnix := ← get d "executed_at_unix" intOf
          signature := ← get d "signature" strOf
          teeAttestation := ← attestationOf codec (field d "tee_attestation" .null) }
  | _ => none

def batchedReceiptToDict (br : BatchedReceipt) : Json :=
  .object
    [("receipt", shardReceiptToDict codec br.receipt),
      ("requester_address", .str br.requesterAddress),
      ("provider_address", .str br.providerAddress),
      ("value_ftns", .str (toString br.valueFtns)),
      ("local_escrow_id", .str br.localEscrowId),
      ("tier_slash_rate_bps", .int br.tierSlashRateBps),
      ("consensus_group_id", .str (hex br.consensusGroupId))]

def batchedReceiptFromDict : Json → Option BatchedReceipt
  | .object d => do
      some
        { receipt := ← get d "receipt" (shardReceiptFromDict codec)
          requesterAddress := ← get d "requester_address" strOf
          providerAddress := ← get d "provider_address" strOf
          valueFtns := ← get d "value_ftns" textIntOf
          localEscrowId := ← get d "local_escrow_id" strOf
          tierSlashRateBps := ← get d "tier_slash_rate_bps" intOf
          consensusGroupId := ← get d "consensus_group_id" bytesOf }
  | _ => none

/-! ## The state -/

/-- The client with the ids it has seen finalized. -/
structure ClientState where
  client : Client
  finalizedIds : Finset Bytes32

/-- One entry of `_serialize_pending`. -/
def entryToDict (entry : PendingEntry) : Json :=
  .object
    [("accumulator_key", keyToList entry.accumulatorKey),
      ("started_at_unix", .int entry.startedAtUnix),
      ("receipts", .array (entry.receipts.map (batchedReceiptToDict codec)))]

def stateFields (s : ClientState) : List (String × Json) :=
  [("version", .int stateVersion),
    ("tracked", ofDict hex committedToDict s.client.tracked),
    ("finalized_ids", .array (((s.finalizedIds.image hex).sort (· ≤ ·)).map .str)),
    ("pending_commits", ofDict id pendingToDict s.client.pendingCommits),
    ("committing", ofDict id intentToDict s.client.committing),
    ("pending_batches", .array ((serializePending s.client.pending).map (entryToDict codec))),
    ("committed_escrow_ids", .array (s.client.committedEscrowIds.ids.map .str))]

def serializeState (s : ClientState) : Json := .object (stateFields codec s)

/-- One round of `_restore_pending`. -/
def restoreEntry (owned : List AccumulatorKey) (pending : Pending) : Json → Option Pending
  | .object d => do
      let key ← get d "accumulator_key" keyFromList
      if key ∈ owned then some pending
      else
        pending.restore key (← get d "receipts" (itemsOf (batchedReceiptFromDict codec)))
          (← get d "started_at_unix" intOf)
  | _ => none

/-- `_restore_pending`. -/
def restoreEntries (owned : List AccumulatorKey) : Json → Option Pending
  | .array entries => entries.foldlM (restoreEntry codec owned) ∅
  | _ => none

/-- `_apply_state`, with `none` where it raises. -/
def applyState : Json → Option ClientState
  | .object d => do
      guard ((field d "version" .null).number = some (stateVersion : ℚ))
      let tracked ← dictOf readHex committedFromDict (getOr d "tracked" (.object []))
      let finalized ← itemsOf bytesOf (getOr d "finalized_ids" (.array []))
      let pendingCommits ← dictOf some pendingFromDict (getOr d "pending_commits" (.object []))
      let committing ← dictOf some intentFromDict (getOr d "committing" (.object []))
      let escrowIds ← itemsOf strOf (getOr d "committed_escrow_ids" (.array []))
      let pending ← restoreEntries codec (intentKeys committing)
        (getOr d "pending_batches" (.array []))
      some
        { client :=
            { pending := pending
              tracked := tracked
              pendingCommits := pendingCommits
              committing := committing
              committedEscrowIds := fromKeys escrowIds }
          finalizedIds := finalized.toFinset }
  | _ => none

/-- The text that `SettlementStateStore.save` writes. -/
def save (s : ClientState) : String := (serializeState codec s).compact

/-- `SettlementStateStore.load` and `_apply_state`. -/
def load (text : String) : Option ClientState :=
  (Json.loadCompact read (codec.depth + 7) text).bind (applyState codec)

/-! ## Values come back -/

theorem readHex_hex (x : Bytes32) : readHex (hex x) = some x := by
  have hDigit : ∀ n < 16, Nat.digitChar n = hexDigit n := by decide
  -- the 64 digits are those of the 32 bytes
  have hSplit : ∀ f : ℕ → Char, (List.range 64).map f =
      (List.range 32).flatMap fun i => [f (2 * i), f (2 * i + 1)] := fun f => rfl
  have hChars : hex x = Settlement.hex (abiWord x.val) := by
    rw [hex, Settlement.hex, hexChars, abiWord, hSplit, List.flatMap_map]
    refine congrArg String.ofList (List.flatMap_congr fun i hi => ?_)
    have hLt : i < 32 := List.mem_range.mp hi
    have hHigh : 16 ^ (63 - 2 * i) = 256 ^ (32 - 1 - i) * 16 := by
      rw [show (256 : ℕ) = 16 ^ 2 by rfl, ← pow_mul, ← pow_succ]
      congr 1
      omega
    have hLow : 16 ^ (63 - (2 * i + 1)) = 256 ^ (32 - 1 - i) := by
      rw [show (256 : ℕ) = 16 ^ 2 by rfl, ← pow_mul]
      congr 1
      omega
    rw [hHigh, hLow, ← Nat.div_div_eq_div_mul, hDigit _ (Nat.mod_lt _ (by decide)),
      hDigit _ (Nat.mod_lt _ (by decide)), Fin.val_ofNat]
    have hByte : ∀ b : ℕ, b / 16 % 16 = b % 2 ^ 8 / 16 ∧ b % 16 = b % 2 ^ 8 % 16 := by omega
    rw [(hByte _).1, (hByte (x.val / _)).2]
  have hWord : toWord (abiWord x.val) = x :=
    Fin.ext ((congrArg (· % 2 ^ 256) (bigEndian_abiWord x.isLt)).trans (Nat.mod_eq_of_lt x.isLt))
  rw [readHex, hChars, fromhex_hex, Option.bind_some, if_pos (length_abiWord _), hWord]

theorem hex_injective : Function.Injective (hex : Bytes32 → String) := fun x y h =>
  Option.some.inj (by rw [← readHex_hex x, h, readHex_hex])

@[simp] theorem bytesOf_hex (x : Bytes32) : bytesOf (.str (hex x)) = some x := readHex_hex x

@[simp] theorem textIntOf_repr (n : Int) : textIntOf (.str n.repr) = some n := Int.toInt?_repr n

@[simp] theorem natOf_int (n : ℕ) : natOf (.int n) = some n := by simp [natOf]

@[simp] theorem triggerOf_triggerValue (t : TriggerReason) :
    triggerOf (.str (triggerValue t)) = some t := by cases t <;> rfl

@[simp] theorem keyFromList_keyToList (key : AccumulatorKey) :
    keyFromList (keyToList key) = some key := by
  simp [keyFromList, keyToList, strOf, intOf]

theorem itemsOf_map {α : Type} {f : Json → Option α} {g : α → Json} {items : List α}
    (h : ∀ x ∈ items, f (g x) = some x) : itemsOf f (.array (items.map g)) = some items := by
  rw [itemsOf, List.mapM_map]
  exact (mapM_eq_some_map h).trans (congrArg some (List.map_id' items))

@[simp] theorem itemsOf_bytesArray (hashes : List Bytes32) :
    itemsOf bytesOf (bytesArray hashes) = some hashes :=
  itemsOf_map fun h _ => bytesOf_hex h

theorem dictOf_ofDict {κ α : Type} [DecidableEq κ] {key : κ → String} {key' : String → Option κ}
    {value : α → Json} {value' : Json → Option α} (hKey : ∀ k, key' (key k) = some k)
    (hValue : ∀ v, value' (value v) = some v) (d : Dict κ α) :
    dictOf key' value' (ofDict key value d) = some d := by
  have hEntries : (d.entries.map fun entry => (key entry.1, value entry.2)).mapM
      (fun f : String × Json => do some (← key' f.1, ← value' f.2)) = some d.entries := by
    rw [List.mapM_map]
    refine (mapM_eq_some_map fun entry _ => ?_).trans (congrArg some (List.map_id' d.entries))
    simp [hKey, hValue]
  rw [ofDict, dictOf, hEntries]
  exact congrArg some (Dict.ext (Dict.entries_ofEntries d.nodup))

theorem ids_fromKeys (ids : List String) (h : ids.Nodup) : (fromKeys ids).ids = ids := by
  have hKeys : (ids.map fun id => (id, ())).map Prod.fst = ids := by simp [Function.comp_def]
  rw [← hKeys] at h
  exact (congrArg (List.map Prod.fst) (Dict.entries_ofEntries h)).trans hKeys

theorem fromKeys_ids (ledger : EscrowLedger) : fromKeys ledger.ids = ledger := by
  have hIds := ids_fromKeys ledger.ids ledger.nodup
  cases hKeys : fromKeys ledger.ids
  cases ledger
  simpa [hKeys] using hIds

/-! ## Records come back -/

@[simp] theorem get_cons {α : Type} (d : List (String × Json)) (key k : String) (v : Json)
    (f : Json → Option α) : get ((k, v) :: d) key f = if k = key then f v else get d key f := by
  by_cases hKey : k = key <;> simp [get, hKey]

theorem committedFromDict_committedToDict (cb : CommittedBatch) :
    committedFromDict (committedToDict cb) = some cb := by
  simp [committedFromDict, committedToDict, strOf, intOf]

theorem pendingFromDict_pendingToDict (pc : PendingCommit) :
    pendingFromDict (pendingToDict pc) = some pc := by
  simp [pendingFromDict, pendingToDict, strOf, intOf]

theorem intentFromDict_intentToDict (ci : CommitIntent) :
    intentFromDict (intentToDict ci) = some ci := by
  simp [intentFromDict, intentToDict, strOf, intOf]

theorem attestationOf_attestationToJson (attestation : Option String) :
    attestationOf codec (attestationToJson codec attestation) = some attestation := by
  cases attestation with
  | none => rfl
  | some s => simp [attestationOf, attestationToJson, codec.serialised_fields]

theorem shardReceiptFromDict_shardReceiptToDict (r : ShardExecutionReceipt) :
    shardReceiptFromDict codec (shardReceiptToDict codec r) = some r := by
  simp [shardReceiptFromDict, shardReceiptToDict, field, strOf, intOf,
    attestationOf_attestationToJson]

theorem batchedReceiptFromDict_batchedReceiptToDict (br : BatchedReceipt) :
    batchedReceiptFromDict codec (batchedReceiptToDict codec br) = some br := by
  simp [batchedReceiptFromDict, batchedReceiptToDict, strOf, intOf,
    shardReceiptFromDict_shardReceiptToDict]

/-! ## The state comes back -/

theorem restoreEntry_entryToDict (owned : List AccumulatorKey) (pending : Pending)
    (entry : PendingEntry) :
    restoreEntry codec owned pending (entryToDict codec entry) =
      if entry.accumulatorKey ∈ owned then some pending
      else pending.restore entry.accumulatorKey entry.receipts entry.startedAtUnix := by
  have hReceipts : itemsOf (batchedReceiptFromDict codec)
      (.array (entry.receipts.map (batchedReceiptToDict codec))) = some entry.receipts :=
    itemsOf_map fun br _ => batchedReceiptFromDict_batchedReceiptToDict codec br
  simp [restoreEntry, entryToDict, hReceipts, intOf]

theorem restoreEntries_map (owned : List AccumulatorKey) (entries : List PendingEntry) :
    restoreEntries codec owned (.array (entries.map (entryToDict codec))) =
      restorePending owned entries := by
  rw [restoreEntries, restorePending, List.foldlM_map]
  simp only [restoreEntry_entryToDict]

theorem getOr_object {d fields : List (String × Json)} {key : String}
    (h : lookup key d = some (.object fields)) : getOr d key (.object []) = .object fields := by
  cases fields <;> simp [getOr, field, h, Json.truthy]

theorem getOr_array {d : List (String × Json)} {key : String} {items : List Json}
    (h : lookup key d = some (.array items)) : getOr d key (.array []) = .array items := by
  cases items <;> simp [getOr, field, h, Json.truthy]

theorem itemsOf_finalized (ids : Finset Bytes32) :
    ∃ xs, itemsOf bytesOf (.array (((ids.image hex).sort (· ≤ ·)).map .str)) = some xs ∧
      xs.toFinset = ids := by
  have hRead : ∀ s ∈ (ids.image hex).sort (· ≤ ·),
      bytesOf (.str s) = some ((readHex s).getD 0) := by
    intro s hs
    obtain ⟨x, -, rfl⟩ := Finset.mem_image.mp ((Finset.mem_sort _).mp hs)
    simp [readHex_hex]
  refine ⟨((ids.image hex).sort (· ≤ ·)).map fun s => (readHex s).getD 0, ?_, ?_⟩
  · rw [itemsOf, List.mapM_map]
    exact mapM_eq_some_map hRead
  · ext x
    simp [readHex_hex]

theorem some_id (s : String) : some (id s) = some s := rfl

theorem applyState_serializeState (s : ClientState) (hPending : AllWellFormed s.client.pending) :
    applyState codec (serializeState codec s) =
      some { s with client := { s.client with pending := s.client.unownedPending } } := by
  obtain ⟨finalized, hFinalized, hSame⟩ := itemsOf_finalized s.finalizedIds
  have hTracked : getOr (stateFields codec s) "tracked" (.object []) =
      ofDict hex committedToDict s.client.tracked := getOr_object (by simp [stateFields, ofDict])
  have hIds : getOr (stateFields codec s) "finalized_ids" (.array []) =
      .array (((s.finalizedIds.image hex).sort (· ≤ ·)).map .str) :=
    getOr_array (by simp [stateFields])
  have hCommits : getOr (stateFields codec s) "pending_commits" (.object []) =
      ofDict id pendingToDict s.client.pendingCommits :=
    getOr_object (by simp [stateFields, ofDict])
  have hCommitting : getOr (stateFields codec s) "committing" (.object []) =
      ofDict id intentToDict s.client.committing := getOr_object (by simp [stateFields, ofDict])
  have hBatches : getOr (stateFields codec s) "pending_batches" (.array []) =
      .array ((serializePending s.client.pending).map (entryToDict codec)) :=
    getOr_array (by simp [stateFields])
  have hEscrowIds : getOr (stateFields codec s) "committed_escrow_ids" (.array []) =
      .array (s.client.committedEscrowIds.ids.map .str) := getOr_array (by simp [stateFields])
  have hVersion : (field (stateFields codec s) "version" .null).number =
      some (stateVersion : ℚ) := by simp [stateFields, field, Json.number]
  have hStrings : itemsOf strOf (.array (s.client.committedEscrowIds.ids.map .str)) =
      some s.client.committedEscrowIds.ids := itemsOf_map fun _ _ => rfl
  rw [serializeState, applyState, hTracked, hIds, hCommits, hCommitting, hBatches, hEscrowIds,
    hVersion, dictOf_ofDict readHex_hex committedFromDict_committedToDict, hFinalized,
    dictOf_ofDict some_id pendingFromDict_pendingToDict,
    dictOf_ofDict some_id intentFromDict_intentToDict, hStrings]
  simp [restoreEntries_map, restorePending_eq _ hPending, hSame, fromKeys_ids,
    Client.unownedPending]

/-! ## The file -/

theorem nodup_keys_ofDict {κ α : Type} {key : κ → String} (hKey : Function.Injective key)
    (value : α → Json) (d : Dict κ α) :
    ((d.entries.map fun entry => (key entry.1, value entry.2)).map Prod.fst).Nodup := by
  have hKeys := d.nodup.map hKey
  rwa [List.map_map] at hKeys ⊢

theorem printable_strings (n : ℕ) (strings : List String) :
    Printable read (n + 1) (.array (strings.map .str)) := by
  simp [Printable]

theorem printable_ofDict {κ α : Type} {key : κ → String} (hKey : Function.Injective key)
    {value : α → Json} {n : ℕ} (hValue : ∀ v, Printable read n (value v)) (d : Dict κ α) :
    Printable read (n + 1) (ofDict key value d) :=
  ⟨nodup_keys_ofDict hKey value d, fun f hf => by
    obtain ⟨entry, -, rfl⟩ := List.mem_map.mp hf
    exact hValue entry.2⟩

theorem printable_committed (n : ℕ) (cb : CommittedBatch) :
    Printable read (n + 2) (committedToDict cb) := by
  simp [committedToDict, Printable, bytesArray]

theorem printable_pending (n : ℕ) (pc : PendingCommit) :
    Printable read (n + 2) (pendingToDict pc) := by
  simp [pendingToDict, Printable, bytesArray, keyToList]

theorem printable_intent (n : ℕ) (ci : CommitIntent) :
    Printable read (n + 2) (intentToDict ci) := by
  simp [intentToDict, Printable, bytesArray, keyToList]

theorem printable_attestation (attestation : Option String) :
    Printable read (codec.depth + 1) (attestationToJson codec attestation) := by
  cases attestation with
  | none => trivial
  | some s => exact codec.printable s

theorem printable_batchedReceipt (br : BatchedReceipt) :
    Printable read (codec.depth + 3) (batchedReceiptToDict codec br) := by
  have hAttestation := printable_attestation codec br.receipt.teeAttestation
  simp [batchedReceiptToDict, shardReceiptToDict, Printable, hAttestation]

theorem printable_entry (entry : PendingEntry) :
    Printable read (codec.depth + 5) (entryToDict codec entry) := by
  have hReceipts : ∀ br ∈ entry.receipts,
      Printable read (codec.depth + 3) (batchedReceiptToDict codec br) :=
    fun br _ => printable_batchedReceipt codec br
  simpa [entryToDict, Printable, keyToList] using hReceipts

theorem printable_state (s : ClientState) :
    Printable read (codec.depth + 7) (serializeState codec s) := by
  have hEntries : ∀ entry ∈ serializePending s.client.pending,
      Printable read (codec.depth + 5) (entryToDict codec entry) :=
    fun entry _ => printable_entry codec entry
  have hTracked : Printable read _ _ := printable_ofDict hex_injective
    (fun cb => printable_committed (codec.depth + 3) cb) s.client.tracked
  have hCommits : Printable read _ _ := printable_ofDict Function.injective_id
    (fun pc => printable_pending (codec.depth + 3) pc) s.client.pendingCommits
  have hCommitting : Printable read _ _ := printable_ofDict Function.injective_id
    (fun ci => printable_intent (codec.depth + 3) ci) s.client.committing
  refine ⟨by simp [stateFields], fun f hf => ?_⟩
  simp only [stateFields, List.mem_cons, List.not_mem_nil, or_false] at hf
  rcases hf with rfl | rfl | rfl | rfl | rfl | rfl | rfl
  · trivial
  · exact hTracked
  · exact printable_strings _ _
  · exact hCommits
  · exact hCommitting
  · simpa [Printable] using hEntries
  · exact printable_strings _ _

theorem load_save (s : ClientState) (hPending : AllWellFormed s.client.pending) :
    load codec (save codec s) =
      some { s with client := { s.client with pending := s.client.unownedPending } } := by
  rw [load, save, Json.loadCompact_compact (printable_state codec s), Option.bind_some,
    applyState_serializeState codec s hPending]

theorem get_quote (s : String) :
    get [("attestation_b64", .str s)] "attestation_b64" strOf = some s := by
  simp [strOf]

theorem printable_quote (s : String) :
    Printable read 1 (.object [("attestation_b64", .str s)]) := by
  simp [Printable]

/-- An attestation that has nothing but its bytes. -/
def quoteAttestations : Attestations read where
  fields := fun s => [("attestation_b64", .str s)]
  serialised := fun fields => get fields "attestation_b64" strOf
  depth := 0
  serialised_fields := get_quote
  printable := printable_quote

end Prsm.SettlementClient.StateFile
