import Prsm.Foundations.JoinedText
import Prsm.Storage.Sha256
import Prsm.Wire.Bytes
import Prsm.Wire.Indented

/-!
# Entries of the privacy-budget journal

`PrivacyBudgetEntry`, one signed event of the journal: what its constructor checks, the bytes
that are signed, and the text in a file of the journal.  The signed bytes are the fields with
`|` between them and nothing escaped; the constructor refuses that character in the fields
that could contain it.
-/

namespace Prsm.PrivacyBudget

open Foundations
open Wire (Decoder)
open Evm (Bytes)
open Settlement (utf8 hex fromhex)

/-- What the store raises of its own, and an error of the file system. -/
inductive StoreError
  | outOfOrderAppend
  | journalCorruption
  | osError
  deriving DecidableEq

/-- What comes from outside: `json` and `int` (a file is decoded as it is read), `float` of a
text, the sum of floating-point numbers, SHA-256, `path.read_text().strip()` (`none` where the
bytes are no text), and the check of a signature under a base64 Ed25519 key (false where it
raises). -/
structure Library where
  py : Wire.Python
  floatOfText : String → Option PyFloat
  sum : List PyFloat → PyFloat
  add : PyFloat → PyFloat → PyFloat
  sha : Storage.Sha256
  strippedText : Bytes → Option String
  verifySignature : String → Bytes → Bytes → Bool

inductive PrivacyBudgetEntryType
  | spend
  | reset

def PrivacyBudgetEntryType.value : PrivacyBudgetEntryType → String
  | .spend => "spend"
  | .reset => "reset"

def PrivacyBudgetEntryType.ofText (s : String) : Option PrivacyBudgetEntryType :=
  if s = "spend" then some .spend else if s = "reset" then some .reset else none

/-- An instance of `int`, which a truth value is too. -/
inductive PyInt
  | bool (b : Bool)
  | int (n : ℤ)

namespace PyInt

def value : PyInt → ℤ
  | bool b => if b then 1 else 0
  | int n => n

def text : PyInt → String
  | bool true => "True"
  | bool false => "False"
  | int n => toString n

def json : PyInt → Json
  | bool b => .bool b
  | int n => .int n

end PyInt

def entrySchemaVersion : ℤ := 1

def entrySigningDomain : String := "prsm-privacy-budget-entry:v1"

def genesisPrevHash : Bytes := List.replicate 32 0

/-- `'|'` or a line break, which the fields of the signed payload must not contain. -/
def isReserved (c : Char) : Bool := c = '|' || c = '\n'

/-- An entry that has passed `__post_init__`. -/
structure PrivacyBudgetEntry where
  sequenceNumber : PyInt
  entryType : PrivacyBudgetEntryType
  nodeId : String
  epsilon : PyFloat
  operation : String
  modelId : String
  timestamp : PyFloat
  prevEntryHash : Bytes
  schemaVersion : PyInt
  signature : Bytes
  width : prevEntryHash.length = 32
  nonneg : 0 ≤ sequenceNumber.value
  unreserved : ∀ s ∈ [nodeId, operation, modelId], s.toList.any isReserved = false

namespace PrivacyBudgetEntry

/-- The checks of `__post_init__`, of fields that have their types. -/
def create (sequenceNumber : PyInt) (entryType : PrivacyBudgetEntryType) (nodeId : String)
    (epsilon : PyFloat) (operation modelId : String) (timestamp : PyFloat) (prevEntryHash : Bytes)
    (schemaVersion : PyInt) (signature : Bytes) : Decoder StoreError PrivacyBudgetEntry :=
  if hWidth : prevEntryHash.length = 32 then
    if hNonneg : 0 ≤ sequenceNumber.value then
      if hUnreserved : ∀ s ∈ [nodeId, operation, modelId], s.toList.any isReserved = false then
        .ok ⟨sequenceNumber, entryType, nodeId, epsilon, operation, modelId, timestamp,
          prevEntryHash, schemaVersion, signature, hWidth, hNonneg, hUnreserved⟩
      else .error .valueError
    else .error .valueError
  else .error .valueError

variable (e : PrivacyBudgetEntry)

theorem create_self : create e.sequenceNumber e.entryType e.nodeId e.epsilon e.operation e.modelId
    e.timestamp e.prevEntryHash e.schemaVersion e.signature = .ok e := by
  rw [create, dif_pos e.width, dif_pos e.nonneg, dif_pos e.unreserved]

/-- The fields of the signed payload, as they are printed. -/
def signedParts : List String :=
  [entrySigningDomain, e.schemaVersion.text, e.sequenceNumber.text, e.entryType.value, e.nodeId,
    fixedText 10 e.epsilon, e.operation, e.modelId, fixedText 6 e.timestamp, hex e.prevEntryHash]

def signingPayload : Bytes := utf8 (joinedText '|' e.signedParts)

def fields : List (String × Json) :=
  [("sequence_number", e.sequenceNumber.json),
    ("entry_type", .str e.entryType.value),
    ("node_id", .str e.nodeId),
    ("epsilon", .float e.epsilon),
    ("operation", .str e.operation),
    ("model_id", .str e.modelId),
    ("timestamp", .float e.timestamp),
    ("prev_entry_hash", .str (hex e.prevEntryHash)),
    ("schema_version", e.schemaVersion.json),
    ("signature", .str (hex e.signature))]

def toDict : Json := .object e.fields

end PrivacyBudgetEntry

/-! ## Reading an entry -/

section Reading

variable (lib : Library)

/-- Two items that make a key and a value for `dict`. -/
def pairOf : Json → Option (Json × Json)
  | .array [key, value] => some (key, value)
  | .object [(key, _), (key', _)] => some (.str key, .str key')
  | .str s =>
      match s.toList with
      | [c, d] => some (.str (String.singleton c), .str (String.singleton d))
      | _ => none
  | _ => none

/-- The entries of `dict(items)` whose keys are texts, the last one of each key first. -/
def dictOfItems : List Json → List (String × Json) → Decoder StoreError (List (String × Json))
  | [], fields => .ok fields
  | item :: rest, fields =>
      match pairOf item with
      | some (.str key, value) => dictOfItems rest ((key, value) :: fields)
      | some (.array _, _) | some (.object _, _) => .error .typeError
      | some _ => dictOfItems rest fields
      | none => .error .typeError

/-- `dict(data)`. -/
def dictOf : Json → Decoder StoreError (List (String × Json))
  | .object fields => .ok fields
  | .array items => dictOfItems items []
  | .str s => if s = "" then .ok [] else .error .valueError
  | _ => .error .typeError

/-- `int(x)`, unless it is an `int`. -/
def toPyInt : Json → Decoder StoreError PyInt
  | .bool b => .ok (.bool b)
  | .int n => .ok (.int n)
  | x => .int <$> Wire.toInt lib.py x

/-- `float(x)`, unless it is one. -/
def toPyFloat : Json → Decoder StoreError PyFloat
  | .str s =>
      match lib.floatOfText s with
      | some x => .ok x
      | none => .error .valueError
  | x => Wire.toFloat lib.py x

/-- A field that the constructor is called with. -/
def argument (fields : List (String × Json)) (key : String) : Decoder StoreError Json :=
  match Json.lookup key fields with
  | some x => .ok x
  | none => .error .typeError

/-- A field in hexadecimal.  What is no text is left as it is, which `__post_init__` refuses. -/
def bytesArgument : Json → Decoder StoreError Bytes
  | .str s =>
      match fromhex s with
      | some bytes => .ok bytes
      | none => .error .valueError
  | _ => .error .typeError

def typeArgument : Json → Decoder StoreError PrivacyBudgetEntryType
  | .str s =>
      match PrivacyBudgetEntryType.ofText s with
      | some t => .ok t
      | none => .error .valueError
  | _ => .error .valueError

/-- What is no text is refused here, and in the source when the entry is verified. -/
def textArgument : Json → Decoder StoreError String
  | .str s => .ok s
  | _ => .error .typeError

def PrivacyBudgetEntry.fromDict (data : Json) : Decoder StoreError PrivacyBudgetEntry := do
  let d ← dictOf data
  let prevEntryHash ← bytesArgument (← argument d "prev_entry_hash")
  let signature ← bytesArgument (Json.field d "signature" (.str ""))
  let entryType ← typeArgument (← argument d "entry_type")
  let sequenceNumber ← toPyInt lib (← argument d "sequence_number")
  let epsilon ← toPyFloat lib (← argument d "epsilon")
  let timestamp ← toPyFloat lib (← argument d "timestamp")
  let schemaVersion ← toPyInt lib (Json.field d "schema_version" (.int entrySchemaVersion))
  let nodeId ← textArgument (← argument d "node_id")
  let operation ← textArgument (← argument d "operation")
  let modelId ← textArgument (← argument d "model_id")
  create sequenceNumber entryType nodeId epsilon operation modelId timestamp prevEntryHash
    schemaVersion signature

/-- The text of the file that an entry is written to. -/
def PrivacyBudgetEntry.fileText (e : PrivacyBudgetEntry) : Bytes :=
  utf8 (Wire.indentedText e.toDict)

end Reading

/-! ## What a signature covers -/

theorem PyInt.text_bool_ne (b : Bool) (n : ℤ) : (PyInt.bool b).text ≠ (PyInt.int n).text := by
  have hNe := (PyValue.text_ne_toString (x := .bool b) (.inl ⟨b, rfl⟩) n).2
  cases b <;> exact hNe

theorem PyInt.text_injective {n m : PyInt} (h : n.text = m.text) : n = m := by
  cases n with
  | bool b =>
      cases m with
      | bool c => cases b <;> cases c <;> first | rfl | exact absurd h (by decide)
      | int m => exact absurd h (PyInt.text_bool_ne b m)
  | int n =>
      cases m with
      | bool c => exact absurd h.symm (PyInt.text_bool_ne c n)
      | int m =>
          have hSame : n = m := Int.repr_injective (by simpa [PyInt.text] using h)
          rw [hSame]

theorem PyInt.bar_notMem_text (n : PyInt) : '|' ∉ n.text.toList := by
  cases n with
  | bool b => cases b <;> decide
  | int n => exact PyValue.bar_notMem_toString n

theorem PrivacyBudgetEntryType.value_injective {t u : PrivacyBudgetEntryType}
    (h : t.value = u.value) : t = u := by
  cases t <;> cases u <;> first | rfl | exact absurd h (by decide)

/-- Two entries agree in what is signed, numbers as far as they are printed. -/
structure PrivacyBudgetEntry.Printed (e e' : PrivacyBudgetEntry) : Prop where
  schemaVersion : e.schemaVersion = e'.schemaVersion
  sequenceNumber : e.sequenceNumber = e'.sequenceNumber
  entryType : e.entryType = e'.entryType
  nodeId : e.nodeId = e'.nodeId
  epsilon : fixedText 10 e.epsilon = fixedText 10 e'.epsilon
  operation : e.operation = e'.operation
  modelId : e.modelId = e'.modelId
  timestamp : fixedText 6 e.timestamp = fixedText 6 e'.timestamp
  prevEntryHash : e.prevEntryHash = e'.prevEntryHash

theorem bar_notMem_of_unreserved {s : String} (h : s.toList.any isReserved = false) :
    '|' ∉ s.toList := by
  intro hMem
  have hClear := List.any_eq_false.mp h '|' hMem
  exact hClear rfl

theorem bar_notMem_hex (bytes : Bytes) : '|' ∉ (hex bytes).toList := by
  rw [hex, String.toList_ofList]
  exact fun hMem => absurd (Settlement.isHexChar_of_mem_hexChars hMem) (by decide)

theorem bar_notMem_signedParts (e : PrivacyBudgetEntry) :
    ∀ s ∈ e.signedParts, '|' ∉ s.toList := by
  have hText : ∀ s ∈ [e.nodeId, e.operation, e.modelId], '|' ∉ s.toList :=
    fun s hs => bar_notMem_of_unreserved (e.unreserved s hs)
  have hType : '|' ∉ e.entryType.value.toList := by
    cases e.entryType <;> decide
  have hDomain : '|' ∉ entrySigningDomain.toList := by decide
  simp only [PrivacyBudgetEntry.signedParts, List.forall_mem_cons, List.not_mem_nil,
    false_imp_iff, implies_true, and_true] at hText ⊢
  exact ⟨hDomain, PyInt.bar_notMem_text _, PyInt.bar_notMem_text _, hType, hText.1,
    notMem_fixedText rfl, hText.2.1, hText.2.2, notMem_fixedText rfl, bar_notMem_hex _⟩

theorem printed_of_signingPayload {e e' : PrivacyBudgetEntry}
    (h : e.signingPayload = e'.signingPayload) : e.Printed e' := by
  have hParts : e.signedParts = e'.signedParts :=
    joinedText_injective (List.cons_ne_nil _ _) (List.cons_ne_nil _ _) (bar_notMem_signedParts e)
      (bar_notMem_signedParts e') (Settlement.utf8_injective h)
  simp only [PrivacyBudgetEntry.signedParts, List.cons.injEq, and_true, true_and] at hParts
  obtain ⟨hVersion, hSequence, hType, hNode, hEpsilon, hOperation, hModel, hTime, hPrev⟩ := hParts
  exact ⟨PyInt.text_injective hVersion, PyInt.text_injective hSequence,
    PrivacyBudgetEntryType.value_injective hType, hNode, hEpsilon, hOperation, hModel, hTime,
    Storage.hex_injective hPrev⟩

/-! ## Files -/

/-- The numbers of an entry are read back from their texts. -/
structure PrivacyBudgetEntry.Readable (read : String → Option PyFloat) (e : PrivacyBudgetEntry) :
    Prop where
  epsilon : Json.ReadsBack read e.epsilon
  timestamp : Json.ReadsBack read e.timestamp

section Readback

variable {lib : Library} {read : String → Option PyFloat} {e : PrivacyBudgetEntry}

theorem keys_fields (e : PrivacyBudgetEntry) : (e.fields.map Prod.fst).Nodup := by
  simp [PrivacyBudgetEntry.fields]

theorem printable_toDict (h : e.Readable read) : Json.Printable read 4 e.toDict := by
  refine ⟨keys_fields e, ?_⟩
  have hInt : ∀ n : PyInt, Json.Printable read 3 n.json := by
    intro n
    cases n <;> trivial
  simp only [PrivacyBudgetEntry.fields, List.forall_mem_cons, List.not_mem_nil, false_imp_iff,
    implies_true, and_true]
  exact ⟨hInt _, trivial, trivial, h.epsilon, trivial, trivial, h.timestamp, trivial, hInt _,
    trivial⟩

theorem argument_sortedFields {key : String} {v : Json}
    (h : Json.lookup key e.fields = some v) (hLeaf : v.canonical = v) :
    argument (Json.sortedFields e.fields) key = .ok v := by
  rw [argument, Json.lookup_sortedFields (keys_fields e), h, Option.map_some, hLeaf]

theorem field_sortedFields {key : String} {v default : Json}
    (h : Json.lookup key e.fields = some v) (hLeaf : v.canonical = v) :
    Json.field (Json.sortedFields e.fields) key default = v := by
  rw [Json.field, Json.lookup_sortedFields (keys_fields e), h, Option.map_some, hLeaf]
  rfl

@[simp] theorem PyInt.canonical_json (n : PyInt) : n.json.canonical = n.json := by
  cases n <;> rfl

@[simp] theorem toPyInt_json (n : PyInt) : toPyInt lib n.json = .ok n := by
  cases n <;> rfl

@[simp] theorem toPyFloat_float (x : PyFloat) : toPyFloat lib (.float x) = .ok x := rfl

@[simp] theorem typeArgument_value (t : PrivacyBudgetEntryType) :
    typeArgument (.str t.value) = .ok t := by
  cases t <;> rfl

@[simp] theorem bytesArgument_hex (bytes : Bytes) :
    bytesArgument (.str (hex bytes)) = .ok bytes := by
  simp [bytesArgument, Settlement.fromhex_hex]

theorem fromDict_sortedFields (lib : Library) (e : PrivacyBudgetEntry) :
    PrivacyBudgetEntry.fromDict lib (.object (Json.sortedFields e.fields)) = .ok e := by
  have hArgument : ∀ key v, Json.lookup key e.fields = some v → v.canonical = v →
      argument (Json.sortedFields e.fields) key = .ok v :=
    fun _ _ => argument_sortedFields
  have hField : ∀ key v default, Json.lookup key e.fields = some v → v.canonical = v →
      Json.field (Json.sortedFields e.fields) key default = v :=
    fun _ _ _ => field_sortedFields
  rw [PrivacyBudgetEntry.fromDict, dictOf, ok_bind,
    hArgument "prev_entry_hash" (.str (hex e.prevEntryHash)) rfl rfl, ok_bind, bytesArgument_hex,
    ok_bind, hField "signature" (.str (hex e.signature)) _ rfl rfl, bytesArgument_hex, ok_bind,
    hArgument "entry_type" (.str e.entryType.value) rfl rfl, ok_bind, typeArgument_value, ok_bind,
    hArgument "sequence_number" e.sequenceNumber.json rfl (PyInt.canonical_json _), ok_bind,
    toPyInt_json, ok_bind, hArgument "epsilon" (.float e.epsilon) rfl rfl, ok_bind,
    toPyFloat_float, ok_bind, hArgument "timestamp" (.float e.timestamp) rfl rfl, ok_bind,
    toPyFloat_float, ok_bind,
    hField "schema_version" e.schemaVersion.json _ rfl (PyInt.canonical_json _), toPyInt_json,
    ok_bind, hArgument "node_id" (.str e.nodeId) rfl rfl, ok_bind, textArgument, ok_bind,
    hArgument "operation" (.str e.operation) rfl rfl, ok_bind, textArgument, ok_bind,
    hArgument "model_id" (.str e.modelId) rfl rfl, ok_bind, textArgument, ok_bind]
  exact PrivacyBudgetEntry.create_self e

theorem fromDict_fileText (hRead : lib.py.ReadsIndented read) (h : e.Readable read) :
    ∃ data, lib.py.loads e.fileText = .ok data ∧ PrivacyBudgetEntry.fromDict lib data = .ok e := by
  refine ⟨e.toDict.canonical, hRead _ (printable_toDict h), ?_⟩
  exact fromDict_sortedFields lib e

end Readback

end Prsm.PrivacyBudget
