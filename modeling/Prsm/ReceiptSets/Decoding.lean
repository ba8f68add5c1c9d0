import Prsm.Foundations.Dict
import Prsm.Wire.Python

/-!
# Decoding a receipt set

An observer fetches a receipt set from a peer that it does not trust.  `deserialize_receipt_set`
and its enriched variant turn what the decoders of the records raise into `ValueError`, if it is
a `ValueError`, `KeyError`, `TypeError` or `AttributeError`.  `int` of an infinite number and
`float` of a large integer raise `OverflowError`, and `Decimal` of other text `InvalidOperation`.

A decoder is a sequence of conversions of one value each.  Their fates, in the order in which
the source evaluates them, say how the decoder ends: the first one that does not pass decides.
-/

namespace Prsm.ReceiptSets

open Foundations
open Foundations.Json (field lookup)
open Evm (Bytes)
open Settlement (fromhex)

/-! ## Exceptions -/

inductive Raised
  | valueError
  | keyError
  | typeError
  | overflowError
  | invalidOperation

/-- The exceptions that are turned into `ValueError`. -/
def Raised.caught : Raised → Bool
  | .valueError | .keyError | .typeError => true
  | .overflowError | .invalidOperation => false

abbrev Decoder (α : Type) := Except Raised α

abbrev Fields := List (String × Json)

def check (b : Bool) (e : Raised) : Decoder Unit := if b then .ok () else .error e

def orRaise {α : Type} (e : Raised) : Option α → Decoder α
  | some a => .ok a
  | none => .error e

/-- The `except` clauses. -/
def normalized {α : Type} : Decoder α → Decoder α
  | .ok a => .ok a
  | .error e => .error (if e.caught then .valueError else e)

/-- What the decoders use of the language.  `loads` decodes the bytes and parses them; it and
the conversions are `none` where they raise `ValueError`, `decimalOfText` where it raises
`InvalidOperation`. -/
structure Python where
  loads : Bytes → Option Json
  str : Json → Option String
  intOfText : String → Option ℤ
  floatOfText : String → Option PyFloat
  floatOf : ℚ → PyFloat
  decimalOfText : String → Option String

variable (py : Python)

/-- `int(x)`. -/
def toInt : Json → Decoder ℤ
  | .bool b => .ok (if b then 1 else 0)
  | .int n => .ok n
  | .float x =>
      match x.value with
      | some q => .ok (Wire.truncate q)
      | none => .error (if x.text = "nan" then .valueError else .overflowError)
  | .str s => orRaise .valueError (py.intOfText s)
  | _ => .error .typeError

/-- `float(x)`. -/
def toFloat : Json → Decoder PyFloat
  | .bool b => .ok (py.floatOf (if b then 1 else 0))
  | .int n =>
      match double (n : ℚ) with
      | some q => .ok (py.floatOf q)
      | none => .error .overflowError
  | .float x => .ok x
  | .str s => orRaise .valueError (py.floatOfText s)
  | _ => .error .typeError

def toStr (x : Json) : Decoder String := orRaise .valueError (py.str x)

/-- `Decimal(str(x))`. -/
def toDecimal (x : Json) : Decoder String := do
  orRaise .invalidOperation (py.decimalOfText (← toStr py x))

/-- `bytes.fromhex(x)`. -/
def toBytes : Json → Decoder Bytes
  | .str s => orRaise .valueError (fromhex s)
  | _ => .error .typeError

/-- A member of an enumeration of strings. -/
def toMember (values : List String) : Json → Decoder String
  | .str s => orRaise .valueError (values.find? (· = s))
  | _ => .error .valueError

/-- The values that a loop over `x` takes. -/
def iterate : Json → Decoder (List Json)
  | .array items => .ok items
  | .str s => .ok (s.toList.map fun c => .str c.toString)
  | .object d => .ok (d.map fun f => .str f.1)
  | _ => .error .typeError

/-- `x, y, z = entry`. -/
def unpack (entry : Json) : Decoder (Json × Json × Json) := do
  match ← iterate entry with
  | [x, y, z] => .ok (x, y, z)
  | _ => .error .valueError

/-- `x[key]`. -/
def subscript (x : Json) (key : String) : Decoder Json :=
  match x with
  | .object d => orRaise .keyError (lookup key d)
  | _ => .error .typeError

/-- A pair of `dict(pairs)`. -/
def pairOf (item : Json) : Decoder (Json × Json) := do
  match ← iterate item with
  | [key, value] => if key.hashable then .ok (key, value) else .error .typeError
  | _ => .error .valueError

/-- `dict(x)`, without the keys that are no text. -/
def toDict (x : Json) : Decoder Fields :=
  match x with
  | .object d => .ok d
  | x => do
      let pairs ← (← iterate x).mapM pairOf
      let named := pairs.filterMap fun
        | (.str key, value) => some (key, value)
        | _ => none
      .ok (Dict.ofEntries named).entries

/-- `f(x[key])`. -/
def itemOf {α : Type} (x : Json) (key : String) (f : Json → Decoder α) : Decoder α :=
  subscript x key >>= f

/-- `d.get(key, default)`. -/
def getOf (x : Json) (key : String) (default : Json) : Json :=
  match x with
  | .object d => field d key default
  | _ => default

/-! ## Receipts of a batch -/

structure ShardExecutionReceipt where
  jobId : Json
  shardIndex : Json
  providerId : Json
  providerPubkeyB64 : Json
  outputHash : Json
  executedAtUnix : Json
  signature : Json
  teeAttestation : Json

structure BatchedReceipt where
  receipt : ShardExecutionReceipt
  requesterAddress : Json
  providerAddress : Json
  valueFtns : ℤ
  localEscrowId : Json
  tierSlashRateBps : Json
  consensusGroupId : Bytes

structure PublishedBatch where
  batchId : Bytes
  merkleRoot : Bytes
  commitTimestamp : ℤ
  receipts : List BatchedReceipt

def shardReceiptFromDict (d : Json) : Decoder ShardExecutionReceipt := do
  .ok
    { jobId := ← subscript d "job_id"
      shardIndex := ← subscript d "shard_index"
      providerId := ← subscript d "provider_id"
      providerPubkeyB64 := ← subscript d "provider_pubkey_b64"
      outputHash := ← subscript d "output_hash"
      executedAtUnix := ← subscript d "executed_at_unix"
      signature := ← subscript d "signature"
      teeAttestation := getOf d "tee_attestation" .null }

/-- What numbers are compared with. -/
def isNumber : Json → Bool
  | .bool _ | .int _ | .float _ => true
  | _ => false

def postInit (slashRate : Json) (groupId : Bytes) : Decoder Unit := do
  check (isNumber slashRate) .typeError
  check (slashRate.number.any fun q => 0 ≤ q ∧ q ≤ 10000) .valueError
  check (groupId.length = 32) .valueError

def batchedReceiptFromDict (d : Json) : Decoder BatchedReceipt := do
  let receipt ← itemOf d "receipt" shardReceiptFromDict
  let requester ← subscript d "requester_address"
  let provider ← subscript d "provider_address"
  let value ← itemOf d "value_ftns" (toInt py)
  let escrowId ← subscript d "local_escrow_id"
  let slashRate ← subscript d "tier_slash_rate_bps"
  let groupId ← itemOf d "consensus_group_id" toBytes
  postInit slashRate groupId
  .ok ⟨receipt, requester, provider, value, escrowId, slashRate, groupId⟩

def maxReceiptsPerBatch : ℕ := 100000

/-- The list of receipts, within its cap. -/
def receiptItems : Json → Decoder (List Json)
  | .array items => do
      check (items.length ≤ maxReceiptsPerBatch) .valueError
      .ok items
  | _ => .error .valueError

/-- `PublishedBatch.from_dict`. -/
def publishedBatchFromDict (d : Json) : Decoder PublishedBatch := do
  let items ← itemOf d "receipts" receiptItems
  .ok
    { batchId := ← itemOf d "batch_id" toBytes
      merkleRoot := ← itemOf d "merkle_root" toBytes
      commitTimestamp := ← itemOf d "commit_timestamp" (toInt py)
      receipts := ← items.mapM (batchedReceiptFromDict py) }

def maxBlobBytes : ℕ := 32 * 1024 * 1024

/-- The object in the blob. -/
def loadObject (blob : Bytes) : Decoder Fields := do
  check (blob.length ≤ maxBlobBytes) .valueError
  match py.loads blob with
  | some (.object d) => .ok d
  | _ => .error .valueError

def deserializeReceiptSet (blob : Bytes) : Decoder PublishedBatch := do
  let d ← loadObject py blob
  normalized (publishedBatchFromDict py (.object d))

/-! ## Fates -/

/-- How a conversion ends: it passes, it raises an exception that is caught, or another one. -/
inductive Fate
  | passes
  | refused
  | escapes
  deriving DecidableEq

def fate {α : Type} : Decoder α → Fate
  | .ok _ => .passes
  | .error e => if e.caught then .refused else .escapes

/-- The fate of a sequence: that of the first one that does not pass. -/
def verdict : List Fate → Fate
  | [] => .passes
  | .passes :: rest => verdict rest
  | f :: _ => f

/-- The fates, in their order, are those of the decoder's conversions. -/
def Traces {α : Type} (fates : List Fate) (x : Decoder α) : Prop := fate x = verdict fates

section Traces

variable {α β : Type} {x : Decoder α} {f : α → Decoder β} {fates rest : List Fate}

theorem verdict_append (fates rest : List Fate) :
    verdict (fates ++ rest) = if verdict fates = .passes then verdict rest else verdict fates := by
  induction fates with
  | nil => rfl
  | cons f fates ih =>
      cases f with
      | passes => exact ih
      | refused => rfl
      | escapes => rfl

theorem traces_ok (a : α) : Traces [] (.ok a : Decoder α) := rfl

theorem traces_self (x : Decoder α) : Traces [fate x] x := by
  cases h : fate x <;> simp [Traces, verdict, h]

theorem Traces.bind (hx : Traces fates x) (hf : ∀ a, x = .ok a → Traces rest (f a)) :
    Traces (fates ++ rest) (x >>= f) := by
  rw [Traces, verdict_append, ← hx]
  cases x with
  | ok a => exact hf a rfl
  | error e =>
      show fate (.error e : Decoder β) = _
      cases h : e.caught <;> simp [fate, h]

theorem Traces.last {g : α → β} (hx : Traces fates x) :
    Traces fates (x >>= fun a => .ok (g a)) := by
  rw [← List.append_nil fates]
  exact hx.bind fun a _ => traces_ok (g a)

theorem traces_cons (hf : ∀ a, x = .ok a → Traces rest (f a)) :
    Traces (fate x :: rest) (x >>= f) := (traces_self x).bind hf

theorem traces_mapM {items : List α} {g : α → Decoder β} {fatesOf : α → List Fate}
    (h : ∀ a ∈ items, Traces (fatesOf a) (g a)) :
    Traces (items.flatMap fatesOf) (items.mapM g) := by
  induction items with
  | nil => rfl
  | cons a items ih =>
      rw [List.mapM_cons, List.flatMap_cons]
      refine (h a List.mem_cons_self).bind fun b _ => ?_
      exact (ih fun a ha => h a (List.mem_cons_of_mem _ ha)).last

theorem traces_normalized (h : Traces fates x) : Traces fates (normalized x) := by
  rw [Traces, ← h]
  cases x with
  | ok a => rfl
  | error e => cases e <;> rfl

end Traces

/-- The fates where the value is there. -/
def after {α : Type} (x : Decoder α) (fates : α → List Fate) : List Fate :=
  fate x :: match x with
    | .ok a => fates a
    | .error _ => []

theorem traces_after {α β : Type} {x : Decoder α} {f : α → Decoder β} {fates : α → List Fate}
    (h : ∀ a, x = .ok a → Traces (fates a) (f a)) : Traces (after x fates) (x >>= f) := by
  refine traces_cons fun a ha => ?_
  subst ha
  exact h a rfl

/-! ## Inference receipts -/

structure ActivationNoiseTrace where
  perStageEpsilon : List Json
  totalEpsilonSpent : PyFloat
  clipNorm : PyFloat
  stageCount : ℤ
  tier : String

structure TopologyAssignment where
  positions : Dict (ℤ × ℤ) String
  stageCount : ℤ
  slotsPerStage : ℤ

structure PartialCompletionInfo where
  reason : String
  tokensCompleted : ℤ
  tokensRequested : ℤ
  timestamp : String

structure StageActivationProof where
  stageIndex : ℤ
  stageNodeId : String
  inputActivationHash : String
  outputActivationHash : String
  stageSignatureB64 : String
  teeAttestationHash : String

structure StageActivationChain where
  requestId : String
  proofs : List StageActivationProof

structure NodeSignatureMaterial where
  pubkeyB64 : String
  signature : String
  stageIndex : ℤ
  outputHash : String
  executedAtUnix : ℤ
  teeAttestation : Json

/-- The value of a field, as it was or converted. -/
inductive Value
  | json (x : Json)
  | member (s : String)
  | bytes (bytes : Bytes)
  | decimal (s : String)
  | noise (trace : ActivationNoiseTrace)
  | topology (assignment : TopologyAssignment)
  | partialCompletion (info : PartialCompletionInfo)
  | chain (chain : StageActivationChain)
  | signatures (materials : Dict String (Json ⊕ NodeSignatureMaterial))

def noiseTraceFromDict (d : Json) : Decoder ActivationNoiseTrace := do
  let epsilons := getOf d "per_stage_epsilon" .null
  .ok
    { perStageEpsilon := ← iterate (if epsilons.truthy then epsilons else .array [])
      totalEpsilonSpent := ← toFloat py (getOf d "total_epsilon_spent" (.float (py.floatOf 0)))
      clipNorm := ← toFloat py (getOf d "clip_norm" (.float (py.floatOf 1)))
      stageCount := ← toInt py (getOf d "stage_count" (.int 0))
      tier := ← toStr py (getOf d "tier" (.str "")) }

/-- One position; its right-hand side is evaluated first. -/
def positionOf (entry : Json) : Decoder ((ℤ × ℤ) × String) := do
  let (stage, slot, node) ← unpack entry
  let nodeId ← toStr py node
  .ok ((← toInt py stage, ← toInt py slot), nodeId)

def topologyFromDict (d : Json) : Decoder TopologyAssignment := do
  let positions ← (← iterate (getOf d "positions" (.array []))).mapM (positionOf py)
  .ok
    { positions := Dict.ofEntries positions
      stageCount := ← toInt py (getOf d "stage_count" (.int 0))
      slotsPerStage := ← toInt py (getOf d "slots_per_stage" (.int 0)) }

def partialCompletionFromDict (d : Json) : Decoder PartialCompletionInfo := do
  .ok
    { reason := ← itemOf d "reason" (toStr py)
      tokensCompleted := ← itemOf d "tokens_completed" (toInt py)
      tokensRequested := ← itemOf d "tokens_requested" (toInt py)
      timestamp := ← itemOf d "timestamp" (toStr py) }

def stageProofFromDict (d : Json) : Decoder StageActivationProof := do
  .ok
    { stageIndex := ← itemOf d "stage_index" (toInt py)
      stageNodeId := ← itemOf d "stage_node_id" (toStr py)
      inputActivationHash := ← itemOf d "input_activation_hash" (toStr py)
      outputActivationHash := ← itemOf d "output_activation_hash" (toStr py)
      stageSignatureB64 := ← toStr py (getOf d "stage_signature_b64" (.str ""))
      teeAttestationHash := ← toStr py (getOf d "tee_attestation_hash" (.str "")) }

def stageChainFromDict (d : Json) : Decoder StageActivationChain := do
  let requestId ← toStr py (getOf d "request_id" (.str ""))
  let proofs ← (← iterate (getOf d "proofs" (.array []))).mapM (stageProofFromDict py)
  .ok { requestId := requestId, proofs := proofs }

def signatureMaterialFromDict (d : Json) : Decoder NodeSignatureMaterial := do
  .ok
    { pubkeyB64 := ← itemOf d "pubkey_b64" (toStr py)
      signature := ← itemOf d "signature" (toStr py)
      stageIndex := ← itemOf d "stage_index" (toInt py)
      outputHash := ← itemOf d "output_hash" (toStr py)
      executedAtUnix := ← itemOf d "executed_at_unix" (toInt py)
      teeAttestation := getOf d "tee_attestation" .null }

def materialOf (entry : String × Json) : Decoder (String × (Json ⊕ NodeSignatureMaterial)) :=
  match entry.2 with
  | .object d => do .ok (entry.1, .inr (← signatureMaterialFromDict py (.object d)))
  | v => .ok (entry.1, .inl v)

/-! ## Their fates -/

def shardReceiptFates (d : Json) : List Fate :=
  ["job_id", "shard_index", "provider_id", "provider_pubkey_b64", "output_hash",
    "executed_at_unix", "signature"].map fun key => fate (subscript d key)

def batchedReceiptFates (d : Json) : List Fate :=
  after (subscript d "receipt") shardReceiptFates ++
    [fate (subscript d "requester_address"), fate (subscript d "provider_address"),
      fate (itemOf d "value_ftns" (toInt py)), fate (subscript d "local_escrow_id")] ++
    after (subscript d "tier_slash_rate_bps") fun slashRate =>
      after (itemOf d "consensus_group_id" toBytes) fun groupId =>
        [fate (postInit slashRate groupId)]

def publishedBatchFates (d : Json) : List Fate :=
  after (itemOf d "receipts" receiptItems) fun items =>
    [fate (itemOf d "batch_id" toBytes), fate (itemOf d "merkle_root" toBytes),
      fate (itemOf d "commit_timestamp" (toInt py))] ++ items.flatMap (batchedReceiptFates py)

def noiseTraceFates (d : Json) : List Fate :=
  let epsilons := getOf d "per_stage_epsilon" .null
  [fate (iterate (if epsilons.truthy then epsilons else .array [])),
    fate (toFloat py (getOf d "total_epsilon_spent" (.float (py.floatOf 0)))),
    fate (toFloat py (getOf d "clip_norm" (.float (py.floatOf 1)))),
    fate (toInt py (getOf d "stage_count" (.int 0))), fate (toStr py (getOf d "tier" (.str "")))]

def positionFates (entry : Json) : List Fate :=
  after (unpack entry) fun p => [fate (toStr py p.2.2), fate (toInt py p.1), fate (toInt py p.2.1)]

def topologyFates (d : Json) : List Fate :=
  after (iterate (getOf d "positions" (.array []))) fun positions =>
    positions.flatMap (positionFates py) ++
      [fate (toInt py (getOf d "stage_count" (.int 0))),
        fate (toInt py (getOf d "slots_per_stage" (.int 0)))]

def partialCompletionFates (d : Json) : List Fate :=
  [fate (itemOf d "reason" (toStr py)), fate (itemOf d "tokens_completed" (toInt py)),
    fate (itemOf d "tokens_requested" (toInt py)), fate (itemOf d "timestamp" (toStr py))]

def stageProofFates (d : Json) : List Fate :=
  [fate (itemOf d "stage_index" (toInt py)), fate (itemOf d "stage_node_id" (toStr py)),
    fate (itemOf d "input_activation_hash" (toStr py)),
    fate (itemOf d "output_activation_hash" (toStr py)),
    fate (toStr py (getOf d "stage_signature_b64" (.str ""))),
    fate (toStr py (getOf d "tee_attestation_hash" (.str "")))]

def stageChainFates (d : Json) : List Fate :=
  fate (toStr py (getOf d "request_id" (.str ""))) ::
    after (iterate (getOf d "proofs" (.array []))) (·.flatMap (stageProofFates py))

def signatureMaterialFates (d : Json) : List Fate :=
  [fate (itemOf d "pubkey_b64" (toStr py)), fate (itemOf d "signature" (toStr py)),
    fate (itemOf d "stage_index" (toInt py)), fate (itemOf d "output_hash" (toStr py)),
    fate (itemOf d "executed_at_unix" (toInt py))]

def materialFates (entry : String × Json) : List Fate :=
  match entry.2 with
  | .object d => signatureMaterialFates py (.object d)
  | _ => []

section

variable (d : Json)

theorem traces_item {α : Type} {f : Json → Decoder α} {fates : Json → List Fate}
    (h : ∀ v, Traces (fates v) (f v)) (key : String) :
    Traces (after (subscript d key) fates) (itemOf d key f) := traces_after fun v _ => h v

theorem traces_shardReceipt : Traces (shardReceiptFates d) (shardReceiptFromDict d) :=
  traces_cons fun _ _ => traces_cons fun _ _ => traces_cons fun _ _ => traces_cons fun _ _ =>
    traces_cons fun _ _ => traces_cons fun _ _ => (traces_self _).last

theorem traces_batchedReceipt :
    Traces (batchedReceiptFates py d) (batchedReceiptFromDict py d) := by
  rw [batchedReceiptFates, List.append_assoc]
  refine (traces_item d traces_shardReceipt "receipt").bind fun _ _ => traces_cons fun _ _ => ?_
  refine traces_cons fun _ _ => traces_cons fun _ _ => traces_cons fun _ _ => ?_
  exact traces_after fun _ _ => traces_after fun _ _ => (traces_self _).last

theorem traces_publishedBatch : Traces (publishedBatchFates py d) (publishedBatchFromDict py d) :=
  traces_after fun _ _ => traces_cons fun _ _ => traces_cons fun _ _ => traces_cons fun _ _ =>
    (traces_mapM fun r _ => traces_batchedReceipt py r).last

theorem traces_noiseTrace : Traces (noiseTraceFates py d) (noiseTraceFromDict py d) :=
  traces_cons fun _ _ => traces_cons fun _ _ => traces_cons fun _ _ => traces_cons fun _ _ =>
    (traces_self _).last

theorem traces_position : Traces (positionFates py d) (positionOf py d) :=
  traces_after fun _ _ => traces_cons fun _ _ => traces_cons fun _ _ => (traces_self _).last

theorem traces_topology : Traces (topologyFates py d) (topologyFromDict py d) :=
  traces_after fun _ _ => (traces_mapM fun entry _ => traces_position py entry).bind fun _ _ =>
    traces_cons fun _ _ => (traces_self _).last

theorem traces_partialCompletion :
    Traces (partialCompletionFates py d) (partialCompletionFromDict py d) :=
  traces_cons fun _ _ => traces_cons fun _ _ => traces_cons fun _ _ => (traces_self _).last

theorem traces_stageProof : Traces (stageProofFates py d) (stageProofFromDict py d) :=
  traces_cons fun _ _ => traces_cons fun _ _ => traces_cons fun _ _ => traces_cons fun _ _ =>
    traces_cons fun _ _ => (traces_self _).last

theorem traces_stageChain : Traces (stageChainFates py d) (stageChainFromDict py d) :=
  traces_cons fun _ _ => traces_after fun _ _ =>
    (traces_mapM fun p _ => traces_stageProof py p).last

theorem traces_signatureMaterial :
    Traces (signatureMaterialFates py d) (signatureMaterialFromDict py d) :=
  traces_cons fun _ _ => traces_cons fun _ _ => traces_cons fun _ _ => traces_cons fun _ _ =>
    (traces_self _).last

theorem traces_material (entry : String × Json) :
    Traces (materialFates py entry) (materialOf py entry) := by
  obtain ⟨key, v⟩ := entry
  cases v with
  | object d => exact (traces_signatureMaterial py (.object d)).last
  | _ => exact traces_ok _

end

/-! ## The fields of an inference receipt -/

/-- What `from_dict` does with a field: some values are converted, others stay as they are. -/
structure Conversion where
  key : String
  required : Bool
  applies : Json → Bool
  run : Json → Decoder Value
  fates : Json → List Fate
  traces : ∀ v, Traces (fates v) (run v)

namespace Conversion

/-- A conversion of its own. -/
def single {α : Type} (key : String) (required : Bool) (applies : Json → Bool)
    (convert : Json → Decoder α) (wrap : α → Value) : Conversion where
  key := key
  required := required
  applies := applies
  run := fun v => convert v >>= fun a => .ok (wrap a)
  fates := fun v => [fate (convert v)]
  traces := fun v => (traces_self (convert v)).last

def isObject : Json → Bool
  | .object _ => true
  | _ => false

/-- An object that is decoded. -/
def object {α : Type} (key : String) (decode : Json → Decoder α) (fates : Json → List Fate)
    (traces : ∀ v, Traces (fates v) (decode v)) (wrap : α → Value) : Conversion where
  key := key
  required := false
  applies := isObject
  run := fun v => decode v >>= fun a => .ok (wrap a)
  fates := fates
  traces := fun v => (traces v).last

def isText : Json → Bool
  | .str _ => true
  | _ => false

def always : Json → Bool := fun _ => true

def member (key : String) (values : List String) : Conversion :=
  single key true always (toMember values) .member

def hexText (key : String) (required : Bool) : Conversion :=
  single key required isText toBytes .bytes

def raw (key : String) (required : Bool) : Conversion :=
  single key required always (fun v => .ok v) .json

/-- The field of a dictionary with its value, if it is there. -/
def convert (c : Conversion) (d : Fields) : Decoder (Option (String × Value)) :=
  match lookup c.key d with
  | none => .ok none
  | some v =>
      if c.applies v then c.run v >>= fun value => .ok (some (c.key, value))
      else .ok (some (c.key, .json v))

def fatesIn (c : Conversion) (d : Fields) : List Fate :=
  match lookup c.key d with
  | none => []
  | some v => if c.applies v then c.fates v else []

theorem traces_convert (c : Conversion) (d : Fields) : Traces (c.fatesIn d) (c.convert d) := by
  unfold fatesIn convert
  cases lookup c.key d with
  | none => exact traces_ok _
  | some v =>
      by_cases hApplies : c.applies v = true
      · simp only [hApplies, if_true]
        exact (c.traces v).last
      · simp only [hApplies]
        exact traces_ok _

end Conversion

def toBool : Json → Decoder Bool
  | .bool b => .ok b
  | _ => .error .typeError

def signatureEntries : Json → Fields
  | .object d => d
  | _ => []

open Conversion in
/-- The fields, in the order in which they are converted. -/
def receiptFields : List Conversion :=
  [member "content_tier" ["A", "B", "C"],
    member "privacy_tier" ["none", "standard", "high", "maximum"],
    member "tee_type" ["none", "sgx", "tdx", "sev", "trustzone", "secure_enclave", "software"],
    hexText "tee_attestation" true,
    hexText "output_hash" true,
    hexText "settler_signature" false,
    single "cost_ftns" true always (toDecimal py) .decimal,
    single "streamed_output" false always toBool fun b => .json (.bool b),
    object "activation_noise_trace" _ _ (traces_noiseTrace py) .noise,
    object "topology_assignment" _ _ (traces_topology py) .topology,
    object "partial_completion" _ _ (traces_partialCompletion py) .partialCompletion,
    hexText "prompt_hash" false,
    object "stage_activation_chain" _ _ (traces_stageChain py) .chain,
    object "per_stage_settlement_signatures"
      (fun v => (signatureEntries v).mapM (materialOf py))
      (fun v => (signatureEntries v).flatMap (materialFates py))
      (fun _ => traces_mapM fun entry _ => traces_material py entry)
      fun entries => .signatures (Dict.ofEntries entries),
    raw "job_id" true,
    raw "request_id" true,
    raw "model_id" true,
    raw "epsilon_spent" true,
    raw "duration_seconds" true,
    raw "settler_node_id" false,
    raw "settler_pubkey_b64" false]

/-- The fields that were given. -/
abbrev InferenceReceipt := List (String × Value)

/-- The constructor, which misses no required field. -/
def construct (d : Fields) (values : List (Option (String × Value))) : Decoder InferenceReceipt :=
  if (receiptFields py).all fun c => !c.required || (lookup c.key d).isSome then
    .ok (values.filterMap id)
  else .error .typeError

/-- `InferenceReceipt.from_dict`. -/
def inferenceReceiptFromDict (data : Json) : Decoder InferenceReceipt := do
  let d ← toDict data
  let values ← (receiptFields py).mapM fun c => c.convert d
  construct py d values

def inferenceReceiptFates (data : Json) : List Fate :=
  after (toDict data) fun d =>
    (receiptFields py).flatMap (fun c => c.fatesIn d) ++ [fate (construct py d [])]

theorem traces_inferenceReceipt (data : Json) :
    Traces (inferenceReceiptFates py data) (inferenceReceiptFromDict py data) := by
  refine traces_after fun d _ => (traces_mapM fun c _ => c.traces_convert d).bind fun values _ => ?_
  have hSame : fate (construct py d values) = fate (construct py d []) := by
    unfold construct
    split <;> rfl
  rw [← hSame]
  exact traces_self _

/-! ## The enriched set -/

structure RetainedInferenceReceipt where
  leafHash : Bytes
  inferenceReceipt : InferenceReceipt
  settlerPublicKeyB64 : String
  stagePublicKeys : Option Fields
  retainedAt : ℤ

/-- A key that is not empty, of at most `_MAX_PUBKEY_B64_LEN` characters. -/
def toPubkey : Json → Decoder String
  | .str s => if s = "" ∨ 4096 < s.length then .error .valueError else .ok s
  | _ => .error .valueError

def toStageKeys : Json → Decoder (Option Fields)
  | .null => .ok none
  | .object d => .ok (some d)
  | _ => .error .valueError

def retainedFromDict (d : Json) : Decoder RetainedInferenceReceipt := do
  let pubkey ← itemOf d "settler_public_key_b64" toPubkey
  let stageKeys ← toStageKeys (getOf d "stage_public_keys" .null)
  .ok
    { leafHash := ← itemOf d "leaf_hash" toBytes
      inferenceReceipt := ← itemOf d "inference_receipt" (inferenceReceiptFromDict py)
      settlerPublicKeyB64 := pubkey
      stagePublicKeys := stageKeys
      retainedAt := ← itemOf d "retained_at" (toInt py) }

def retainedFates (d : Json) : List Fate :=
  [fate (itemOf d "settler_public_key_b64" toPubkey),
    fate (toStageKeys (getOf d "stage_public_keys" .null)), fate (itemOf d "leaf_hash" toBytes)] ++
    (after (subscript d "inference_receipt") (inferenceReceiptFates py) ++
      [fate (itemOf d "retained_at" (toInt py))])

def maxInferenceReceipts : ℕ := 200000

/-- The entries of the section, which may be missing. -/
def toSection : Json → Decoder Fields
  | .null => .ok []
  | .object d => do
      check (d.length ≤ maxInferenceReceipts) .valueError
      .ok d
  | _ => .error .valueError

def toObject (x : Json) : Decoder Json :=
  if Conversion.isObject x then .ok x else .error .valueError

def sectionEntry (entry : String × Json) : Decoder (Bytes × RetainedInferenceReceipt) := do
  let leafHash ← toBytes (.str entry.1)
  let d ← toObject entry.2
  .ok (leafHash, ← normalized (retainedFromDict py d))

def sectionEntryFates (entry : String × Json) : List Fate :=
  [fate (toBytes (.str entry.1)), fate (toObject entry.2)] ++ retainedFates py entry.2

def deserializeEnrichedReceiptSet (blob : Bytes) :
    Decoder (PublishedBatch × Dict Bytes RetainedInferenceReceipt) := do
  let pb ← deserializeReceiptSet py blob
  let d ← loadObject py blob
  let entries ← (← toSection (field d "inference_receipts" .null)).mapM (sectionEntry py)
  .ok (pb, Dict.ofEntries entries)

def batchFates (blob : Bytes) : List Fate :=
  after (loadObject py blob) fun d => publishedBatchFates py (.object d)

/-- The conversions of a blob, those of the batch first. -/
def blobFates (blob : Bytes) : List Fate :=
  batchFates py blob ++ after (loadObject py blob) fun d =>
    after (toSection (field d "inference_receipts" .null)) (·.flatMap (sectionEntryFates py))

/-! ## Failing closed -/

section Closed

variable {α β : Type} {x : Decoder α} {f : α → Decoder β} {P : α → Prop} {Q : β → Prop}

/-- What is returned has the property. -/
def Returns (P : α → Prop) (x : Decoder α) : Prop := ∀ a, x = .ok a → P a

theorem returns_ok {a : α} (h : P a) : Returns P (.ok a) := by
  intro b hb
  cases hb
  exact h

theorem returns_error {e : Raised} : Returns P (.error e) := by
  intro a ha
  cases ha

theorem Returns.bind (hx : Returns P x) (hf : ∀ a, P a → Returns Q (f a)) :
    Returns Q (x >>= f) := by
  cases x with
  | ok a => exact hf a (hx a rfl)
  | error e => exact returns_error

theorem returns_bind (hf : ∀ a, Returns Q (f a)) : Returns Q (x >>= f) := by
  have hx : Returns (fun _ => True) x := fun _ _ => trivial
  exact hx.bind fun a _ => hf a

theorem returns_check (b : Bool) (e : Raised) : Returns (fun _ => b = true) (check b e) := by
  cases b with
  | true => exact returns_ok rfl
  | false => exact returns_error

theorem returns_mapM (items : List α) (g : α → Decoder β) :
    Returns (fun bs => bs.length = items.length) (items.mapM g) := by
  induction items with
  | nil => exact returns_ok rfl
  | cons a items ih =>
      rw [List.mapM_cons]
      refine returns_bind fun b => ih.bind fun bs hLength => returns_ok ?_
      simp [hLength]

/-- The exceptions that would be caught are `ValueError`s. -/
def Clean (x : Decoder α) : Prop := ∀ e, x = .error e → e.caught = true → e = .valueError

theorem clean_ok (a : α) : Clean (.ok a : Decoder α) := by
  intro e he
  cases he

theorem clean_valueError : Clean (.error .valueError : Decoder α) := by
  intro e he _
  cases he
  rfl

theorem clean_check (b : Bool) : Clean (check b .valueError) := by
  cases b with
  | true => exact clean_ok ()
  | false => exact clean_valueError

theorem clean_normalized (x : Decoder α) : Clean (normalized x) := by
  intro e he hCaught
  cases x with
  | ok a => cases he
  | error raised => cases raised <;> cases he <;> first | rfl | exact absurd hCaught (by decide)

theorem Clean.bind (hx : Clean x) (hf : ∀ a, Clean (f a)) : Clean (x >>= f) := by
  cases x with
  | ok a => exact hf a
  | error e =>
      intro e' he'
      cases he'
      exact hx e rfl

theorem clean_mapM {items : List α} {g : α → Decoder β} (h : ∀ a, Clean (g a)) :
    Clean (items.mapM g) := by
  induction items with
  | nil => exact clean_ok []
  | cons a items ih =>
      rw [List.mapM_cons]
      exact (h a).bind fun b => ih.bind fun bs => clean_ok (b :: bs)

/-- It returns a value with the property or raises `ValueError`. -/
def FailsClosed (P : α → Prop) (x : Decoder α) : Prop :=
  (∃ a, x = .ok a ∧ P a) ∨ x = .error .valueError

theorem failsClosed_iff (hReturns : Returns P x) (hClean : Clean x) :
    FailsClosed P x ↔ fate x ≠ .escapes := by
  cases x with
  | ok a => simpa [FailsClosed, fate] using hReturns a rfl
  | error e =>
      have hCaught := hClean e rfl
      cases e <;> simp_all [FailsClosed, fate, Raised.caught]

end Closed

/-- What `deserialize_receipt_set` may return for a blob. -/
def WithinCaps (blob : Bytes) (pb : PublishedBatch) : Prop :=
  blob.length ≤ maxBlobBytes ∧ pb.receipts.length ≤ maxReceiptsPerBatch

/-- What the enriched variant may return. -/
def EnrichedWithinCaps (blob : Bytes)
    (r : PublishedBatch × Dict Bytes RetainedInferenceReceipt) : Prop :=
  WithinCaps blob r.1 ∧ r.2.entries.length ≤ maxInferenceReceipts

theorem returns_publishedBatch (d : Json) :
    Returns (fun pb : PublishedBatch => pb.receipts.length ≤ maxReceiptsPerBatch)
      (publishedBatchFromDict py d) := by
  have hItems : ∀ v, Returns (fun items => items.length ≤ maxReceiptsPerBatch)
      (receiptItems v) := by
    intro v
    unfold receiptItems
    split
    · exact (returns_check _ _).bind fun _ h => returns_ok (of_decide_eq_true h)
    · exact returns_error
  refine (returns_bind hItems).bind fun items hCount => ?_
  refine returns_bind fun _ => returns_bind fun _ => returns_bind fun _ => ?_
  exact (returns_mapM items _).bind fun receipts hLength => returns_ok (hLength.le.trans hCount)

theorem returns_loadObject (blob : Bytes) :
    Returns (fun _ => blob.length ≤ maxBlobBytes) (loadObject py blob) := by
  refine (returns_check _ _).bind fun _ h d _ => ?_
  exact of_decide_eq_true h

theorem clean_loadObject (blob : Bytes) : Clean (loadObject py blob) := by
  refine (clean_check _).bind fun _ => ?_
  split
  · exact clean_ok _
  · exact clean_valueError

theorem returns_normalized {α : Type} {P : α → Prop} {x : Decoder α} (h : Returns P x) :
    Returns P (normalized x) := by
  cases x with
  | ok a => exact h
  | error e => exact returns_error

theorem returns_deserialize (blob : Bytes) :
    Returns (WithinCaps blob) (deserializeReceiptSet py blob) :=
  (returns_loadObject py blob).bind fun d hSize pb hBatch =>
    ⟨hSize, returns_normalized (returns_publishedBatch py (.object d)) pb hBatch⟩

theorem clean_deserialize (blob : Bytes) : Clean (deserializeReceiptSet py blob) :=
  (clean_loadObject py blob).bind fun _ => clean_normalized _

theorem length_ofEntries_le {κ α : Type} [DecidableEq κ] (entries : List (κ × α)) :
    (Dict.ofEntries entries).entries.length ≤ entries.length := by
  have hKeys : (Dict.ofEntries entries).All fun key _ => key ∈ entries.map Prod.fst :=
    Dict.all_ofEntries fun entry hMem => List.mem_map.mpr ⟨entry, hMem, rfl⟩
  have hSubset : (Dict.ofEntries entries).entries.map Prod.fst ⊆ entries.map Prod.fst := by
    intro key hKey
    obtain ⟨entry, hMem, rfl⟩ := List.mem_map.mp hKey
    exact Dict.all_iff.mp hKeys entry hMem
  simpa using ((Dict.ofEntries entries).nodup.subperm hSubset).length_le

theorem returns_deserializeEnriched (blob : Bytes) :
    Returns (EnrichedWithinCaps blob) (deserializeEnrichedReceiptSet py blob) := by
  refine (returns_deserialize py blob).bind fun pb hBatch => returns_bind fun d => ?_
  have hSection : ∀ v, Returns (fun entries => entries.length ≤ maxInferenceReceipts)
      (toSection v) := by
    intro v
    unfold toSection
    split
    · exact returns_ok (Nat.zero_le _)
    · exact (returns_check _ _).bind fun _ h => returns_ok (of_decide_eq_true h)
    · exact returns_error
  refine (hSection _).bind fun entries hCount => ?_
  refine (returns_mapM entries _).bind fun found hLength => returns_ok ⟨hBatch, ?_⟩
  exact (length_ofEntries_le found).trans (hLength.le.trans hCount)

theorem clean_deserializeEnriched (blob : Bytes) :
    Clean (deserializeEnrichedReceiptSet py blob) := by
  refine (clean_deserialize py blob).bind fun pb => (clean_loadObject py blob).bind fun d => ?_
  have hSection : ∀ v, Clean (toSection v) := by
    intro v
    unfold toSection
    split
    · exact clean_ok _
    · exact (clean_check _).bind fun _ => clean_ok _
    · exact clean_valueError
  have hBytes : ∀ s, Clean (toBytes (.str s)) := by
    intro s
    show Clean (orRaise .valueError (fromhex s))
    cases fromhex s with
    | none => exact clean_valueError
    | some bytes => exact clean_ok bytes
  have hObject : ∀ v, Clean (toObject v) := by
    intro v
    unfold toObject
    split
    · exact clean_ok v
    · exact clean_valueError
  refine (hSection _).bind fun entries => (clean_mapM fun entry => ?_).bind fun _ => clean_ok _
  exact (hBytes _).bind fun _ => (hObject _).bind fun _ =>
    (clean_normalized _).bind fun _ => clean_ok _

theorem traces_deserialize (blob : Bytes) :
    Traces (batchFates py blob) (deserializeReceiptSet py blob) :=
  traces_after fun d _ => traces_normalized (traces_publishedBatch py (.object d))

theorem traces_retained (d : Json) : Traces (retainedFates py d) (retainedFromDict py d) :=
  traces_cons fun _ _ => traces_cons fun _ _ => traces_cons fun _ _ =>
    (traces_item d (traces_inferenceReceipt py) "inference_receipt").bind fun _ _ =>
      (traces_self _).last

theorem traces_sectionEntry (entry : String × Json) :
    Traces (sectionEntryFates py entry) (sectionEntry py entry) := by
  refine traces_cons fun _ _ => traces_cons fun d hObject => ?_
  have hSame : entry.2 = d := by
    unfold toObject at hObject
    split at hObject
    · cases hObject
      rfl
    · cases hObject
  rw [hSame]
  exact (traces_normalized (traces_retained py d)).last

theorem traces_deserializeEnriched (blob : Bytes) :
    Traces (blobFates py blob) (deserializeEnrichedReceiptSet py blob) :=
  (traces_deserialize py blob).bind fun _ _ => traces_after fun _ _ => traces_after fun _ _ =>
    (traces_mapM fun entry _ => traces_sectionEntry py entry).last

/-- Decoding a blob fails closed exactly if the first conversion that fails, in the order of the
source, does not escape. -/
theorem deserialize_failsClosed_iff (blob : Bytes) :
    (FailsClosed (WithinCaps blob) (deserializeReceiptSet py blob) ∧
        FailsClosed (EnrichedWithinCaps blob) (deserializeEnrichedReceiptSet py blob)) ↔
      verdict (blobFates py blob) ≠ .escapes := by
  rw [failsClosed_iff (returns_deserialize py blob) (clean_deserialize py blob),
    failsClosed_iff (returns_deserializeEnriched py blob) (clean_deserializeEnriched py blob),
    traces_deserialize py blob, traces_deserializeEnriched py blob]
  refine ⟨And.right, fun h => ⟨fun hBatch => h ?_, h⟩⟩
  rw [blobFates, verdict_append, if_neg (by simp [hBatch]), hBatch]

/-! ## An infinite timestamp -/

def infinity : PyFloat where
  text := "inf"
  value := none
  marked := by decide
  plain := by decide

def infiniteBlob : Json :=
  .object
    [("batch_id", .str ""), ("commit_timestamp", .float infinity), ("merkle_root", .str ""),
      ("receipts", .array [])]

/-- A language that has parsed the value. -/
def parsed (v : Json) : Python where
  loads := fun _ => some v
  str := fun _ => none
  intOfText := fun _ => none
  floatOfText := fun _ => none
  floatOf := Wire.Sample.floatOf
  decimalOfText := fun _ => none

def infiniteText : String :=
  "\x7b\"batch_id\":\"\",\"commit_timestamp\":Infinity,\"merkle_root\":\"\",\"receipts\":[]\x7d"

theorem infinite_timestamp_escapes :
    ¬(FailsClosed (WithinCaps (Settlement.utf8 infiniteText))
        (deserializeReceiptSet (parsed infiniteBlob) (Settlement.utf8 infiniteText)) ∧
      FailsClosed (EnrichedWithinCaps (Settlement.utf8 infiniteText))
        (deserializeEnrichedReceiptSet (parsed infiniteBlob) (Settlement.utf8 infiniteText))) := by
  rintro ⟨hBatch, -⟩
  refine (failsClosed_iff (returns_deserialize _ _) (clean_deserialize _ _)).mp hBatch ?_
  decide +kernel

end Prsm.ReceiptSets
