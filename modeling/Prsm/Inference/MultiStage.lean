import Prsm.ChainRpc.Codec
import Prsm.Foundations.StableSort
import Prsm.Storage.Sha256

/-!
# Multi-stage attestations

The envelope of the attestations of a chain's stages, its decoder, and
`verify_stage_attestations`, which checks each stage with a registry and against the nodes that
are expected.  Bytes without the prefix of an envelope are taken to be a single attestation, and
expected nodes beyond the stages of the envelope are not looked at, unless as many stages are
expected.  An index that is infinite raises what the decoder does not catch.
-/

namespace Prsm.Inference

open Foundations
open Foundations.Json (field lookup pyEq)
open Wire (Raised Decoder FailsClosed)
open Evm (Bytes)
open ChainRpc (TEEType)

/-! ## The envelope -/

def multiStageMagicPrefix : Bytes := Settlement.utf8 "PRSM-MS-ATT-V1:"

def multiStageAttestationVersion : ℤ := 1

inductive MultiStageAttestationError
  | malformed
  deriving DecidableEq

/-- What comes from outside: SHA-256, `int` of a text, `json.loads` and `str` with what they
raise, and `s.encode()` (`none` where a character has no encoding).  The exception that `Raised`
does not name is the `JSONDecodeError` of `json.loads`. -/
structure MultiStageLibrary where
  sha : Storage.Sha256
  py : Wire.Python
  loads : Bytes → Decoder Unit Json
  str : Json → Decoder Unit String
  encode : String → Option Bytes

structure StageArgs where
  stageIndex : ℤ
  stageNodeId : String
  teeType : TEEType
  attestation : Bytes
  deriving DecidableEq

/-- The fields as `__post_init__` leaves them. -/
structure StageAttestation extends StageArgs where
  index_nonneg : 0 ≤ stageIndex
  node_ne : stageNodeId ≠ ""
  deriving DecidableEq

def malformed {α : Type} : Decoder MultiStageAttestationError α := .error (.protocol .malformed)

section Catching

variable {α : Type}

/-- An exception that is not caught. -/
def uncaught : Raised Unit → Raised MultiStageAttestationError
  | .protocol _ => .protocol .malformed
  | .attributeError => .attributeError
  | .typeError => .typeError
  | .valueError => .valueError
  | .overflowError => .overflowError
  | .unicodeDecodeError => .unicodeDecodeError
  | .recursionError => .recursionError

/-- `except … as exc: raise MultiStageMalformedError`. -/
def catching (caught : Raised Unit → Bool) : Decoder Unit α →
    Decoder MultiStageAttestationError α
  | .ok a => .ok a
  | .error e => if caught e then malformed else .error (uncaught e)

/-- `(json.JSONDecodeError, UnicodeDecodeError)`. -/
def caughtByDecode : Raised Unit → Bool
  | .protocol _ | .unicodeDecodeError => true
  | _ => false

/-- `(KeyError, ValueError, TypeError)`. -/
def caughtByFromDict : Raised Unit → Bool
  | .protocol _ | .valueError | .unicodeDecodeError | .typeError => true
  | _ => false

end Catching

section Decoding

variable (lib : MultiStageLibrary)

/-- `data[key]`, with a `KeyError` where it is missing. -/
def required (fields : List (String × Json)) (key : String) : Decoder Unit Json :=
  match lookup key fields with
  | some x => .ok x
  | none => .error (.protocol ())

def pyStr : Json → Decoder Unit String
  | .str s => .ok s
  | x => lib.str x

/-- `TEEType(x)`. -/
def teeTypeOf : Json → Decoder Unit TEEType
  | .str s =>
      match TEEType.ofText s with
      | some tee => .ok tee
      | none => .error .valueError
  | _ => .error .valueError

/-- `bytes.fromhex(x)`. -/
def bytesFromHex : Json → Decoder Unit Bytes
  | .str s =>
      match Settlement.fromhex s with
      | some bytes => .ok bytes
      | none => .error .valueError
  | _ => .error .typeError

namespace StageAttestation

/-- `__post_init__`. -/
def create (args : StageArgs) : Decoder MultiStageAttestationError StageAttestation :=
  if h : 0 ≤ args.stageIndex ∧ args.stageNodeId ≠ "" then .ok ⟨args, h.1, h.2⟩ else malformed

def parse (fields : List (String × Json)) : Decoder Unit StageArgs := do
  let stageIndex ← Wire.toInt lib.py (← required fields "stage_index")
  let stageNodeId ← pyStr lib (← required fields "stage_node_id")
  let teeType ← teeTypeOf (← required fields "tee_type")
  let attestation ← bytesFromHex (← required fields "attestation_hex")
  return ⟨stageIndex, stageNodeId, teeType, attestation⟩

def fromDict : Json → Decoder MultiStageAttestationError StageAttestation
  | .object fields => do
      let args ← catching caughtByFromDict (parse lib fields)
      create args
  | _ => malformed

end StageAttestation

/-- `[StageAttestation.from_dict(s) for s in raw_stages]`. -/
def readStages : List Json → Decoder MultiStageAttestationError (List StageAttestation)
  | [] => .ok []
  | entry :: rest => do
      let stage ← StageAttestation.fromDict lib entry
      let later ← readStages rest
      return stage :: later

/-- The checks of the stages as a whole; they are returned in the order of their indices. -/
def checkStages (expectedStageCount : Option ℤ) (stages : List StageAttestation) :
    Decoder MultiStageAttestationError (List StageAttestation) :=
  let indices := stages.map (·.stageIndex)
  if ¬ indices.Nodup then malformed
  else if sortBy id indices ≠ (List.range stages.length).map Int.ofNat then malformed
  else if ∃ n ∈ expectedStageCount, n ≠ (stages.length : ℤ) then malformed
  else .ok (sortBy (·.stageIndex) stages)

/-- The entries of the stages, where there is an envelope with some. -/
def rawStages : Json → Option (List Json)
  | .object fields =>
      if pyEq (field fields "version" .null) (.int multiStageAttestationVersion) then
        match field fields "stages" .null with
        | .array (entry :: rest) => some (entry :: rest)
        | _ => none
      else none
  | _ => none

def decodeBody (expectedStageCount : Option ℤ) (body : Bytes) :
    Decoder MultiStageAttestationError (List StageAttestation) := do
  let data ← catching caughtByDecode (lib.loads body)
  match rawStages data with
  | some entries => do
      let stages ← readStages lib entries
      checkStages expectedStageCount stages
  | none => malformed

end Decoding

def isMultiStageAttestation (blob : Bytes) : Bool := multiStageMagicPrefix.isPrefixOf blob

/-- What follows the prefix. -/
def bodyOf (blob : Bytes) : Bytes := blob.drop multiStageMagicPrefix.length

def decodeMultiStageAttestation (lib : MultiStageLibrary) (expectedStageCount : Option ℤ)
    (blob : Bytes) : Decoder MultiStageAttestationError (Option (List StageAttestation)) :=
  if isMultiStageAttestation blob then some <$> decodeBody lib expectedStageCount (bodyOf blob)
  else .ok none

/-! ## Verifying -/

structure StageVerificationResult where
  stageIndex : ℤ
  stageNodeId : String
  teeType : TEEType
  structurallyOk : Bool
  vendorVerified : Option Bool
  isPlaceholder : Bool

/-- What `registry.verify` says of an attestation: whether it is `vendor_verified`, and its
`report_data_hex` in lower case.  It is `none` where an exception is raised. -/
@[reducible] def AttestationRegistry : Type := Bytes → Option (Bool × String)

section Verifying

variable (lib : MultiStageLibrary)

/-- A name that has no encoding raises a `UnicodeEncodeError`. -/
def expectedAttestationReportData (nodeId : String) : Decoder MultiStageAttestationError String :=
  match lib.encode nodeId with
  | some bytes => .ok (lib.sha.hexdigest bytes)
  | none => .error .valueError

/-- `bool(rdh) and rdh[:len(expected_rd)] == expected_rd`. -/
def reportDataBound (expectedRd rdh : String) : Bool :=
  rdh ≠ "" && rdh.toList.take expectedRd.length = expectedRd.toList

/-- `vendor_verified` and the report data; neither where the registry raises. -/
def vendorOutcome (registry : AttestationRegistry) (s : StageAttestation) : Bool × String :=
  (registry s.attestation).getD (false, "")

/-- Whether the node is the one expected at the position. -/
def nodeOk (expectedNodeIds : Option (List String)) (i : ℕ) (s : StageAttestation) : Bool :=
  expectedNodeIds.all fun ids => ids[i]? = some s.stageNodeId

def stageResult (registry : AttestationRegistry) (s : StageAttestation) :
    StageVerificationResult :=
  ⟨s.stageIndex, s.stageNodeId, s.teeType, true, some (vendorOutcome registry s).1, false⟩

/-- The loop over the stages, the first of which is at the position. -/
def verifyEach (registry : AttestationRegistry) (expectedNodeIds : Option (List String)) :
    ℕ → List StageAttestation →
      Decoder MultiStageAttestationError (Bool × List StageVerificationResult)
  | _, [] => .ok (true, [])
  | i, s :: rest => do
      let expectedRd ← expectedAttestationReportData lib s.stageNodeId
      let bound := reportDataBound expectedRd (vendorOutcome registry s).2
      let later ← verifyEach registry expectedNodeIds (i + 1) rest
      return ((vendorOutcome registry s).1 && bound && nodeOk expectedNodeIds i s && later.1,
        stageResult registry s :: later.2)

/-- A result for the whole. -/
def wholeResult (structurallyOk isPlaceholder : Bool) : StageVerificationResult :=
  ⟨-1, "", .software, structurallyOk, none, isPlaceholder⟩

def verifyStageAttestations (registry : Option AttestationRegistry)
    (expectedNodeIds : Option (List String)) (expectedStageCount : Option ℤ) (blob : Bytes) :
    Decoder MultiStageAttestationError (Bool × List StageVerificationResult) :=
  if isMultiStageAttestation blob = false then .ok (true, [wholeResult true true])
  else
    match decodeMultiStageAttestation lib expectedStageCount blob with
    | .error (.protocol _) => .ok (false, [wholeResult false false])
    | .error e => .error e
    | .ok none => .ok (false, [wholeResult false false])
    | .ok (some stages) =>
        match registry with
        | none =>
            .ok (true, stages.map fun s =>
              ⟨s.stageIndex, s.stageNodeId, s.teeType, true, none, false⟩)
        | some registry => verifyEach lib registry expectedNodeIds 0 stages

end Verifying

/-! ## What is let through -/

section Escapes

variable {α β : Type} {caught : Raised Unit → Bool} {lib : MultiStageLibrary}

/-- Whether an exception is raised that is not caught. -/
def escapes (caught : Raised Unit → Bool) : Decoder Unit α → Bool
  | .ok _ => false
  | .error e => !caught e

theorem failsClosed_malformed :
    FailsClosed (malformed : Decoder MultiStageAttestationError α) := by
  rw [malformed, Wire.failsClosed_error]
  exact ⟨.malformed, rfl⟩

theorem failsClosed_catching (hCaught : caught (.protocol ()) = true) {x : Decoder Unit α} :
    FailsClosed (catching caught x) ↔ escapes caught x = false := by
  cases x with
  | ok a => simp [catching, escapes]
  | error e =>
      by_cases hE : caught e = true
      · simp [catching, escapes, hE, failsClosed_malformed]
      · have hOther : ∀ error, uncaught e ≠ .protocol error := by
          intro error hSame
          cases e with
          | protocol own => exact hE hCaught
          | _ => cases hSame
        simp [catching, escapes, hE, hOther]

theorem catching_eq_ok {x : Decoder Unit α} {a : α} : catching caught x = .ok a ↔ x = .ok a := by
  cases x with
  | ok b => simp [catching]
  | error e =>
      by_cases hE : caught e = true <;> simp [catching, hE, malformed]

theorem escapes_bind {x : Decoder Unit α} {f : α → Decoder Unit β} :
    escapes caught (x >>= f) = false ↔
      escapes caught x = false ∧ ∀ a, x = .ok a → escapes caught (f a) = false := by
  cases x with
  | error e =>
      show escapes caught (.error e : Decoder Unit β) = false ↔ _
      simp [escapes]
  | ok a =>
      show escapes caught (f a) = false ↔ _
      simp [escapes]

theorem escapes_pure (a : α) : escapes caught (pure a) = false := rfl

/-- Plus or minus infinity. -/
def infinite : Json → Bool
  | .float x => x.value.isNone && x.text ≠ "nan"
  | _ => false

theorem escapes_toInt (py : Wire.Python) (x : Json) :
    escapes caughtByFromDict (Wire.toInt py x) = infinite x := by
  cases x with
  | float x =>
      simp only [Wire.toInt, Wire.intOfFloat, infinite]
      cases x.value with
      | none => by_cases hNan : x.text = "nan" <;> simp [hNan, escapes, caughtByFromDict]
      | some q => simp [escapes]
  | str s =>
      simp only [Wire.toInt, infinite]
      cases py.intOfText s <;> rfl
  | _ => rfl

theorem escapes_required (fields : List (String × Json)) (key : String) :
    escapes caughtByFromDict (required fields key) = false := by
  unfold required
  cases lookup key fields <;> rfl

theorem required_eq_ok {fields : List (String × Json)} {key : String} {x : Json} :
    required fields key = .ok x ↔ lookup key fields = some x := by
  unfold required
  cases lookup key fields <;> simp

theorem escapes_teeTypeOf (x : Json) : escapes caughtByFromDict (teeTypeOf x) = false := by
  cases x with
  | str s =>
      simp only [teeTypeOf]
      cases TEEType.ofText s <;> rfl
  | _ => rfl

theorem escapes_bytesFromHex (x : Json) : escapes caughtByFromDict (bytesFromHex x) = false := by
  cases x with
  | str s =>
      simp only [bytesFromHex]
      cases Settlement.fromhex s <;> rfl
  | _ => rfl

variable (lib)

/-- What `from_dict` lets through: `int` of an infinite index, and of what `str` raises for the
node what is not caught. -/
def EntryEscapes (fields : List (String × Json)) : Prop :=
  ∃ index, lookup "stage_index" fields = some index ∧
    (infinite index = true ∨ ∃ i node, Wire.toInt lib.py index = (.ok i : Decoder Unit ℤ) ∧
      lookup "stage_node_id" fields = some node ∧
        escapes caughtByFromDict (pyStr lib node) = true)

theorem escapes_parse (fields : List (String × Json)) :
    escapes caughtByFromDict (StageAttestation.parse lib fields) = true ↔
      EntryEscapes lib fields := by
  rw [← not_iff_not, Bool.not_eq_true]
  simp only [StageAttestation.parse, escapes_bind, escapes_required, escapes_toInt, required_eq_ok,
    escapes_teeTypeOf, escapes_bytesFromHex, true_and, EntryEscapes, escapes_pure, implies_true,
    and_true]
  simp only [not_exists, not_and, not_or, Bool.not_eq_true]
  constructor
  · intro h index hIndex
    obtain ⟨hFinite, hNode⟩ := h index hIndex
    exact ⟨hFinite, fun i node hi hMem => hNode i hi node hMem⟩
  · intro h index hIndex
    obtain ⟨hFinite, hNode⟩ := h index hIndex
    exact ⟨hFinite, fun i hi node hMem => hNode i node hi hMem⟩

theorem failsClosed_create (args : StageArgs) : FailsClosed (StageAttestation.create args) := by
  unfold StageAttestation.create
  split_ifs
  · exact Wire.failsClosed_ok _
  · exact failsClosed_malformed

theorem failsClosed_fromDict (entry : Json) :
    FailsClosed (StageAttestation.fromDict lib entry) ↔
      ∀ fields, entry = .object fields → ¬ EntryEscapes lib fields := by
  cases entry with
  | object fields =>
      rw [StageAttestation.fromDict, Wire.failsClosed_bind, failsClosed_catching rfl,
        ← Bool.not_eq_true, escapes_parse]
      simp only [Json.object.injEq, forall_eq', failsClosed_create, implies_true, and_true]
  | _ => simp [StageAttestation.fromDict, failsClosed_malformed]

/-- An entry that escapes where all entries before it are read. -/
def EntriesEscape (entries : List Json) : Prop :=
  ∃ front fields back, entries = front ++ .object fields :: back ∧
    (∀ entry ∈ front, (StageAttestation.fromDict lib entry).isOk = true) ∧ EntryEscapes lib fields

theorem entriesEscape_cons (entry : Json) (rest : List Json) :
    EntriesEscape lib (entry :: rest) ↔ ¬ FailsClosed (StageAttestation.fromDict lib entry) ∨
      (StageAttestation.fromDict lib entry).isOk = true ∧ EntriesEscape lib rest := by
  rw [failsClosed_fromDict]
  constructor
  · rintro ⟨front, fields, back, hSplit, hFront, hEscapes⟩
    cases front with
    | nil =>
        obtain ⟨rfl, rfl⟩ := List.cons.inj hSplit
        exact Or.inl fun h => h fields rfl hEscapes
    | cons first front =>
        obtain ⟨rfl, rfl⟩ := List.cons.inj hSplit
        exact Or.inr ⟨hFront _ List.mem_cons_self, front, fields, back, rfl,
          fun e he => hFront e (List.mem_cons_of_mem _ he), hEscapes⟩
  · rintro (hEntry | ⟨hOk, front, fields, back, rfl, hFront, hEscapes⟩)
    · push Not at hEntry
      obtain ⟨fields, rfl, hEscapes⟩ := hEntry
      exact ⟨[], fields, rest, rfl, fun e he => absurd he List.not_mem_nil, hEscapes⟩
    · refine ⟨entry :: front, fields, back, rfl, ?_, hEscapes⟩
      intro e he
      rcases List.mem_cons.mp he with rfl | hMem
      · exact hOk
      · exact hFront e hMem

theorem failsClosed_readStages (entries : List Json) :
    FailsClosed (readStages lib entries) ↔ ¬ EntriesEscape lib entries := by
  induction entries with
  | nil =>
      rw [readStages]
      simp [EntriesEscape]
  | cons entry rest ih =>
      rw [readStages, Wire.failsClosed_bind, entriesEscape_cons, not_or, not_not]
      refine and_congr_right fun _ => ?_
      cases hRead : StageAttestation.fromDict lib entry with
      | error e => simp [Except.isOk, Except.toBool]
      | ok stage =>
          simp only [Except.ok.injEq, forall_eq', Wire.failsClosed_bind, ih, Wire.failsClosed_pure,
            implies_true, and_true, Except.isOk, Except.toBool, true_and]

theorem failsClosed_checkStages (expectedStageCount : Option ℤ) (stages : List StageAttestation) :
    FailsClosed (checkStages expectedStageCount stages) := by
  unfold checkStages
  simp only
  split_ifs
  · exact failsClosed_malformed
  · exact failsClosed_malformed
  · exact Wire.failsClosed_ok _
  · exact failsClosed_malformed

/-- What `decode_multi_stage_attestation` lets through: an exception of `json.loads`, and that of
an entry. -/
def BodyEscapes (body : Bytes) : Prop :=
  escapes caughtByDecode (lib.loads body) = true ∨
    ∃ data entries, lib.loads body = .ok data ∧ rawStages data = some entries ∧
      EntriesEscape lib entries

theorem failsClosed_decodeBody (expectedStageCount : Option ℤ) (body : Bytes) :
    FailsClosed (decodeBody lib expectedStageCount body) ↔ ¬ BodyEscapes lib body := by
  rw [decodeBody, Wire.failsClosed_bind, failsClosed_catching rfl, BodyEscapes, not_or,
    Bool.not_eq_true]
  refine and_congr_right fun _ => ?_
  simp only [catching_eq_ok, not_exists, not_and]
  constructor
  · intro h data entries hData hEntries
    have hClosed := h data hData
    rw [hEntries] at hClosed
    exact (failsClosed_readStages lib entries).mp (Wire.failsClosed_bind.mp hClosed).1
  · intro h data hData
    cases hEntries : rawStages data with
    | none => exact failsClosed_malformed
    | some entries =>
        exact Wire.failsClosed_bind.mpr ⟨(failsClosed_readStages lib entries).mpr
          (h data entries hData hEntries), fun _ _ => failsClosed_checkStages _ _⟩

end Escapes

/-! ## What is verified -/

section Verified

variable (lib : MultiStageLibrary) (registry : AttestationRegistry) (expectedNodeIds : List String)

/-- The registry verifies the attestation of the stage, and it carries the commitment to its
node. -/
def Attested (s : StageAttestation) : Prop :=
  ∃ rdh node, registry s.attestation = some (true, rdh) ∧ lib.encode s.stageNodeId = some node ∧
    (lib.sha.hexdigest node).toList <+: rdh.toList

/-- One stage for each node that is expected, in order, and each attested. -/
structure Covers (stages : List StageAttestation) : Prop where
  indices : stages.map (·.stageIndex) = (List.range expectedNodeIds.length).map Int.ofNat
  nodes : stages.map (·.stageNodeId) = expectedNodeIds
  attested : ∀ s ∈ stages, Attested lib registry s

/-- With a registry nothing is raised, and all is well only for an envelope that covers the
expected nodes. -/
def VerifyFailsClosed (expectedStageCount : Option ℤ) (blob : Bytes) : Prop :=
  ∃ allOk results, verifyStageAttestations lib (some registry) (some expectedNodeIds)
      expectedStageCount blob = .ok (allOk, results) ∧
    (allOk = true → ∃ stages,
      decodeMultiStageAttestation lib expectedStageCount blob = .ok (some stages) ∧
        Covers lib registry expectedNodeIds stages)

variable {lib registry expectedNodeIds}

theorem reportDataBound_iff {expectedRd rdh : String} (h : expectedRd ≠ "") :
    reportDataBound expectedRd rdh = true ↔ expectedRd.toList <+: rdh.toList := by
  unfold reportDataBound
  simp only [Bool.and_eq_true, decide_eq_true_eq]
  rw [List.prefix_iff_eq_take, String.length_toList, eq_comm (a := expectedRd.toList)]
  constructor
  · exact fun hBound => hBound.2
  · intro hTake
    refine ⟨?_, hTake⟩
    rintro rfl
    apply h
    rw [← String.toList_inj, ← hTake]
    simp

theorem attested_iff {s : StageAttestation} {node : Bytes}
    (hEncode : lib.encode s.stageNodeId = some node) :
    Attested lib registry s ↔ (vendorOutcome registry s).1 = true ∧
      reportDataBound (lib.sha.hexdigest node) (vendorOutcome registry s).2 = true := by
  have hNonempty : lib.sha.hexdigest node ≠ "" := by
    intro hEmpty
    have hLength := Storage.length_hexdigest lib.sha node
    rw [hEmpty] at hLength
    exact absurd hLength (by decide)
  rw [reportDataBound_iff hNonempty]
  unfold vendorOutcome
  constructor
  · rintro ⟨rdh, node', hRegistry, hNode, hBegins⟩
    obtain rfl : node' = node := Option.some.inj (hNode.symm.trans hEncode)
    rw [hRegistry]
    exact ⟨rfl, hBegins⟩
  · rintro ⟨hVerified, hBegins⟩
    cases hRegistry : registry s.attestation with
    | none => simp [hRegistry] at hVerified
    | some outcome =>
        rw [hRegistry] at hVerified hBegins
        refine ⟨outcome.2, node, ?_, hEncode, hBegins⟩
        rw [← show outcome.1 = true from hVerified]
        exact hRegistry

theorem cons_prefix_drop_iff {node : String} {nodes : List String} {i : ℕ} :
    node :: nodes <+: expectedNodeIds.drop i ↔
      expectedNodeIds[i]? = some node ∧ nodes <+: expectedNodeIds.drop (i + 1) := by
  rw [← List.head?_drop, ← List.tail_drop]
  cases expectedNodeIds.drop i with
  | nil => simp
  | cons first rest => simp [List.cons_prefix_cons, eq_comm]

variable (lib registry expectedNodeIds) in
theorem verifyEach_spec (stages : List StageAttestation) (i : ℕ)
    (hEncodes : ∀ s ∈ stages, (lib.encode s.stageNodeId).isSome = true) :
    ∃ allOk results, verifyEach lib registry (some expectedNodeIds) i stages =
        .ok (allOk, results) ∧
      (allOk = true ↔ (∀ s ∈ stages, Attested lib registry s) ∧
        stages.map (·.stageNodeId) <+: expectedNodeIds.drop i) := by
  induction stages generalizing i with
  | nil => exact ⟨true, [], rfl, by simp⟩
  | cons s rest ih =>
      obtain ⟨hNode, hRest⟩ := List.forall_mem_cons.mp hEncodes
      obtain ⟨node, hEncode⟩ := Option.isSome_iff_exists.mp hNode
      obtain ⟨later, results, hLater, hOk⟩ := ih (i + 1) hRest
      refine ⟨(vendorOutcome registry s).1 &&
        reportDataBound (lib.sha.hexdigest node) (vendorOutcome registry s).2 &&
          nodeOk (some expectedNodeIds) i s && later, stageResult registry s :: results, ?_, ?_⟩
      · rw [verifyEach]
        simp only [expectedAttestationReportData, hEncode, hLater, ok_bind]
        rfl
      · rw [List.map_cons, cons_prefix_drop_iff, List.forall_mem_cons, attested_iff hEncode]
        simp only [Bool.and_eq_true, hOk, nodeOk, Option.all_some, decide_eq_true_eq]
        tauto

variable {expectedStageCount : Option ℤ} {stages : List StageAttestation} {blob : Bytes}

theorem checkStages_eq_ok
    {sorted : List StageAttestation}
    (h : checkStages expectedStageCount stages = .ok sorted) :
    sorted.map (·.stageIndex) = (List.range sorted.length).map Int.ofNat ∧
      ∀ n ∈ expectedStageCount, n = (sorted.length : ℤ) := by
  unfold checkStages at h
  by_cases hNodup : (stages.map (·.stageIndex)).Nodup
  · by_cases hRange :
        sortBy id (stages.map (·.stageIndex)) = (List.range stages.length).map Int.ofNat
    · simp only [hNodup, hRange, not_true_eq_false, ne_eq, if_false] at h
      split_ifs at h with hCount
      · cases h
      · obtain rfl := Except.ok.inj h
        have hLength : (sortBy (·.stageIndex) stages).length = stages.length :=
          List.length_insertionSort _ _
        have hMap : (sortBy (·.stageIndex) stages).map (·.stageIndex) =
            sortBy id (stages.map (·.stageIndex)) :=
          List.map_insertionSort _ _ _ stages fun _ _ _ _ => Iff.rfl
        rw [hLength, hMap, hRange]
        refine ⟨rfl, fun n hn => ?_⟩
        by_contra hOther
        exact hCount ⟨n, hn, hOther⟩
    · simp only [hNodup, hRange, not_true_eq_false, not_false_eq_true, ne_eq, if_false,
        if_true] at h
      cases h
  · simp only [hNodup, not_false_eq_true, if_true] at h
    cases h

theorem decode_eq_ok
    (h : decodeMultiStageAttestation lib expectedStageCount blob = .ok (some stages)) :
    stages.map (·.stageIndex) = (List.range stages.length).map Int.ofNat ∧
      ∀ n ∈ expectedStageCount, n = (stages.length : ℤ) := by
  unfold decodeMultiStageAttestation at h
  split_ifs at h
  · obtain ⟨sorted, hBody, hSame⟩ := Wire.map_eq_ok.mp h
    obtain rfl := Option.some.inj hSame
    obtain ⟨data, -, hRest⟩ := bind_eq_ok_iff.mp hBody
    cases hEntries : rawStages data with
    | none =>
        rw [hEntries] at hRest
        cases hRest
    | some entries =>
        rw [hEntries] at hRest
        obtain ⟨unsorted, -, hChecked⟩ := bind_eq_ok_iff.mp hRest
        exact checkStages_eq_ok hChecked
  · cases h

theorem decode_cases (lib : MultiStageLibrary) (expectedStageCount : Option ℤ)
    (h : isMultiStageAttestation blob = true) :
    (∃ stages, decodeMultiStageAttestation lib expectedStageCount blob = .ok (some stages) ∧
      ¬ BodyEscapes lib (bodyOf blob)) ∨
      ∃ e, decodeMultiStageAttestation lib expectedStageCount blob = .error e ∧
        ((∃ own, e = .protocol own) ↔ ¬ BodyEscapes lib (bodyOf blob)) := by
  unfold decodeMultiStageAttestation
  rw [if_pos h, ← failsClosed_decodeBody lib expectedStageCount]
  cases decodeBody lib expectedStageCount (bodyOf blob) with
  | ok stages => exact Or.inl ⟨stages, rfl, Wire.failsClosed_ok stages⟩
  | error e => exact Or.inr ⟨e, rfl, by rw [Wire.failsClosed_error]⟩

theorem verify_of_single
    (h : ¬ isMultiStageAttestation blob = true) :
    ¬ VerifyFailsClosed lib registry expectedNodeIds expectedStageCount blob := by
  rintro ⟨allOk, results, hVerify, hOk⟩
  unfold verifyStageAttestations at hVerify
  rw [if_pos (Bool.not_eq_true _ ▸ h)] at hVerify
  obtain ⟨rfl, -⟩ := Prod.mk.inj (Except.ok.inj hVerify)
  obtain ⟨stages, hDecode, -⟩ := hOk rfl
  unfold decodeMultiStageAttestation at hDecode
  rw [if_neg h] at hDecode
  cases hDecode

theorem verify_decoded (hPrefix : isMultiStageAttestation blob = true)
    (hDecode : decodeMultiStageAttestation lib expectedStageCount blob = .ok (some stages)) :
    verifyStageAttestations lib (some registry) (some expectedNodeIds) expectedStageCount blob =
      verifyEach lib registry (some expectedNodeIds) 0 stages := by
  unfold verifyStageAttestations
  rw [if_neg (by simp [hPrefix]), hDecode]

theorem verify_refused
    {own : MultiStageAttestationError} (hPrefix : isMultiStageAttestation blob = true)
    (hDecode : decodeMultiStageAttestation lib expectedStageCount blob =
      .error (.protocol own)) :
    verifyStageAttestations lib (some registry) (some expectedNodeIds) expectedStageCount blob =
      .ok (false, [wholeResult false false]) := by
  unfold verifyStageAttestations
  rw [if_neg (by simp [hPrefix]), hDecode]

/-- Bytes without the prefix are a single attestation, which no registry is asked about.  With
the prefix nothing is raised where decoding lets nothing through, and all is well exactly for an
envelope with attested stages of the first of the expected nodes, or of all of them where as many
stages are expected. -/
theorem verify_spec (lib : MultiStageLibrary) (registry : AttestationRegistry)
    (expectedNodeIds : List String) (expectedStageCount : Option ℤ) (blob : Bytes) :
    (isMultiStageAttestation blob = false →
      verifyStageAttestations lib (some registry) (some expectedNodeIds) expectedStageCount blob =
        .ok (true, [wholeResult true true])) ∧
    (isMultiStageAttestation blob = true → ¬ BodyEscapes lib (bodyOf blob) →
      (∀ stages, decodeMultiStageAttestation lib expectedStageCount blob = .ok (some stages) →
        ∀ s ∈ stages, (lib.encode s.stageNodeId).isSome = true) →
      ∃ allOk results, verifyStageAttestations lib (some registry) (some expectedNodeIds)
          expectedStageCount blob = .ok (allOk, results) ∧
        (allOk = true ↔ ∃ stages,
          decodeMultiStageAttestation lib expectedStageCount blob = .ok (some stages) ∧
            ∃ covered, covered <+: expectedNodeIds ∧ Covers lib registry covered stages) ∧
        (allOk = true → expectedStageCount = some (expectedNodeIds.length : ℤ) → ∃ stages,
          decodeMultiStageAttestation lib expectedStageCount blob = .ok (some stages) ∧
            Covers lib registry expectedNodeIds stages)) := by
  constructor
  · intro hPrefix
    unfold verifyStageAttestations
    rw [if_pos hPrefix]
  · intro hPrefix hClosed hEncodes
    rcases decode_cases lib expectedStageCount hPrefix with
      ⟨stages, hDecode, -⟩ | ⟨e, hDecode, hOwn⟩
    · obtain ⟨allOk, results, hEach, hOk⟩ := verifyEach_spec lib registry expectedNodeIds stages 0
        (hEncodes stages hDecode)
      obtain ⟨hIndices, hCount⟩ := decode_eq_ok hDecode
      rw [List.drop_zero] at hOk
      refine ⟨allOk, results, ?_, ?_, ?_⟩
      · rw [verify_decoded hPrefix hDecode, hEach]
      · rw [hOk]
        constructor
        · rintro ⟨hAttested, hNodes⟩
          refine ⟨stages, hDecode, _, hNodes, ?_, rfl, hAttested⟩
          rw [List.length_map, hIndices]
        · rintro ⟨stages', hSame, covered, hCovered, hCovers⟩
          obtain rfl := Option.some.inj (Except.ok.inj (hDecode.symm.trans hSame))
          exact ⟨hCovers.attested, hCovers.nodes ▸ hCovered⟩
      · intro hAll hExpected
        obtain ⟨hAttested, hNodes⟩ := hOk.mp hAll
        have hLength : expectedNodeIds.length = stages.length := by
          have hSame := hCount _ hExpected
          omega
        refine ⟨stages, hDecode, ?_, ?_, hAttested⟩
        · rw [hLength, hIndices]
        · exact hNodes.eq_of_length (by rw [List.length_map, hLength])
    · obtain ⟨own, rfl⟩ := hOwn.mpr hClosed
      refine ⟨false, [wholeResult false false], verify_refused hPrefix hDecode, ?_, ?_⟩
      · constructor
        · exact fun hFalse => absurd hFalse (by decide)
        · rintro ⟨stages, hSame, -⟩
          cases hDecode.symm.trans hSame
      · exact fun hFalse => absurd hFalse (by decide)

end Verified

/-! ## An envelope, and bytes without one -/

section Sample

def loadRaised : Wire.LoadError → Raised Unit
  | .jsonDecodeError => .protocol ()
  | .unicodeDecodeError => .unicodeDecodeError
  | .recursionError => .recursionError

def sampleMultiStage : MultiStageLibrary where
  sha := Storage.Sha256.ofTable []
  py := Wire.Sample.python
  loads := fun body => (Wire.Sample.python.loads body).mapError loadRaised
  str := fun x => .ok x.text
  encode := fun s => some (Settlement.utf8 s)

def sampleArgs : StageArgs := ⟨0, "n", .sgx, [7]⟩

def sampleEnvelope : Bytes :=
  multiStageMagicPrefix ++ Settlement.utf8 (Json.object
    [("stages", .array [.object [("attestation_hex", .str "07"), ("stage_index", .int 0),
      ("stage_node_id", .str "n"), ("tee_type", .str "sgx")]]), ("version", .int 1)]).text

def sampleRegistry : AttestationRegistry := fun attestation =>
  if attestation = [7] then
    some (true, sampleMultiStage.sha.hexdigest (Settlement.utf8 "n") ++ "00")
  else none

def sampleStage : StageAttestation := ⟨sampleArgs, le_refl 0, by simp [sampleArgs]⟩

theorem decode_sampleEnvelope :
    decodeMultiStageAttestation sampleMultiStage (some 1) sampleEnvelope =
      .ok (some [sampleStage]) := by
  decide +kernel

theorem covers_sample : Covers sampleMultiStage sampleRegistry ["n"] [sampleStage] where
  indices := rfl
  nodes := rfl
  attested := by
    intro s hs
    obtain rfl := List.mem_singleton.mp hs
    refine ⟨_, _, rfl, rfl, ?_⟩
    rw [String.toList_append]
    exact List.prefix_append _ _

theorem verified_sample :
    ∃ results, verifyStageAttestations sampleMultiStage (some sampleRegistry) (some ["n"])
      (some 1) sampleEnvelope = .ok (true, results) := by
  have hPrefix : isMultiStageAttestation sampleEnvelope = true := by decide +kernel
  have hClosed : ¬ BodyEscapes sampleMultiStage (bodyOf sampleEnvelope) := by
    rcases decode_cases sampleMultiStage (some 1) hPrefix with ⟨-, -, hClosed⟩ | ⟨e, hError, -⟩
    · exact hClosed
    · cases decode_sampleEnvelope.symm.trans hError
  obtain ⟨allOk, results, hVerify, hOk, -⟩ :=
    (verify_spec sampleMultiStage sampleRegistry ["n"] (some 1) sampleEnvelope).2 hPrefix hClosed
      fun stages _ s _ => rfl
  obtain rfl : allOk = true :=
    hOk.mpr ⟨[sampleStage], decode_sampleEnvelope, ["n"], List.prefix_refl _, covers_sample⟩
  exact ⟨results, hVerify⟩

/-- A registry that verifies nothing does not keep bytes without the prefix from being well. -/
theorem single_accepted :
    verifyStageAttestations sampleMultiStage (some fun _ => none) (some ["a"]) none [1, 2, 3] =
        .ok (true, [wholeResult true true]) ∧
      ¬ VerifyFailsClosed sampleMultiStage (fun _ => none) ["a"] none [1, 2, 3] := by
  have hPrefix : ¬ isMultiStageAttestation [1, 2, 3] = true := by decide +kernel
  refine ⟨?_, verify_of_single hPrefix⟩
  unfold verifyStageAttestations
  rw [if_pos (Bool.not_eq_true _ ▸ hPrefix)]

end Sample

end Prsm.Inference
