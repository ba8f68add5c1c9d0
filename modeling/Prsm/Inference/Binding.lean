import Prsm.ChainRpc.Readback
import Prsm.Inference.SignedStages
import Prsm.Wire.Bytes

/-!
# What a signature on a receipt covers

The signed payload of an `InferenceReceipt` is its fields on lines of their own, with nothing
escaped, and after them a labelled line for each optional field, with the hash of what the field
holds.  Two receipts with one payload agree in the signed fields where their four texts have the
same numbers of lines; without that, a line can pass from one field to the next.  The dimensions
of a topology are not in its hash.
-/

namespace Prsm.Inference

open Foundations
open Foundations.Json (lookup Printable ReadsBack canonical)
open Evm (Bytes)
open Settlement (utf8 hex)
open ChainRpc (ContentTier PrivacyLevel TEEType)

/-! ## The receipt -/

structure ActivationNoiseTrace where
  perStageEpsilon : List PyFloat
  totalEpsilonSpent : PyFloat
  clipNorm : PyFloat
  stageCount : ℤ
  tier : String

namespace ActivationNoiseTrace

def fields (t : ActivationNoiseTrace) : List (String × Json) :=
  [("per_stage_epsilon", .array (t.perStageEpsilon.map .float)),
    ("total_epsilon_spent", .float t.totalEpsilonSpent),
    ("clip_norm", .float t.clipNorm),
    ("stage_count", .int t.stageCount),
    ("tier", .str t.tier)]

def canonicalText (t : ActivationNoiseTrace) : Bytes := utf8 (Json.object t.fields).text

/-- Its numbers are read back from their texts. -/
structure Readable (read : String → Option PyFloat) (t : ActivationNoiseTrace) : Prop where
  perStageEpsilon : ∀ x ∈ t.perStageEpsilon, ReadsBack read x
  totalEpsilonSpent : ReadsBack read t.totalEpsilonSpent
  clipNorm : ReadsBack read t.clipNorm

end ActivationNoiseTrace

structure PartialCompletionInfo where
  reason : String
  tokensCompleted : ℤ
  tokensRequested : ℤ
  timestamp : String

namespace PartialCompletionInfo

def fields (p : PartialCompletionInfo) : List (String × Json) :=
  [("reason", .str p.reason),
    ("tokens_completed", .int p.tokensCompleted),
    ("tokens_requested", .int p.tokensRequested),
    ("timestamp", .str p.timestamp)]

def canonicalText (p : PartialCompletionInfo) : Bytes := utf8 (Json.object p.fields).text

end PartialCompletionInfo

/-- A `Decimal`, by its text, which determines it. -/
@[ext]
structure PyDecimal where
  text : String
  single : text.toList.all (fun c => c ≠ '\n') = true

structure InferenceReceipt where
  jobId : String
  requestId : String
  modelId : String
  contentTier : ContentTier
  privacyTier : PrivacyLevel
  epsilonSpent : PyFloat
  teeType : TEEType
  teeAttestation : Bytes
  outputHash : Bytes
  durationSeconds : PyFloat
  costFtns : PyDecimal
  settlerSignature : Bytes
  settlerNodeId : String
  streamedOutput : Bool
  activationNoiseTrace : Option ActivationNoiseTrace
  topologyAssignment : Option TopologyAssignment
  partialCompletion : Option PartialCompletionInfo
  promptHash : Option Bytes
  stageActivationChain : Option StageActivationChain

namespace InferenceReceipt

variable (lib : Library) (r : InferenceReceipt)

/-- The lines that are always there. -/
def mainLines : List String :=
  [r.jobId, r.requestId, r.modelId, r.contentTier.text, r.privacyTier.text,
    fixedText 10 r.epsilonSpent, r.teeType.text, hex r.teeAttestation, hex r.outputHash,
    fixedText 6 r.durationSeconds, r.costFtns.text, r.settlerNodeId]

/-- The optional lines: their labels, and what they hold where they are there. -/
def optionalItems : List (String × Option String) :=
  [("streamed_output", if r.streamedOutput then some "true" else none),
    ("activation_noise_trace",
      r.activationNoiseTrace.map fun t => lib.sha.hexdigest t.canonicalText),
    ("topology_assignment", r.topologyAssignment.map fun t => t.stableHash lib),
    ("partial_completion", r.partialCompletion.map fun p => lib.sha.hexdigest p.canonicalText),
    ("prompt_hash", r.promptHash.map hex),
    ("stage_activation_chain", r.stageActivationChain.map fun c => c.stableHash lib)]

def signingPayload : Bytes :=
  utf8 (joinedText '\n' (r.mainLines ++ labelledLines (r.optionalItems lib)))

/-- `verify_receipt` with a key. -/
def verifyReceipt (publicKeyB64 : String) : Bool :=
  if r.settlerSignature = [] then false
  else
    lib.verifySignature publicKeyB64 (r.signingPayload lib) (Wire.b64encode r.settlerSignature)

end InferenceReceipt

/-! ## Agreement -/

/-- The same topology: dictionaries are compared whatever the order of their items. -/
structure TopologyAssignment.Same (t t' : TopologyAssignment) : Prop where
  positions : t.positions.Perm t'.positions
  stageCount : t.stageCount = t'.stageCount
  slotsPerStage : t.slotsPerStage = t'.slotsPerStage

/-- The same chain, whatever the order of its proofs. -/
structure StageActivationChain.Same (c c' : StageActivationChain) : Prop where
  requestId : c.requestId = c'.requestId
  proofs : c.proofs.Perm c'.proofs

namespace InferenceReceipt

/-- Two receipts agree in the signed fields, numbers as far as they are printed. -/
structure Agrees (r r' : InferenceReceipt) : Prop where
  jobId : r.jobId = r'.jobId
  requestId : r.requestId = r'.requestId
  modelId : r.modelId = r'.modelId
  contentTier : r.contentTier = r'.contentTier
  privacyTier : r.privacyTier = r'.privacyTier
  epsilonSpent : fixedText 10 r.epsilonSpent = fixedText 10 r'.epsilonSpent
  teeType : r.teeType = r'.teeType
  teeAttestation : r.teeAttestation = r'.teeAttestation
  outputHash : r.outputHash = r'.outputHash
  durationSeconds : fixedText 6 r.durationSeconds = fixedText 6 r'.durationSeconds
  costFtns : r.costFtns = r'.costFtns
  settlerNodeId : r.settlerNodeId = r'.settlerNodeId
  streamedOutput : r.streamedOutput = r'.streamedOutput
  activationNoiseTrace : r.activationNoiseTrace = r'.activationNoiseTrace
  topologyAssignment :
    Option.Rel TopologyAssignment.Same r.topologyAssignment r'.topologyAssignment
  partialCompletion : r.partialCompletion = r'.partialCompletion
  promptHash : r.promptHash = r'.promptHash
  stageActivationChain :
    Option.Rel StageActivationChain.Same r.stageActivationChain r'.stageActivationChain

/-- The texts of the receipts have the same numbers of lines. -/
structure SameLines (r r' : InferenceReceipt) : Prop where
  jobId : (pieces '\n' r.jobId).length = (pieces '\n' r'.jobId).length
  requestId : (pieces '\n' r.requestId).length = (pieces '\n' r'.requestId).length
  modelId : (pieces '\n' r.modelId).length = (pieces '\n' r'.modelId).length
  settlerNodeId : (pieces '\n' r.settlerNodeId).length = (pieces '\n' r'.settlerNodeId).length

/-- The topologies, where both receipts have one, have the same dimensions. -/
def SameDimensions (r r' : InferenceReceipt) : Prop :=
  ∀ t t', r.topologyAssignment = some t → r'.topologyAssignment = some t' →
    t.stageCount = t'.stageCount ∧ t.slotsPerStage = t'.slotsPerStage

/-- The numbers of its trace are read back from their texts. -/
def Readable (read : String → Option PyFloat) (r : InferenceReceipt) : Prop :=
  ∀ t, r.activationNoiseTrace = some t → t.Readable read

/-- What is hashed for the optional lines. -/
def hashed (r : InferenceReceipt) : Set Bytes :=
  { text | text ∈ r.activationNoiseTrace.map ActivationNoiseTrace.canonicalText ∨
      text ∈ r.topologyAssignment.map TopologyAssignment.canonicalText ∨
      text ∈ r.partialCompletion.map PartialCompletionInfo.canonicalText ∨
      text ∈ r.stageActivationChain.map StageActivationChain.canonicalText }

end InferenceReceipt

/-! ## Texts and what they hold -/

section Texts

variable {read : String → Option PyFloat}

theorem lookup_of_canonical_eq {fields fields' : List (String × Json)}
    (hNodup : (fields.map Prod.fst).Nodup) (hNodup' : (fields'.map Prod.fst).Nodup)
    (hSame : canonical (.object fields) = canonical (.object fields')) (key : String) :
    (lookup key fields).map canonical = (lookup key fields').map canonical := by
  rw [Json.canonical_object, Json.canonical_object, Json.object.injEq] at hSame
  rw [← Json.lookup_sortedFields hNodup, ← Json.lookup_sortedFields hNodup', hSame]

theorem PartialCompletionInfo.nodup_fields (p : PartialCompletionInfo) :
    (p.fields.map Prod.fst).Nodup := by
  simp [fields]

theorem PartialCompletionInfo.printable (p : PartialCompletionInfo) :
    Printable (fun _ => none) 4 (.object p.fields) := by
  refine ⟨p.nodup_fields, ?_⟩
  simp [fields, Printable]

theorem PartialCompletionInfo.canonicalText_injective {p p' : PartialCompletionInfo}
    (h : p.canonicalText = p'.canonicalText) : p = p' := by
  have hCanonical := Json.canonical_eq_of_text_eq p.printable p'.printable
    (Settlement.utf8_injective h)
  have hLookup := lookup_of_canonical_eq p.nodup_fields p'.nodup_fields hCanonical
  have hReason := hLookup "reason"
  have hCompleted := hLookup "tokens_completed"
  have hRequested := hLookup "tokens_requested"
  have hTimestamp := hLookup "timestamp"
  simp [fields, lookup, canonical] at hReason hCompleted hRequested hTimestamp
  cases p
  cases p'
  simp_all

theorem ActivationNoiseTrace.nodup_fields (t : ActivationNoiseTrace) :
    (t.fields.map Prod.fst).Nodup := by
  simp [fields]

theorem ActivationNoiseTrace.printable {t : ActivationNoiseTrace} (h : t.Readable read) :
    Printable read 2 (.object t.fields) := by
  refine ⟨t.nodup_fields, ?_⟩
  obtain ⟨hStages, hTotal, hClip⟩ := h
  simp [fields, Printable, hTotal, hClip]
  exact hStages

theorem ActivationNoiseTrace.canonicalText_injective {t t' : ActivationNoiseTrace}
    (hRead : t.Readable read) (hRead' : t'.Readable read)
    (h : t.canonicalText = t'.canonicalText) : t = t' := by
  have hCanonical := Json.canonical_eq_of_text_eq (ActivationNoiseTrace.printable hRead)
    (ActivationNoiseTrace.printable hRead') (Settlement.utf8_injective h)
  have hLookup := lookup_of_canonical_eq t.nodup_fields t'.nodup_fields hCanonical
  have hStages := hLookup "per_stage_epsilon"
  have hTotal := hLookup "total_epsilon_spent"
  have hClip := hLookup "clip_norm"
  have hCount := hLookup "stage_count"
  have hTier := hLookup "tier"
  simp [fields, lookup, canonical, Json.canonicalItems_eq] at hStages hTotal hClip hCount hTier
  have hInjective : Function.Injective (canonical ∘ Json.float) := fun x y hFloat =>
    Json.float.inj hFloat
  have hList := List.map_injective_iff.mpr hInjective hStages
  cases t
  cases t'
  simp_all

theorem TopologyAssignment.positions_of_canonicalText {t t' : TopologyAssignment}
    (h : t.canonicalText = t'.canonicalText) : t.positions.Perm t'.positions := by
  have hPrintable : ∀ positions : List ((ℤ × ℤ) × String), Printable (fun _ => none) 2
      (.array (positions.map fun position =>
        .array [.int position.1.1, .int position.1.2, .str position.2])) := by
    intro positions item hItem
    obtain ⟨position, -, rfl⟩ := List.mem_map.mp hItem
    simp [Printable]
  have hCanonical := Json.canonical_eq_of_text_eq (hPrintable t.sortedPositions)
    (hPrintable t'.sortedPositions) (Settlement.utf8_injective h)
  rw [Json.canonical_array, Json.canonical_array, Json.array.injEq, List.map_map, List.map_map]
    at hCanonical
  have hSorted : t.sortedPositions = t'.sortedPositions := by
    refine List.map_injective_iff.mpr ?_ hCanonical
    intro a b hSame
    simp [canonical, Json.canonicalItems_eq] at hSame
    ext <;> simp [hSame]
  have hPerm : ∀ topology : TopologyAssignment,
      topology.sortedPositions.Perm topology.positions :=
    fun topology => List.perm_insertionSort _ _
  exact (hPerm t).symm.trans (hSorted ▸ hPerm t')

theorem StageActivationProof.nodup_fields (p : StageActivationProof) :
    (p.fields.map Prod.fst).Nodup := by
  unfold fields
  split_ifs <;> simp

theorem StageActivationProof.printable (p : StageActivationProof) :
    Printable (fun _ => none) 1 p.toDict := by
  refine ⟨p.nodup_fields, ?_⟩
  intro field hField
  rcases List.mem_append.mp hField with hFixed | hTee
  · simp only [List.mem_cons, List.not_mem_nil, or_false] at hFixed
    rcases hFixed with rfl | rfl | rfl | rfl | rfl <;> trivial
  · split_ifs at hTee
    · cases hTee
    · obtain rfl := List.mem_singleton.mp hTee
      trivial

theorem StageActivationProof.eq_of_canonical {p p' : StageActivationProof}
    (h : canonical p.toDict = canonical p'.toDict) : p = p' := by
  have hLookup := lookup_of_canonical_eq p.nodup_fields p'.nodup_fields h
  have hIndex := hLookup "stage_index"
  have hNode := hLookup "stage_node_id"
  have hInput := hLookup "input_activation_hash"
  have hOutput := hLookup "output_activation_hash"
  have hSignature := hLookup "stage_signature_b64"
  have hTee := hLookup "tee_attestation_hash"
  simp [fields, lookup, canonical] at hIndex hNode hInput hOutput hSignature hTee
  have hSame : p.teeAttestationHash = p'.teeAttestationHash := by
    split_ifs at hTee with hNone hNone' hNone'
    · rw [hNone, hNone']
    · simp at hTee
    · simp at hTee
    · simpa [lookup, canonical] using hTee
  cases p
  cases p'
  simp_all

theorem StageActivationChain.same_of_canonicalText {c c' : StageActivationChain}
    (h : c.canonicalText = c'.canonicalText) : c.Same c' := by
  have hNodup : ∀ chain : StageActivationChain, (chain.fields.map Prod.fst).Nodup := by
    intro chain
    simp [fields]
  have hPrintable : ∀ chain : StageActivationChain,
      Printable (fun _ => none) 3 (.object chain.fields) := by
    intro chain
    refine ⟨hNodup chain, ?_⟩
    intro field hField
    simp only [fields, List.mem_cons, List.not_mem_nil, or_false] at hField
    rcases hField with rfl | rfl
    · trivial
    · intro item hItem
      obtain ⟨p, -, rfl⟩ := List.mem_map.mp hItem
      exact p.printable
  have hCanonical := Json.canonical_eq_of_text_eq (hPrintable c) (hPrintable c')
    (Settlement.utf8_injective h)
  have hLookup := lookup_of_canonical_eq (hNodup c) (hNodup c') hCanonical
  have hRequest := hLookup "request_id"
  have hProofs := hLookup "proofs"
  simp [fields, lookup, canonical, Json.canonicalItems_eq] at hRequest hProofs
  have hSorted : c.sortedProofs = c'.sortedProofs := by
    refine List.map_injective_iff.mpr ?_ hProofs
    intro p p' hSame
    exact StageActivationProof.eq_of_canonical hSame
  have hPerm : ∀ chain : StageActivationChain, chain.sortedProofs.Perm chain.proofs :=
    fun chain => List.perm_insertionSort _ _
  exact ⟨hRequest, (hPerm c).symm.trans (hSorted ▸ hPerm c')⟩

end Texts

/-! ## Lines -/

section Lines

variable {lib : Library} {r r' : InferenceReceipt}

theorem break_notMem_hex (bytes : Bytes) : '\n' ∉ (hex bytes).toList := by
  rw [hex, String.toList_ofList]
  exact fun hMem => absurd (Settlement.isHexChar_of_mem_hexChars hMem) (by decide)

theorem PyDecimal.break_notMem (d : PyDecimal) : '\n' ∉ d.text.toList := by
  intro hMem
  have hSingle := List.all_eq_true.mp d.single '\n' hMem
  simp at hSingle

theorem break_notMem_tier (tier : ContentTier) : '\n' ∉ tier.text.toList := by
  cases tier <;> decide

theorem break_notMem_level (level : PrivacyLevel) : '\n' ∉ level.text.toList := by
  cases level <;> decide

theorem break_notMem_tee (tee : TEEType) : '\n' ∉ tee.text.toList := by
  cases tee <;> decide

theorem lines_mainLines (r : InferenceReceipt) :
    r.mainLines.map (fun s => (pieces '\n' s).length) =
      [(pieces '\n' r.jobId).length, (pieces '\n' r.requestId).length,
        (pieces '\n' r.modelId).length, 1, 1, 1, 1, 1, 1, 1, 1,
        (pieces '\n' r.settlerNodeId).length] := by
  have hOne : ∀ {s : String}, '\n' ∉ s.toList → (pieces '\n' s).length = 1 := by
    intro s h
    rw [pieces_of_notMem h]
    rfl
  simp only [InferenceReceipt.mainLines, List.map_cons, List.map_nil,
    hOne (break_notMem_tier _), hOne (break_notMem_level _), hOne (break_notMem_tee _),
    hOne (notMem_fixedText rfl), hOne (break_notMem_hex _), hOne r.costFtns.break_notMem]

theorem break_notMem_labelledLines {items : List (String × Option String)}
    (hLabels : ∀ item ∈ items, '\n' ∉ item.1.toList)
    (hTexts : ∀ item ∈ items, ∀ s, item.2 = some s → '\n' ∉ s.toList) :
    ∀ line ∈ labelledLines items, '\n' ∉ line.toList := by
  intro line hLine
  obtain ⟨label, s, hItem, rfl⟩ := exists_of_mem_labelledLines hLine
  rw [String.toList_append, String.toList_append, List.mem_append, List.mem_append, not_or, not_or]
  exact ⟨⟨hLabels _ hItem, by decide⟩, hTexts _ hItem s rfl⟩

theorem labels_optionalItems (lib : Library) (r : InferenceReceipt) :
    (r.optionalItems lib).map Prod.fst = ["streamed_output", "activation_noise_trace",
      "topology_assignment", "partial_completion", "prompt_hash", "stage_activation_chain"] := rfl

theorem plain_labels (r : InferenceReceipt) :
    ∀ item ∈ r.optionalItems lib, '\n' ∉ item.1.toList ∧ ':' ∉ item.1.toList := by
  intro item hItem
  have hPlain : ∀ label ∈ ["streamed_output", "activation_noise_trace", "topology_assignment",
      "partial_completion", "prompt_hash", "stage_activation_chain"],
      '\n' ∉ label.toList ∧ ':' ∉ label.toList := by decide
  exact hPlain item.1 (labels_optionalItems lib r ▸ List.mem_map_of_mem hItem)

theorem break_notMem_optionalLines (r : InferenceReceipt) :
    ∀ line ∈ labelledLines (r.optionalItems lib), '\n' ∉ line.toList := by
  apply break_notMem_labelledLines
  · exact fun item hItem => (plain_labels r item hItem).1
  · intro item hItem s hText
    simp only [InferenceReceipt.optionalItems, List.mem_cons, List.not_mem_nil, or_false] at hItem
    rcases hItem with rfl | rfl | rfl | rfl | rfl | rfl
    · split_ifs at hText
      obtain rfl := Option.some.inj hText
      decide
    all_goals
      obtain ⟨value, -, rfl⟩ := Option.map_eq_some_iff.mp hText
      exact break_notMem_hex _

theorem items_of_signingPayload (hLines : r.SameLines r')
    (h : r.signingPayload lib = r'.signingPayload lib) :
    r.mainLines = r'.mainLines ∧ r.optionalItems lib = r'.optionalItems lib := by
  have hCounts : r.mainLines.map (fun s => (pieces '\n' s).length) =
      r'.mainLines.map fun s => (pieces '\n' s).length := by
    rw [lines_mainLines, lines_mainLines, hLines.jobId, hLines.requestId, hLines.modelId,
      hLines.settlerNodeId]
  have hNonempty : ∀ x : InferenceReceipt,
      x.mainLines ++ labelledLines (x.optionalItems lib) ≠ [] := fun x => List.cons_ne_nil _ _
  have hPieces := (joinedText_eq_iff (hNonempty r) (hNonempty r')).mp (Settlement.utf8_injective h)
  obtain ⟨hMain, hRest⟩ := eq_of_flatMap_pieces hCounts hPieces
  refine ⟨hMain, ?_⟩
  rw [flatMap_pieces_of_notMem (break_notMem_optionalLines r),
    flatMap_pieces_of_notMem (break_notMem_optionalLines r')] at hRest
  have hOptional := List.map_injective_iff.mpr toList_injective hRest
  refine labelledLines_injective rfl ?_ ?_ hOptional
  · rw [labels_optionalItems]
    decide
  · exact fun item hItem => (plain_labels r item hItem).2

end Lines

/-! ## What a payload determines -/

section Payload

variable {read : String → Option PyFloat} {r r' : InferenceReceipt}

theorem rel_of_map_eq {α : Type} {f : α → String} {R : α → α → Prop} {o o' : Option α}
    (h : o.map f = o'.map f) (hText : ∀ a ∈ o, ∀ a' ∈ o', f a = f a' → R a a') :
    Option.Rel R o o' := by
  cases o with
  | none =>
      cases o' with
      | none => exact Option.Rel.none
      | some a' => cases h
  | some a =>
      cases o' with
      | none => cases h
      | some a' => exact Option.Rel.some (hText a rfl a' rfl (Option.some.inj h))

theorem eq_of_rel {α : Type} {o o' : Option α} (h : Option.Rel Eq o o') : o = o' := by
  cases h with
  | none => rfl
  | some h => rw [h]

section Hashed

variable {lib : Library} (hHash : Set.InjOn lib.sha.digest (r.hashed ∪ r'.hashed))
include hHash

theorem text_eq {text text' : Bytes} (h : text ∈ r.hashed) (h' : text' ∈ r'.hashed)
    (hSame : lib.sha.hexdigest text = lib.sha.hexdigest text') : text = text' :=
  Storage.injOn_hexdigest hHash (Or.inl h) (Or.inr h') hSame

theorem trace_eq (hRead : r.Readable read) (hRead' : r'.Readable read)
    (h : (r.activationNoiseTrace.map fun t => lib.sha.hexdigest t.canonicalText) =
      r'.activationNoiseTrace.map fun t => lib.sha.hexdigest t.canonicalText) :
    r.activationNoiseTrace = r'.activationNoiseTrace := by
  apply eq_of_rel
  refine rel_of_map_eq h ?_
  intro t ht t' ht' hSame
  have hText := text_eq hHash (Or.inl (Option.mem_map_of_mem _ ht))
    (Or.inl (Option.mem_map_of_mem _ ht')) hSame
  exact ActivationNoiseTrace.canonicalText_injective (hRead t ht) (hRead' t' ht') hText

theorem topology_same (hSame : r.SameDimensions r')
    (h : (r.topologyAssignment.map fun t => t.stableHash lib) =
      r'.topologyAssignment.map fun t => t.stableHash lib) :
    Option.Rel TopologyAssignment.Same r.topologyAssignment r'.topologyAssignment := by
  refine rel_of_map_eq h ?_
  intro t ht t' ht' hDigest
  have hText := text_eq hHash (Or.inr (Or.inl (Option.mem_map_of_mem _ ht)))
    (Or.inr (Or.inl (Option.mem_map_of_mem _ ht'))) hDigest
  obtain ⟨hCount, hSlots⟩ := hSame t t' ht ht'
  exact ⟨TopologyAssignment.positions_of_canonicalText hText, hCount, hSlots⟩

theorem partialCompletion_eq
    (h : (r.partialCompletion.map fun p => lib.sha.hexdigest p.canonicalText) =
      r'.partialCompletion.map fun p => lib.sha.hexdigest p.canonicalText) :
    r.partialCompletion = r'.partialCompletion := by
  apply eq_of_rel
  refine rel_of_map_eq h ?_
  intro p hp p' hp' hSame
  have hText := text_eq hHash (Or.inr (Or.inr (Or.inl (Option.mem_map_of_mem _ hp))))
    (Or.inr (Or.inr (Or.inl (Option.mem_map_of_mem _ hp')))) hSame
  exact PartialCompletionInfo.canonicalText_injective hText

theorem chain_same
    (h : (r.stageActivationChain.map fun c => c.stableHash lib) =
      r'.stageActivationChain.map fun c => c.stableHash lib) :
    Option.Rel StageActivationChain.Same r.stageActivationChain r'.stageActivationChain := by
  refine rel_of_map_eq h ?_
  intro c hc c' hc' hSame
  have hText := text_eq hHash (Or.inr (Or.inr (Or.inr (Option.mem_map_of_mem _ hc))))
    (Or.inr (Or.inr (Or.inr (Option.mem_map_of_mem _ hc')))) hSame
  exact StageActivationChain.same_of_canonicalText hText

theorem agrees_of_items (hRead : r.Readable read) (hRead' : r'.Readable read)
    (hSame : r.SameDimensions r') (hMain : r.mainLines = r'.mainLines)
    (hItems : r.optionalItems lib = r'.optionalItems lib) : r.Agrees r' := by
  simp only [InferenceReceipt.mainLines, List.cons.injEq, and_true] at hMain
  obtain ⟨hJob, hRequest, hModel, hTier, hLevel, hEpsilon, hTee, hAttestation, hOutput, hDuration,
    hCost, hSettler⟩ := hMain
  simp only [InferenceReceipt.optionalItems, List.cons.injEq, Prod.mk.injEq, true_and, and_true]
    at hItems
  obtain ⟨hStreamed, hTrace, hTopology, hPartial, hPrompt, hChain⟩ := hItems
  exact {
    jobId := hJob
    requestId := hRequest
    modelId := hModel
    contentTier := Option.some.inj (by
      rw [← (ChainRpc.content_ofText _).1, hTier, (ChainRpc.content_ofText _).1])
    privacyTier := Option.some.inj (by
      rw [← (ChainRpc.privacy_ofText _).1, hLevel, (ChainRpc.privacy_ofText _).1])
    epsilonSpent := hEpsilon
    teeType := Option.some.inj (by
      rw [← (ChainRpc.tee_ofText _).1, hTee, (ChainRpc.tee_ofText _).1])
    teeAttestation := Storage.hex_injective hAttestation
    outputHash := Storage.hex_injective hOutput
    durationSeconds := hDuration
    costFtns := PyDecimal.ext hCost
    settlerNodeId := hSettler
    streamedOutput := by
      cases hLeft : r.streamedOutput <;> cases hRight : r'.streamedOutput <;>
        simp [hLeft, hRight] at hStreamed ⊢
    activationNoiseTrace := trace_eq hHash hRead hRead' hTrace
    topologyAssignment := topology_same hHash hSame hTopology
    partialCompletion := partialCompletion_eq hHash hPartial
    promptHash := Option.map_injective Storage.hex_injective hPrompt
    stageActivationChain := chain_same hHash hChain }

end Hashed

theorem sameLines_of_agrees (h : r.Agrees r') : r.SameLines r' where
  jobId := by rw [h.jobId]
  requestId := by rw [h.requestId]
  modelId := by rw [h.modelId]
  settlerNodeId := by rw [h.settlerNodeId]

theorem sameDimensions_of_agrees (h : r.Agrees r') : r.SameDimensions r' := by
  intro t t' ht ht'
  have hRel := h.topologyAssignment
  rw [ht, ht'] at hRel
  cases hRel with
  | some hSame => exact ⟨hSame.stageCount, hSame.slotsPerStage⟩

/-- A signature under the key is one on a single payload. -/
def Binding (lib : Library) (key : String) : Prop :=
  ∀ payload payload' signature, lib.verifySignature key payload signature = true →
    lib.verifySignature key payload' signature = true → payload = payload'

theorem signingPayload_eq_of_verified {lib : Library} {key : String} (hKey : Binding lib key)
    (hSignature : r.settlerSignature = r'.settlerSignature)
    (h : r.verifyReceipt lib key = true) (h' : r'.verifyReceipt lib key = true) :
    r.signingPayload lib = r'.signingPayload lib := by
  unfold InferenceReceipt.verifyReceipt at h h'
  split_ifs at h h'
  rw [← hSignature] at h'
  exact hKey _ _ _ h h'

end Payload

/-! ## Two receipts with one payload -/

section Sample

def plainReceipt (jobId requestId : String) (epsilonSpent : PyFloat) : InferenceReceipt where
  jobId := jobId
  requestId := requestId
  modelId := "m"
  contentTier := .a
  privacyTier := .none
  epsilonSpent := epsilonSpent
  teeType := .software
  teeAttestation := []
  outputHash := [1]
  durationSeconds := ⟨"0.5", some (1 / 2), rfl, rfl⟩
  costFtns := ⟨"1", rfl⟩
  settlerSignature := [1]
  settlerNodeId := "s"
  streamedOutput := false
  activationNoiseTrace := none
  topologyAssignment := none
  partialCompletion := none
  promptHash := none
  stageActivationChain := none

def half : PyFloat := ⟨"0.5", some (1 / 2), rfl, rfl⟩

def nearHalf : PyFloat := ⟨"0.5000000000000009", some (1 / 2 + 1 / 2 ^ 50), rfl, rfl⟩

theorem readable_plain (read : String → Option PyFloat) (jobId requestId : String)
    (epsilonSpent : PyFloat) : (plainReceipt jobId requestId epsilonSpent).Readable read := by
  intro t ht
  cases ht

theorem hashed_plain (jobId requestId : String) (epsilonSpent : PyFloat) :
    (plainReceipt jobId requestId epsilonSpent).hashed = ∅ := by
  ext text
  simp [InferenceReceipt.hashed, plainReceipt]

end Sample

end Prsm.Inference
