import Prsm.Foundations.JoinedText
import Prsm.Foundations.JsonText
import Prsm.Foundations.StableSort
import Prsm.Storage.Sha256

/-!
# Signed stages

`StageActivationProof`, which the node of a stage signs, the chain of the proofs of one
inference, and the checks of a verifier: that the proofs follow one another, that each is signed
by its node, and that a topology agrees with them.  The signed bytes are lines with nothing
escaped, the last of which is there only where an attestation is bound.
-/

namespace Prsm.Inference

open Foundations
open Evm (Bytes)
open Settlement (utf8)

/-- What comes from outside: SHA-256, and the check of a base64 Ed25519 signature under a base64
key (false where it raises). -/
structure Library where
  sha : Storage.Sha256
  verifySignature : String → Bytes → String → Bool

def stageProofDomain : String := "prsm-stage-activation-proof-v1"

structure StageActivationProof where
  stageIndex : ℤ
  stageNodeId : String
  inputActivationHash : String
  outputActivationHash : String
  stageSignatureB64 : String
  teeAttestationHash : String

namespace StageActivationProof

variable (p : StageActivationProof)

/-- The line that binds an attestation, where there is one. -/
def teeLines : List String :=
  if p.teeAttestationHash = "" then [] else ["tee_attestation_hash=" ++ p.teeAttestationHash]

/-- The lines after the request. -/
def stageLines : List String :=
  [toString p.stageIndex, p.stageNodeId, p.inputActivationHash, p.outputActivationHash] ++
    p.teeLines

def signingBytes (requestId : String) : Bytes :=
  utf8 (joinedText '\n' (stageProofDomain :: requestId :: p.stageLines))

def fields : List (String × Json) :=
  [("stage_index", .int p.stageIndex),
    ("stage_node_id", .str p.stageNodeId),
    ("input_activation_hash", .str p.inputActivationHash),
    ("output_activation_hash", .str p.outputActivationHash),
    ("stage_signature_b64", .str p.stageSignatureB64)] ++
    (if p.teeAttestationHash = "" then []
      else [("tee_attestation_hash", .str p.teeAttestationHash)])

def toDict : Json := .object p.fields

end StageActivationProof

/-! ## What a worker signs -/

section Worker

variable (lib : Library)

def activationHash (blob : Bytes) : String := lib.sha.hexdigest blob

/-- `tee_attestation_hash_for`, where `bound` says whether attestations are bound. -/
def teeAttestationHashFor (bound : Bool) (attestation : Bytes) : String :=
  if attestation = [] then "" else if bound then activationHash lib attestation else ""

def nodeIdForPublicKey (publicBytes : Bytes) : String :=
  String.ofList ((lib.sha.hexdigest publicBytes).toList.take 32)

/-- A stage as its worker ran it. -/
structure StageRun where
  requestId : String
  chainStageIndex : ℤ
  stageInputBlob : Bytes
  activationBlob : Bytes
  teeAttestation : Bytes
  bound : Bool

/-- The proof that `RunLayerSliceResponse.sign` signs. -/
def StageRun.proof (run : StageRun) (nodeId : String) : StageActivationProof where
  stageIndex := run.chainStageIndex
  stageNodeId := nodeId
  inputActivationHash := activationHash lib run.stageInputBlob
  outputActivationHash := activationHash lib run.activationBlob
  stageSignatureB64 := ""
  teeAttestationHash := teeAttestationHashFor lib run.bound run.teeAttestation

end Worker

/-! ## The chain and the topology -/

structure StageActivationChain where
  requestId : String
  proofs : List StageActivationProof

namespace StageActivationChain

variable (c : StageActivationChain)

def sortedProofs : List StageActivationProof := sortBy (·.stageIndex) c.proofs

/-- The items that `stable_hash` writes. -/
def fields : List (String × Json) :=
  [("request_id", .str c.requestId),
    ("proofs", .array (c.sortedProofs.map StageActivationProof.toDict))]

def canonicalText : Bytes := utf8 (Json.object c.fields).text

def stableHash (lib : Library) : String := lib.sha.hexdigest c.canonicalText

/-- Neighbours agree on the activation between them. -/
def linksOk : List StageActivationProof → Bool
  | p :: q :: rest => p.outputActivationHash = q.inputActivationHash && linksOk (q :: rest)
  | _ => true

def verifyInternalLinks : Bool :=
  c.sortedProofs ≠ [] &&
    c.sortedProofs.map (·.stageIndex) = (List.range c.sortedProofs.length).map Int.ofNat &&
      linksOk c.sortedProofs

def topologyNodeIds : List String := c.sortedProofs.map (·.stageNodeId)

end StageActivationChain

/-- `positions` as the items of a dictionary. -/
structure TopologyAssignment where
  positions : List ((ℤ × ℤ) × String)
  stageCount : ℤ
  slotsPerStage : ℤ
  nodup : (positions.map Prod.fst).Nodup

namespace TopologyAssignment

variable (t : TopologyAssignment)

/-- The positions in the order of their keys. -/
def sortedPositions : List ((ℤ × ℤ) × String) :=
  sortBy (fun position => toLex position.1) t.positions

/-- What `stable_hash` writes.  The dimensions are not in it. -/
def canonicalText : Bytes :=
  utf8 (Json.array (t.sortedPositions.map fun position =>
    .array [.int position.1.1, .int position.1.2, .str position.2])).text

def stableHash (lib : Library) : String := lib.sha.hexdigest t.canonicalText

end TopologyAssignment

/-! ## Verifying -/

section Verifying

variable (lib : Library) (anchor : String → Option String)

def verifyStageProof (proof : StageActivationProof) (requestId : String) : Bool :=
  if proof.stageSignatureB64 = "" then false
  else
    match anchor proof.stageNodeId with
    | none => false
    | some pubkeyB64 =>
        pubkeyB64 ≠ "" &&
          lib.verifySignature pubkeyB64 (proof.signingBytes requestId) proof.stageSignatureB64

/-- Whether the node that signed is one that the topology has at the stage, for each proof. -/
def chainSupportsTopology (c : StageActivationChain) (t : TopologyAssignment) : Bool :=
  c.proofs.all fun p =>
    t.positions.any fun position => position.1.1 = p.stageIndex && position.2 = p.stageNodeId

end Verifying

end Prsm.Inference

/-!
# The signed stages and the topology

What the three checks of a verifier establish of a topology with one slot for each stage.  The
node of a stage is the signer of its proof.  The topology may have further stages, since only the
proofs are walked; and a proof is what its node has signed only where no hash in it has a line
break, since the attestation that a node has bound can be read as part of the hash before it.
-/

namespace Prsm.Inference

open Foundations
open Evm (Bytes)
open Settlement (utf8 hex)

/-! ## What is assumed and what is claimed -/

section Statement

variable (lib : Library) (anchor : String → Option String) (runs : String → Set StageRun)

/-- The anchor has keys of node ids, and what verifies as the signature of a node on a proof is
one that the node has made on the proof of a stage it ran. -/
structure Signers : Prop where
  derived : ∀ node key, anchor node = some key →
    ∃ publicBytes, node = nodeIdForPublicKey lib publicBytes
  unforgeable : ∀ node key (p : StageActivationProof) requestId signature,
    anchor node = some key →
      lib.verifySignature key (p.signingBytes requestId) signature = true →
        ∃ run ∈ runs node,
          (run.proof lib node).signingBytes run.requestId = p.signingBytes requestId

/-- The node has signed exactly this proof, for the request. -/
def SignedExactly (requestId : String) (p : StageActivationProof) : Prop :=
  ∃ run ∈ runs p.stageNodeId, run.requestId = requestId ∧
    run.proof lib p.stageNodeId = { p with stageSignatureB64 := "" }

/-- Each stage has one slot. -/
structure TopologyAssignment.OneSlot (t : TopologyAssignment) : Prop where
  slotsPerStage : t.slotsPerStage = 1
  stageCount : t.stageCount = t.positions.length
  stages : (t.positions.map fun position => position.1.1).Nodup

/-- The topology has the stages of the chain, each with its signer, who has signed it. -/
structure Determined (c : StageActivationChain) (t : TopologyAssignment) : Prop where
  stageCount : t.stageCount = c.proofs.length
  nodes : t.sortedPositions.map (fun position => (position.1.1, position.2)) =
    c.sortedProofs.map fun p => (p.stageIndex, p.stageNodeId)
  signed : ∀ p ∈ c.proofs, SignedExactly lib runs c.requestId p

/-- The hashes of a proof are single lines. -/
structure SingleLines (p : StageActivationProof) : Prop where
  input : '\n' ∉ p.inputActivationHash.toList
  output : '\n' ∉ p.outputActivationHash.toList
  tee : '\n' ∉ p.teeAttestationHash.toList

end Statement

/-! ## The lines that are signed -/

section Lines

variable {lib : Library} {p : StageActivationProof} {run : StageRun} {node requestId : String}

theorem notMem_activationHash {blob : Bytes} {c : Char}
    (hc : (c.isDigit || c.isLower) = false) : c ∉ (activationHash lib blob).toList := by
  intro hMem
  rw [activationHash, Storage.Sha256.hexdigest, hex, String.toList_ofList] at hMem
  rw [Settlement.isHexChar_of_mem_hexChars hMem] at hc
  cases hc

theorem notMem_teeAttestationHashFor {bound : Bool} {attestation : Bytes} {c : Char}
    (hc : (c.isDigit || c.isLower) = false) :
    c ∉ (teeAttestationHashFor lib bound attestation).toList := by
  unfold teeAttestationHashFor
  split_ifs
  · simp
  · exact notMem_activationHash hc
  · simp

theorem singleLines_proof (lib : Library) (run : StageRun) (node : String) :
    SingleLines (run.proof lib node) where
  input := notMem_activationHash rfl
  output := notMem_activationHash rfl
  tee := notMem_teeAttestationHashFor rfl

theorem nodeId_spec (lib : Library) (publicBytes : Bytes) :
    (nodeIdForPublicKey lib publicBytes).length = 32 ∧
      '\n' ∉ (nodeIdForPublicKey lib publicBytes).toList := by
  have hLength := Storage.length_hexdigest lib.sha publicBytes
  rw [← String.length_toList] at hLength
  constructor
  · rw [nodeIdForPublicKey, String.length_ofList, List.length_take]
    omega
  · rw [nodeIdForPublicKey, String.toList_ofList]
    exact fun hMem => notMem_activationHash rfl (List.mem_of_mem_take hMem)

theorem break_notMem_toString (n : ℤ) : '\n' ∉ (toString n).toList := fun h =>
  absurd (PyValue.isIntegerChar_toString n '\n' h) (by decide)

theorem break_notMem_stageLines (h : SingleLines p) (hNode : '\n' ∉ p.stageNodeId.toList) :
    ∀ s ∈ p.stageLines, '\n' ∉ s.toList := by
  intro s hs
  rcases List.mem_append.mp hs with hFixed | hTee
  · simp only [List.mem_cons, List.not_mem_nil, or_false] at hFixed
    rcases hFixed with rfl | rfl | rfl | rfl
    · exact break_notMem_toString _
    · exact hNode
    · exact h.input
    · exact h.output
  · unfold StageActivationProof.teeLines at hTee
    split_ifs at hTee
    · cases hTee
    · obtain rfl := List.mem_singleton.mp hTee
      rw [String.toList_append, List.mem_append, not_or]
      exact ⟨by decide, h.tee⟩

theorem lines_of_signingBytes {p' : StageActivationProof} {requestId' : String}
    (h : p'.signingBytes requestId' = p.signingBytes requestId)
    (hLines : ∀ s ∈ p.stageLines, '\n' ∉ s.toList)
    (hLines' : ∀ s ∈ p'.stageLines, '\n' ∉ s.toList) :
    pieces '\n' requestId' ++ p'.stageLines.map String.toList =
      pieces '\n' requestId ++ p.stageLines.map String.toList := by
  have hJoined := Settlement.utf8_injective h
  rw [joinedText_eq_iff (List.cons_ne_nil _ _) (List.cons_ne_nil _ _)] at hJoined
  simp only [List.flatMap_cons] at hJoined
  rw [List.append_cancel_left_eq, flatMap_pieces_of_notMem hLines,
    flatMap_pieces_of_notMem hLines'] at hJoined
  exact hJoined

theorem toList_injective : Function.Injective String.toList := fun _ _ => String.toList_inj.mp

theorem toString_toList_injective {m n : ℤ} (h : (toString m).toList = (toString n).toList) :
    m = n :=
  Int.repr_injective (toList_injective h)

theorem stageLines_of_unbound (h : p.teeAttestationHash = "") :
    p.stageLines.map String.toList = [(toString p.stageIndex).toList, p.stageNodeId.toList,
      p.inputActivationHash.toList, p.outputActivationHash.toList] := by
  simp [StageActivationProof.stageLines, StageActivationProof.teeLines, h]

theorem stageLines_of_bound (h : p.teeAttestationHash ≠ "") :
    p.stageLines.map String.toList = [(toString p.stageIndex).toList, p.stageNodeId.toList,
      p.inputActivationHash.toList, p.outputActivationHash.toList,
      ("tee_attestation_hash=" ++ p.teeAttestationHash).toList] := by
  simp [StageActivationProof.stageLines, StageActivationProof.teeLines, h]

theorem eq_of_lines {own : StageActivationProof} {requestId' : String}
    (hName : own.stageNodeId = p.stageNodeId)
    (hWidth : own.inputActivationHash.length ≠ own.stageNodeId.length)
    (hMark : '_' ∉ own.outputActivationHash.toList)
    (hSame : pieces '\n' requestId' ++ own.stageLines.map String.toList =
      pieces '\n' requestId ++ p.stageLines.map String.toList) :
    requestId' = requestId ∧
      { own with stageSignatureB64 := "" } = { p with stageSignatureB64 := "" } := by
  by_cases hTee : p.teeAttestationHash = "" <;> by_cases hOwn : own.teeAttestationHash = ""
  · rw [stageLines_of_unbound hTee, stageLines_of_unbound hOwn] at hSame
    obtain ⟨hRequest, hLines⟩ := List.append_inj' hSame rfl
    simp only [List.cons.injEq, and_true] at hLines
    obtain ⟨hIndex, -, hInput, hOutput⟩ := hLines
    refine ⟨pieces_injective hRequest, ?_⟩
    rw [toString_toList_injective hIndex, hName, toList_injective hInput, toList_injective hOutput,
      hOwn, hTee]
  · -- the attestation would be the last hash, and the first hash the node
    exfalso
    rw [stageLines_of_unbound hTee, stageLines_of_bound hOwn, List.append_cons] at hSame
    obtain ⟨-, hLines⟩ := List.append_inj' hSame rfl
    simp only [List.cons.injEq, and_true] at hLines
    have hInput := toList_injective hLines.2.1
    exact hWidth (by rw [hName, ← toList_injective hLines.2.1])
  · -- a bound attestation would be a hash
    exfalso
    rw [stageLines_of_bound hTee, stageLines_of_unbound hOwn,
      List.append_cons (pieces '\n' requestId)] at hSame
    obtain ⟨-, hLines⟩ := List.append_inj' hSame rfl
    simp only [List.cons.injEq, and_true] at hLines
    rw [hLines.2.2.2, String.toList_append, List.mem_append, not_or] at hMark
    exact hMark.1 (by decide)
  · rw [stageLines_of_bound hTee, stageLines_of_bound hOwn] at hSame
    obtain ⟨hRequest, hLines⟩ := List.append_inj' hSame rfl
    simp only [List.cons.injEq, and_true, String.toList_append, List.append_cancel_left_eq]
      at hLines
    obtain ⟨hIndex, -, hInput, hOutput, hBound⟩ := hLines
    refine ⟨pieces_injective hRequest, ?_⟩
    rw [toString_toList_injective hIndex, hName, toList_injective hInput, toList_injective hOutput,
      toList_injective hBound]

theorem eq_of_signingBytes {publicBytes : Bytes} (hNode : node = nodeIdForPublicKey lib publicBytes)
    (hName : p.stageNodeId = node) (hSingle : SingleLines p)
    (h : (run.proof lib node).signingBytes run.requestId = p.signingBytes requestId) :
    run.requestId = requestId ∧ run.proof lib node = { p with stageSignatureB64 := "" } := by
  obtain ⟨hWidth, hBreak⟩ := nodeId_spec lib publicBytes
  rw [← hNode] at hWidth hBreak
  have hInput : (run.proof lib node).inputActivationHash.length = 64 :=
    Storage.length_hexdigest lib.sha run.stageInputBlob
  have hSame := lines_of_signingBytes h
    (break_notMem_stageLines hSingle (by rw [hName]; exact hBreak))
    (break_notMem_stageLines (singleLines_proof lib run node) hBreak)
  have hShort : (run.proof lib node).inputActivationHash.length ≠
      (run.proof lib node).stageNodeId.length := by
    rw [hInput, show (run.proof lib node).stageNodeId = node from rfl, hWidth]
    omega
  have hMark : '_' ∉ (run.proof lib node).outputActivationHash.toList := notMem_activationHash rfl
  have hEqual : run.requestId = requestId ∧
      { run.proof lib node with stageSignatureB64 := "" } = { p with stageSignatureB64 := "" } :=
    eq_of_lines hName.symm hShort hMark hSame
  exact hEqual

end Lines

/-! ## The stages in order -/

section Stages

variable {c : StageActivationChain} {t : TopologyAssignment}

theorem stageIndices_of_links (h : c.verifyInternalLinks = true) :
    c.sortedProofs.map (·.stageIndex) = (List.range c.proofs.length).map Int.ofNat := by
  simp only [StageActivationChain.verifyInternalLinks, Bool.and_eq_true, decide_eq_true_eq] at h
  have hLength : c.sortedProofs.length = c.proofs.length := List.length_insertionSort _ _
  rw [h.1.2, hLength]

theorem mem_stageIndices_iff {stage : ℤ} {n : ℕ} :
    stage ∈ (List.range n).map Int.ofNat ↔ 0 ≤ stage ∧ stage < n := by
  rw [List.mem_map]
  constructor
  · rintro ⟨i, hi, rfl⟩
    have hBelow := List.mem_range.mp hi
    simp only [Int.ofNat_eq_natCast]
    omega
  · rintro ⟨hStart, hEnd⟩
    refine ⟨stage.toNat, List.mem_range.mpr ?_, ?_⟩
    · omega
    · simp only [Int.ofNat_eq_natCast]
      omega

theorem pairwise_sortedPositions (t : TopologyAssignment) :
    (t.sortedPositions.map fun position => (position.1.1, position.2)).Pairwise
      fun a b => a.1 ≤ b.1 := by
  rw [List.pairwise_map]
  refine (pairwise_sortBy _ t.positions).imp ?_
  intro a b hOrder
  rcases Prod.Lex.toLex_le_toLex.mp hOrder with hBelow | hSame
  · exact le_of_lt hBelow
  · exact le_of_eq hSame.1

theorem pairwise_sortedProofs (c : StageActivationChain) :
    (c.sortedProofs.map fun p => (p.stageIndex, p.stageNodeId)).Pairwise fun a b => a.1 ≤ b.1 := by
  rw [List.pairwise_map]
  exact pairwise_sortBy _ c.proofs

theorem nodup_sortedPositions (h : t.OneSlot) :
    ((t.sortedPositions.map fun position => (position.1.1, position.2)).map Prod.fst).Nodup := by
  rw [List.map_map]
  have hPerm := (List.perm_insertionSort (fun a b => toLex a.1 ≤ toLex b.1) t.positions).map
    fun position => position.1.1
  exact hPerm.nodup_iff.mpr h.stages

theorem subset_of_supports (h : chainSupportsTopology c t = true) :
    (c.sortedProofs.map fun p => (p.stageIndex, p.stageNodeId)) ⊆
      t.sortedPositions.map fun position => (position.1.1, position.2) := by
  intro stage hStage
  obtain ⟨p, hp, rfl⟩ := List.mem_map.mp hStage
  obtain ⟨position, hPosition, hSame⟩ :=
    List.any_eq_true.mp (List.all_eq_true.mp h p (mem_sortBy.mp hp))
  simp only [Bool.and_eq_true, decide_eq_true_eq] at hSame
  refine List.mem_map.mpr ⟨position, mem_sortBy.mpr hPosition, ?_⟩
  rw [hSame.1, hSame.2]

theorem nodes_eq (hSlot : t.OneSlot) (hLinks : c.verifyInternalLinks = true)
    (hSupports : chainSupportsTopology c t = true)
    (hInside : ∀ position ∈ t.positions, 0 ≤ position.1.1 ∧ position.1.1 < c.proofs.length) :
    t.sortedPositions.map (fun position => (position.1.1, position.2)) =
      c.sortedProofs.map fun p => (p.stageIndex, p.stageNodeId) := by
  have hIndices : (c.sortedProofs.map fun p => (p.stageIndex, p.stageNodeId)).map Prod.fst =
      (List.range c.proofs.length).map Int.ofNat := by
    rw [List.map_map]
    exact stageIndices_of_links hLinks
  have hNodup := nodup_sortedPositions hSlot
  have hSubset := subset_of_supports hSupports
  have hOrder := pairwise_sortedPositions t
  have hOrder' := pairwise_sortedProofs c
  have hWithin : (t.sortedPositions.map fun position => (position.1.1, position.2)).map Prod.fst ⊆
      (List.range c.proofs.length).map Int.ofNat := by
    intro stage hStage
    rw [List.map_map] at hStage
    obtain ⟨position, hPosition, rfl⟩ := List.mem_map.mp hStage
    exact mem_stageIndices_iff.mpr (hInside position (mem_sortBy.mp hPosition))
  generalize t.sortedPositions.map (fun position => (position.1.1, position.2)) = nodes at *
  generalize (c.sortedProofs.map fun p => (p.stageIndex, p.stageNodeId)) = signers at *
  have hShort : nodes.length ≤ signers.length := by
    have hLength := (hNodup.subperm hWithin).length_le
    rw [← hIndices, List.length_map, List.length_map] at hLength
    exact hLength
  have hSigners : signers.Nodup := by
    refine List.Nodup.of_map Prod.fst ?_
    rw [hIndices]
    exact List.nodup_range.map Int.ofNat_injective
  have hPerm := (hSigners.subperm hSubset).perm_of_length_le hShort
  refine (hPerm.eq_of_pairwise ?_ hOrder' hOrder).symm
  intro a b ha hb hab hba
  exact List.inj_on_of_nodup_map hNodup (hSubset ha) hb (le_antisymm hab hba)

theorem inside_of_nodes (hLinks : c.verifyInternalLinks = true)
    (hNodes : t.sortedPositions.map (fun position => (position.1.1, position.2)) =
      c.sortedProofs.map fun p => (p.stageIndex, p.stageNodeId)) :
    ∀ position ∈ t.positions, 0 ≤ position.1.1 ∧ position.1.1 < c.proofs.length := by
  intro position hPosition
  have hMem : (position.1.1, position.2) ∈
      c.sortedProofs.map fun p => (p.stageIndex, p.stageNodeId) := by
    rw [← hNodes]
    exact List.mem_map.mpr ⟨position, mem_sortBy.mpr hPosition, rfl⟩
  obtain ⟨p, hp, hSame⟩ := List.mem_map.mp hMem
  have hIndex := List.mem_map_of_mem (f := (·.stageIndex)) hp
  rw [stageIndices_of_links hLinks, (Prod.mk.inj hSame).1] at hIndex
  exact mem_stageIndices_iff.mp hIndex

end Stages

/-! ## What the checks establish -/

section Checks

variable {lib : Library} {anchor : String → Option String} {runs : String → Set StageRun}
  {p : StageActivationProof} {requestId : String}

theorem signedExactly_iff (hSigners : Signers lib anchor runs)
    (hProof : verifyStageProof lib anchor p requestId = true) :
    SignedExactly lib runs requestId p ↔ SingleLines p := by
  constructor
  · rintro ⟨run, -, -, hSame⟩
    have hSingle := singleLines_proof lib run p.stageNodeId
    rw [hSame] at hSingle
    exact ⟨hSingle.input, hSingle.output, hSingle.tee⟩
  · intro hSingle
    unfold verifyStageProof at hProof
    split_ifs at hProof
    cases hKey : anchor p.stageNodeId with
    | none => simp [hKey] at hProof
    | some key =>
        simp only [hKey, Bool.and_eq_true] at hProof
        obtain ⟨publicBytes, hDerived⟩ := hSigners.derived _ _ hKey
        obtain ⟨run, hRun, hBytes⟩ := hSigners.unforgeable _ _ p requestId _ hKey hProof.2
        obtain ⟨hRequest, hSame⟩ := eq_of_signingBytes hDerived rfl hSingle hBytes
        exact ⟨run, hRun, hRequest, hSame⟩

/-- The checks determine the topology exactly when it has no stage that the chain has not, and no
hash of a proof has a line break. -/
theorem determined_iff {c : StageActivationChain} {t : TopologyAssignment}
    (hSigners : Signers lib anchor runs) (hSlot : t.OneSlot)
    (hLinks : c.verifyInternalLinks = true)
    (hProofs : ∀ p ∈ c.proofs, verifyStageProof lib anchor p c.requestId = true)
    (hSupports : chainSupportsTopology c t = true) :
    Determined lib runs c t ↔
      (∀ position ∈ t.positions, 0 ≤ position.1.1 ∧ position.1.1 < c.proofs.length) ∧
        ∀ p ∈ c.proofs, SingleLines p := by
  constructor
  · intro h
    refine ⟨inside_of_nodes hLinks h.nodes, ?_⟩
    intro p hp
    exact (signedExactly_iff hSigners (hProofs p hp)).mp (h.signed p hp)
  · rintro ⟨hInside, hSingle⟩
    have hNodes := nodes_eq hSlot hLinks hSupports hInside
    refine ⟨?_, hNodes, ?_⟩
    · have hLength := congrArg List.length hNodes
      rw [List.length_map, List.length_map] at hLength
      have hPositions : t.sortedPositions.length = t.positions.length :=
        List.length_insertionSort _ _
      have hAll : c.sortedProofs.length = c.proofs.length := List.length_insertionSort _ _
      have hCount := hSlot.stageCount
      omega
    · intro p hp
      exact (signedExactly_iff hSigners (hProofs p hp)).mpr (hSingle p hp)

end Checks

/-! ## A chain of one stage -/

section Sample

def sampleRun : StageRun := ⟨"r", 0, [1], [2], [], false⟩

def sampleLibrary : Library where
  sha := Storage.Sha256.ofTable []
  verifySignature := fun key payload signature =>
    key = "key" && signature = "sig" &&
      payload = (sampleRun.proof ⟨Storage.Sha256.ofTable [], fun _ _ _ => false⟩
        "00000000000000000000000000000000").signingBytes "r"

def sampleNode : String := nodeIdForPublicKey sampleLibrary [9]

def sampleAnchor (node : String) : Option String := if node = sampleNode then some "key" else none

def sampleRuns (node : String) : Set StageRun := { run | node = sampleNode ∧ run = sampleRun }

def sampleChain : StageActivationChain :=
  ⟨"r", [{ sampleRun.proof sampleLibrary sampleNode with stageSignatureB64 := "sig" }]⟩

def samplePositions : List ((ℤ × ℤ) × String) := [((0, 0), sampleNode)]

def widerPositions : List ((ℤ × ℤ) × String) := [((0, 0), sampleNode), ((1, 0), "payee")]

theorem nodup_samplePositions : (samplePositions.map Prod.fst).Nodup := List.nodup_singleton _

theorem nodup_widerPositions : (widerPositions.map Prod.fst).Nodup := by
  simp [widerPositions]

def sampleTopology : TopologyAssignment := ⟨samplePositions, 1, 1, nodup_samplePositions⟩

def widerTopology : TopologyAssignment := ⟨widerPositions, 2, 1, nodup_widerPositions⟩

theorem signers_sample : Signers sampleLibrary sampleAnchor sampleRuns where
  derived := by
    intro node key hKey
    unfold sampleAnchor at hKey
    split_ifs at hKey with hNode
    exact ⟨[9], hNode⟩
  unforgeable := by
    intro node key p requestId signature hKey hVerified
    unfold sampleAnchor at hKey
    split_ifs at hKey with hNode
    refine ⟨sampleRun, ⟨hNode, rfl⟩, ?_⟩
    simp only [sampleLibrary, Bool.and_eq_true, decide_eq_true_eq] at hVerified
    have hOwn : (sampleRun.proof sampleLibrary node).signingBytes sampleRun.requestId =
        (sampleRun.proof ⟨Storage.Sha256.ofTable [], fun _ _ _ => false⟩
          "00000000000000000000000000000000").signingBytes "r" := by
      rw [hNode]
      decide +kernel
    rw [hOwn, hVerified.2]

theorem sample_verifies :
    ∀ p ∈ sampleChain.proofs, verifyStageProof sampleLibrary sampleAnchor p "r" = true := by
  decide +kernel

theorem determined_sample : Determined sampleLibrary sampleRuns sampleChain sampleTopology :=
  (determined_iff signers_sample ⟨rfl, rfl, by decide +kernel⟩ (by decide +kernel) sample_verifies
    (by decide +kernel)).mpr
    ⟨by decide +kernel, fun p hp => by
      obtain rfl := List.mem_singleton.mp hp
      have hSingle := singleLines_proof sampleLibrary sampleRun sampleNode
      exact ⟨hSingle.input, hSingle.output, hSingle.tee⟩⟩

/-- All checks pass for a topology with a payee that has signed no stage. -/
theorem supports_wider :
    Signers sampleLibrary sampleAnchor sampleRuns ∧ widerTopology.OneSlot ∧
      sampleChain.verifyInternalLinks = true ∧
      (∀ p ∈ sampleChain.proofs,
        verifyStageProof sampleLibrary sampleAnchor p sampleChain.requestId = true) ∧
      chainSupportsTopology sampleChain widerTopology = true ∧
      ¬ Determined sampleLibrary sampleRuns sampleChain widerTopology := by
  refine ⟨signers_sample, ⟨rfl, rfl, by decide +kernel⟩, by decide +kernel, sample_verifies,
    by decide +kernel, ?_⟩
  intro h
  exact absurd h.stageCount (by decide +kernel)

end Sample

end Prsm.Inference
