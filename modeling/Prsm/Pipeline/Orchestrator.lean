import Prsm.Foundations.PyValue
import Prsm.Storage.Sha256

/-!
# Pipeline inference

A model is split into stages by a `PipelinePartition`; `execute` sends the prompt through the
runners of the stages, and signs a receipt with the hashes of what went into and came out of
each.  The jobs and their rounds are kept in memory and in a directory, which a new process reads
them back from.
-/

namespace Prsm.Pipeline

open Foundations
open Evm (Bytes)
open Settlement (utf8)

/-! ## Partitions -/

structure PipelinePartition where
  totalLayers : ℤ
  stageLayerRanges : List (List ℤ)
  stageNodeIds : List String
  deriving DecidableEq

inductive PartitionValidationError
  | totalLayers (n : ℤ)
  | noStages
  | nodeIds (ids stages : ℕ)
  | emptyStage (stage : ℕ)
  | outOfRange (stage : ℕ) (layer : ℤ)
  | duplicate (layer : ℤ)
  | notContiguous (stage : ℕ)
  | gaps
  deriving DecidableEq

namespace PipelinePartition

/-- Bounds and duplicates; `seen` has the layers so far. -/
def checkLayers (totalLayers : ℤ) (stage : ℕ) :
    List ℤ → List ℤ → Except PartitionValidationError (List ℤ)
  | [], seen => .ok seen
  | layer :: rest, seen =>
      if layer < 0 ∨ totalLayers ≤ layer then .error (.outOfRange stage layer)
      else if layer ∈ seen then .error (.duplicate layer)
      else checkLayers totalLayers stage rest (layer :: seen)

/-- Each number is one more than the number before it. -/
def consecutive : List ℤ → Bool
  | x :: y :: rest => y = x + 1 && consecutive (y :: rest)
  | _ => true

def checkStages (totalLayers : ℤ) :
    ℕ → List (List ℤ) → List ℤ → Except PartitionValidationError (List ℤ)
  | _, [], seen => .ok seen
  | stage, layers :: rest, seen => do
      if layers = [] then .error (.emptyStage stage)
      else do
        let seen ← checkLayers totalLayers stage layers seen
        if consecutive (layers.insertionSort (· ≤ ·)) then
          checkStages totalLayers (stage + 1) rest seen
        else .error (.notContiguous stage)

def validate (p : PipelinePartition) : Except PartitionValidationError Unit :=
  if p.totalLayers < 1 then .error (.totalLayers p.totalLayers)
  else if p.stageLayerRanges = [] then .error .noStages
  else if p.stageNodeIds.length ≠ p.stageLayerRanges.length then
    .error (.nodeIds p.stageNodeIds.length p.stageLayerRanges.length)
  else do
    let seen ← checkStages p.totalLayers 0 p.stageLayerRanges []
    if (seen.length : ℤ) ≠ p.totalLayers then .error .gaps else .ok ()

/-- The loop of `even_layer_partition`: the ranges from stage `i` on, of `n` stages. -/
def evenRanges (base remainder : ℕ) : ℕ → ℕ → ℕ → List (List ℤ)
  | 0, _, _ => []
  | n + 1, i, cursor =>
      let size := base + (if i < remainder then 1 else 0)
      (List.range' cursor size).map Int.ofNat :: evenRanges base remainder n (i + 1) (cursor + size)

end PipelinePartition

/-- `none` where it raises a `ValueError`. -/
def evenLayerPartition (totalLayers : ℤ) (nodeIds : List String) : Option PipelinePartition :=
  if totalLayers < 1 then none
  else if nodeIds.length = 0 then none
  else if totalLayers < nodeIds.length then none
  else
    some ⟨totalLayers,
      PipelinePartition.evenRanges (totalLayers.toNat / nodeIds.length)
        (totalLayers.toNat % nodeIds.length) nodeIds.length 0 0, nodeIds⟩

/-! ## Receipts -/

structure AttestationVerificationResult where
  vendor : String
  vendorVerified : Bool
  vendorData : List (String × Json)
  signatureChainOk : Bool
  error : Option String
  structuralParseOk : Bool

structure PerStageReceipt where
  stageId : ℕ
  layerIndices : List ℤ
  inputActivationHash : String
  outputActivationHash : String
  attestation : AttestationVerificationResult

structure PipelineInferenceReceipt where
  promptHash : String
  outputHash : String
  partitionHash : String
  stageReceipts : List PerStageReceipt
  orchestratorSignatureB64 : String

/-- What comes from outside: SHA-256, and the orchestrator's signature in base64. -/
structure Library where
  sha : Storage.Sha256
  sign : Bytes → String

def PipelinePartition.toDict (p : PipelinePartition) : Json :=
  .object [("total_layers", .int p.totalLayers),
    ("stage_layer_ranges", .array (p.stageLayerRanges.map fun layers => .array (layers.map .int))),
    ("stage_node_ids", .array (p.stageNodeIds.map .str))]

def PipelinePartition.partitionHash (lib : Library) (p : PipelinePartition) : String :=
  lib.sha.hexdigest (utf8 (Json.dumps p.toDict))

def AttestationVerificationResult.toDict (r : AttestationVerificationResult) : Json :=
  .object [("vendor", .str r.vendor), ("vendor_verified", .bool r.vendorVerified),
    ("vendor_data", .object r.vendorData), ("signature_chain_ok", .bool r.signatureChainOk),
    ("error", r.error.elim .null .str), ("structural_parse_ok", .bool r.structuralParseOk)]

def PerStageReceipt.toDict (r : PerStageReceipt) : Json :=
  .object [("stage_id", .int r.stageId), ("layer_indices", .array (r.layerIndices.map .int)),
    ("input_activation_hash", .str r.inputActivationHash),
    ("output_activation_hash", .str r.outputActivationHash),
    ("attestation", r.attestation.toDict)]

/-- `_canonical_receipt_bytes`: the signature is not in it. -/
def PipelineInferenceReceipt.canonicalBytes (r : PipelineInferenceReceipt) : Bytes :=
  utf8 (Json.dumps (.object [("version", .str "v1"), ("prompt_hash", .str r.promptHash),
    ("output_hash", .str r.outputHash), ("partition_hash", .str r.partitionHash),
    ("stage_receipts", .array (r.stageReceipts.map PerStageReceipt.toDict))]))

def signPipelineReceipt (lib : Library) (r : PipelineInferenceReceipt) :
    PipelineInferenceReceipt :=
  { r with orchestratorSignatureB64 := lib.sign r.canonicalBytes }

/-- Neighbouring stages agree on the activation between them. -/
def stagesLinked : List PerStageReceipt → Bool
  | r :: s :: rest => r.outputActivationHash = s.inputActivationHash && stagesLinked (s :: rest)
  | _ => true

def verifyChain (receipt : PipelineInferenceReceipt) : Bool :=
  match receipt.stageReceipts.head?, receipt.stageReceipts.getLast? with
  | some first, some last =>
      first.inputActivationHash = receipt.promptHash && stagesLinked receipt.stageReceipts &&
        last.outputActivationHash = receipt.outputHash
  | _, _ => false

/-! ## Running the stages -/

/-- A runner: activations, the stage and its layers to activations, `none` where it raises. -/
abbrev StageRunner := Bytes → ℕ → List ℤ → Option Bytes

def softwareFallback : AttestationVerificationResult :=
  ⟨"software-fallback", false, [], false, none, true⟩

/-- A stage to run: its runner, its layers, and the attestation supplied for it. -/
structure Stage where
  runner : StageRunner
  layers : List ℤ
  attestation : AttestationVerificationResult

section Running

variable (lib : Library)

/-- The loop over the stages from stage `i` on: the last activations and the receipts. -/
def runStages : ℕ → List Stage → Bytes → Option (Bytes × List PerStageReceipt)
  | _, [], activations => some (activations, [])
  | i, stage :: rest, activations => do
      let output ← stage.runner activations i stage.layers
      let later ← runStages (i + 1) rest output
      return (later.1, ⟨i, stage.layers, lib.sha.hexdigest activations, lib.sha.hexdigest output,
        stage.attestation⟩ :: later.2)

/-- The stages of a partition with runners and attestations. -/
def stagesOf (p : PipelinePartition) (runners : List StageRunner)
    (attestations : Option (List AttestationVerificationResult)) : List Stage :=
  let supplied := attestations.getD (p.stageLayerRanges.map fun _ => softwareFallback)
  (runners.zip (p.stageLayerRanges.zip supplied)).map fun stage =>
    ⟨stage.1, stage.2.1, stage.2.2⟩

/-- The signed receipt of a run. -/
def receiptOf (p : PipelinePartition) (prompt output : Bytes)
    (stageReceipts : List PerStageReceipt) : PipelineInferenceReceipt :=
  signPipelineReceipt lib
    ⟨lib.sha.hexdigest prompt, lib.sha.hexdigest output, p.partitionHash lib, stageReceipts, ""⟩

end Running

/-! ## The orchestrator -/

inductive JobStatus
  | proposed
  | completed
  | failed
  deriving DecidableEq

inductive RoundStatus
  | pending
  | running
  | completed
  | failed

structure PipelineInferenceJob where
  jobId : String
  modelId : String
  partition : PipelinePartition
  status : JobStatus
  createdAt : PyFloat

structure PipelineInferenceRound where
  jobId : String
  roundId : String
  status : RoundStatus
  receipt : Option PipelineInferenceReceipt
  startedAt : PyFloat
  completedAt : Option PyFloat
  error : Option String

/-- The jobs and the rounds, by job. -/
structure Records where
  jobs : String → Option PipelineInferenceJob
  rounds : String → Option PipelineInferenceRound

namespace Records

def empty : Records := ⟨fun _ => none, fun _ => none⟩

def withJob (r : Records) (job : PipelineInferenceJob) : Records :=
  { r with jobs := Function.update r.jobs job.jobId (some job) }

def withRound (r : Records) (round : PipelineInferenceRound) : Records :=
  { r with rounds := Function.update r.rounds round.jobId (some round) }

end Records

/-- The arguments of `execute`, with what it draws and reads from the clock. -/
structure ExecuteCall where
  jobId : String
  prompt : Bytes
  stageRunners : List StageRunner
  stageAttestations : Option (List AttestationVerificationResult)
  roundId : String
  startedAt : PyFloat
  completedAt : PyFloat
  error : String

/-- The job that a call may run: it is known and not completed, and the runners and attestations
are as many as its stages. -/
def runnable (r : Records) (call : ExecuteCall) : Option PipelineInferenceJob :=
  match r.jobs call.jobId with
  | none => none
  | some job =>
      if job.status = .completed then none
      else if call.stageRunners.length ≠ job.partition.stageLayerRanges.length then none
      else
        match call.stageAttestations with
        | none => some job
        | some attestations =>
            if attestations.length ≠ job.partition.stageLayerRanges.length then none
            else some job

theorem runnable_eq_some {r : Records} {job : PipelineInferenceJob} {call : ExecuteCall}
    (h : runnable r call = some job) :
    r.jobs call.jobId = some job ∧ job.status ≠ .completed ∧
      call.stageRunners.length = job.partition.stageLayerRanges.length ∧
        ∀ attestations ∈ call.stageAttestations,
          attestations.length = job.partition.stageLayerRanges.length := by
  unfold runnable at h
  cases hJob : r.jobs call.jobId with
  | none => simp [hJob] at h
  | some known =>
      simp only [hJob] at h
      split_ifs at h with hDone hRunners
      cases hSupplied : call.stageAttestations with
      | none =>
          rw [hSupplied] at h
          obtain rfl := Option.some.inj h
          exact ⟨rfl, hDone, not_not.mp hRunners, by simp⟩
      | some attestations =>
          simp only [hSupplied] at h
          split_ifs at h with hCount
          obtain rfl := Option.some.inj h
          refine ⟨rfl, hDone, not_not.mp hRunners, ?_⟩
          intro supplied hMem
          obtain rfl := Option.some.inj hMem
          exact not_not.mp hCount

section Executing

variable (lib : Library)

/-- The round when the stages start. -/
def startedRound (call : ExecuteCall) : PipelineInferenceRound :=
  ⟨call.jobId, call.roundId, .running, none, call.startedAt, none, none⟩

/-- The round when the stages have run or one of them has raised. -/
def finishedRound (job : PipelineInferenceJob) (call : ExecuteCall) : PipelineInferenceRound :=
  match runStages lib 0 (stagesOf job.partition call.stageRunners call.stageAttestations)
      call.prompt with
  | none =>
      { startedRound call with
        status := .failed, completedAt := some call.completedAt, error := some call.error }
  | some (output, receipts) =>
      { startedRound call with
        status := .completed,
        receipt := some (receiptOf lib job.partition call.prompt output receipts),
        completedAt := some call.completedAt }

end Executing

/-- The start of time. -/
def zeroTime : PyFloat := ⟨"0.0", some 0, marked_zero, plain_zero⟩

end Prsm.Pipeline
