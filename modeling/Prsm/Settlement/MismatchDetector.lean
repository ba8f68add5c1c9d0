import Mathlib.Data.Prod.Lex
import Mathlib.Data.String.Basic
import Prsm.Foundations.OrderedDict
import Prsm.Foundations.StableSort
import Prsm.Registry.ConsensusMismatch
import Prsm.Settlement.Receipt

/-!
# The consensus mismatch detector

The registry accepts a mismatch challenge against either side, so the choice of
the side to punish is made off chain.  The detector groups the leaves of the
verified batches into slots of one consensus group, job and shard, tallies the
distinct providers behind each output of a slot, and reports the leaves that
disagree with an output that more than half of the providers back.

One provider may commit several outputs for one slot, and then two of them can pass that
threshold.  The detector takes the first it meets as the majority and reports the backers of the
other.
-/

namespace Prsm.Settlement

open Foundations Evm

/-- A verified batch.  The first three fields are read from the chain, the
receipts are those that reproduce its Merkle root. -/
structure DetectorBatch where
  batchId : Bytes32
  providerAddress : String
  consensusGroupId : Bytes32
  receipts : List BatchedReceipt
  deriving DecidableEq

/-- One committed leaf in a slot. -/
structure Side where
  batchId : Bytes32
  provider : String
  receipt : BatchedReceipt
  leafIndex : Nat
  outputHash : Bytes32

/-- A disagreement.  The audit engine challenges the minority side and proves the
majority leaf in the conflicting batch.  `voteTally` is the dictionary from an
output to the number of providers behind it, zero for an output that nobody
committed; dictionaries are compared by content. -/
structure ConsensusMismatchFinding where
  consensusGroupId : Bytes32
  jobIdHash : Bytes32
  shardIndex : Uint 32
  minority : Side
  majority : Side
  onChainReason : Registry.ReasonCode
  ambiguous : Bool
  voteTally : Bytes32 → Nat

/-! ## The detector -/

section Detector

variable (keccak256 : Keccak)

/-- The sides that one batch contributes, with their slots.  A batch outside any
consensus group contributes none, and an unparseable receipt is skipped. -/
def batchSides (batch : DetectorBatch) : List (Registry.Slot × Side) :=
  if batch.consensusGroupId = 0 then []
  else
    batch.receipts.zipIdx.filterMap fun (br, leafIndex) =>
      (batchedReceiptToLeaf keccak256 br).map fun leaf =>
        (⟨batch.consensusGroupId, leaf.jobIdHash, leaf.shardIndex⟩,
          ⟨batch.batchId, batch.providerAddress, br, leafIndex, leaf.outputHash⟩)

/-- Every side of every batch, in the order of the input. -/
def allSides (batches : List DetectorBatch) : List (Registry.Slot × Side) :=
  batches.flatMap (batchSides keccak256)

/-- The number of distinct providers among the sides. -/
def providerCount (sides : List Side) : Nat :=
  (sides.map Side.provider).toFinset.card

/-- The number of distinct providers among the sides with the given output. -/
def backing (sides : List Side) (outputHash : Bytes32) : Nat :=
  providerCount (sides.filter fun side => side.outputHash = outputHash)

/-- `providers_by_output`, as the providers listed under each output. -/
def providersByOutput (sides : List Side) : List (Bytes32 × List String) :=
  groupByKey (sides.map fun side => (side.outputHash, side.provider))

/-- The output is backed by more than half of the providers. -/
def IsMajority (sides : List Side) (outputHash : Bytes32) : Prop :=
  providerCount sides < backing sides outputHash * 2

instance (sides : List Side) (outputHash : Bytes32) : Decidable (IsMajority sides outputHash) :=
  inferInstanceAs (Decidable (_ < _))

/-- The first output of the dictionary that more than half of the providers
back. -/
def majorityOutput (sides : List Side) : Option Bytes32 :=
  ((providersByOutput sides).find? fun group =>
    providerCount sides < group.2.toFinset.card * 2).map Prod.fst

/-- The sides ordered by batch, provider and leaf index. -/
def orderedSides (sides : List Side) : List Side :=
  sortBy (fun side => toLex (side.batchId, toLex (side.provider, side.leafIndex))) sides

def makeFinding (slot : Registry.Slot) (minority majority : Side) (ambiguous : Bool)
    (tally : Bytes32 → Nat) : ConsensusMismatchFinding where
  consensusGroupId := slot.consensusGroupId
  jobIdHash := slot.jobIdHash
  shardIndex := slot.shardIndex
  minority := minority
  majority := majority
  onChainReason := .consensusMismatch
  ambiguous := ambiguous
  voteTally := tally

/-- The findings of a slot with a majority: each other leaf, against the first
majority leaf of another provider in another batch. -/
def majorityFindings (slot : Registry.Slot) (ordered : List Side) (majorityOutput : Bytes32)
    (tally : Bytes32 → Nat) : List ConsensusMismatchFinding :=
  let majoritySides := ordered.filter fun side => side.outputHash = majorityOutput
  ordered.filterMap fun side =>
    if side.outputHash = majorityOutput then none
    else
      (majoritySides.find? fun m => m.provider ≠ side.provider ∧ m.batchId ≠ side.batchId).map
        fun m => makeFinding slot side m false tally

/-- The pairs of a list, each in the order of the list. -/
def orderedPairs {α : Type} : List α → List (α × α)
  | [] => []
  | a :: l => l.map (fun b => (a, b)) ++ orderedPairs l

/-- The findings of a slot without a majority: every disagreement, for manual
review. -/
def ambiguousFindings (slot : Registry.Slot) (ordered : List Side) (tally : Bytes32 → Nat) :
    List ConsensusMismatchFinding :=
  (orderedPairs ordered).filterMap fun (lo, hi) =>
    if lo.batchId = hi.batchId then none
    else if lo.provider = hi.provider then none
    else if lo.outputHash = hi.outputHash then none
    else some (makeFinding slot lo hi true tally)

def slotFindings (slot : Registry.Slot) (sides : List Side) : List ConsensusMismatchFinding :=
  if sides.length < 2 then []
  else if (providersByOutput sides).length < 2 then []
  else
    match majorityOutput sides with
    | some output => majorityFindings slot (orderedSides sides) output (backing sides)
    | none => ambiguousFindings slot (orderedSides sides) (backing sides)

/-- The slot of a finding. -/
def ConsensusMismatchFinding.slot (f : ConsensusMismatchFinding) : Registry.Slot :=
  ⟨f.consensusGroupId, f.jobIdHash, f.shardIndex⟩

/-- The order in which findings are returned. -/
def ConsensusMismatchFinding.sortKey (f : ConsensusMismatchFinding) :
    Bytes32 ×ₗ Bytes32 ×ₗ Uint 32 ×ₗ Bool ×ₗ Bytes32 ×ₗ Bytes32 :=
  toLex (f.consensusGroupId, toLex (f.jobIdHash, toLex (f.shardIndex, toLex (f.ambiguous,
    toLex (f.minority.batchId, f.majority.batchId)))))

def detectConsensusMismatches (batches : List DetectorBatch) : List ConsensusMismatchFinding :=
  sortBy ConsensusMismatchFinding.sortKey
    ((groupByKey (allSides keccak256 batches)).flatMap fun group => slotFindings group.1 group.2)

end Detector

/-! ## What is asked of it -/

section Statement

variable (keccak256 : Keccak)

/-- Verified batches: what was read under one batch id is one batch. -/
def Verified (batches : List DetectorBatch) : Prop :=
  ∀ a ∈ batches, ∀ b ∈ batches, a.batchId = b.batchId → a = b

/-- The sides of a slot. -/
def slotSides (batches : List DetectorBatch) (slot : Registry.Slot) : List Side :=
  valuesAt (allSides keccak256 batches) slot

/-- The side is a leaf of one of the batches, in the slot. -/
def CommittedSide (batches : List DetectorBatch) (slot : Registry.Slot) (side : Side) : Prop :=
  ∃ batch ∈ batches, batch.batchId = side.batchId ∧ batch.providerAddress = side.provider ∧
    batch.consensusGroupId = slot.consensusGroupId ∧
    batch.receipts[side.leafIndex]? = some side.receipt ∧
    ∃ leaf, batchedReceiptToLeaf keccak256 side.receipt = some leaf ∧
      leaf.jobIdHash = slot.jobIdHash ∧ leaf.shardIndex = slot.shardIndex ∧
      leaf.outputHash = side.outputHash

/-- The checks that the registry's handler makes on the fields of the two sides.
They are leaves of batches of one group, for one job and shard. -/
structure FieldChecks (batches : List DetectorBatch) (f : ConsensusMismatchFinding) : Prop where
  minority_committed : CommittedSide keccak256 batches f.slot f.minority
  majority_committed : CommittedSide keccak256 batches f.slot f.majority
  batch_ne : f.minority.batchId ≠ f.majority.batchId
  provider_ne : f.minority.provider ≠ f.majority.provider
  group_ne : f.consensusGroupId ≠ 0
  output_ne : f.minority.outputHash ≠ f.majority.outputHash

/-- The findings do not depend on the order of the batches, the unambiguous ones
pass the registry's checks, and none of these punishes an output that more than
half of the slot's providers back. -/
structure TargetsMinority (batches : List DetectorBatch) : Prop where
  order_independent : ∀ batches', batches'.Perm batches →
    detectConsensusMismatches keccak256 batches' = detectConsensusMismatches keccak256 batches
  checked : ∀ f ∈ detectConsensusMismatches keccak256 batches, f.ambiguous = false →
    FieldChecks keccak256 batches f
  minority : ∀ f ∈ detectConsensusMismatches keccak256 batches, f.ambiguous = false →
    ¬ IsMajority (slotSides keccak256 batches f.slot) f.minority.outputHash

/-- No slot with two providers or more has two majority outputs. -/
def UniqueMajority (batches : List DetectorBatch) : Prop :=
  ∀ slot, 2 ≤ providerCount (slotSides keccak256 batches slot) →
    ∀ a b, IsMajority (slotSides keccak256 batches slot) a →
      IsMajority (slotSides keccak256 batches slot) b → a = b

end Statement

end Prsm.Settlement
