import Prsm.Foundations.Machine
import Prsm.Epochs.Planning

/-!
# The epoch runner

`run_epoch` plans an epoch over the batches that its watermark does not know,
writes a manifest, broadcasts the root and advances the watermark.  The
watermark, the manifests and the pool are three stores, so a call is cut into the
steps that change one of them.  Between two steps the process may die, and
transactions may land or fail at any time.

The calls come one after the other, as nothing in the runner is shared between
two of them.  A transaction carries the plan behind its root, which the chain
does not see.
-/

namespace Prsm.Epochs

open Foundations Evm Settlement

/-! ## The watermark -/

/-- `str.lower`, which changes nothing the second time. -/
structure LowerCase where
  lower : String → String
  lower_lower : ∀ s, lower (lower s) = lower s

/-- What an `EpochWatermarkStore` holds.  The set of batch ids is kept as a
list. -/
structure EpochWatermark where
  consumed : List String
  lastEpochId : Option Int
  deriving DecidableEq

namespace EpochWatermark

/-- Nothing was ever published. -/
def cold : EpochWatermark := ⟨[], none⟩

def nextEpochId (w : EpochWatermark) : Int :=
  match w.lastEpochId with
  | none => 1
  | some last => last + 1

variable (lc : LowerCase)

/-- `load`: a missing file is a cold start. -/
def load : Option EpochWatermark → EpochWatermark
  | none => cold
  | some w => { w with consumed := w.consumed.map lc.lower }

/-- `commit_epoch` up to `_save`, or `none` when there is nothing to save. -/
def commitEpoch (w : EpochWatermark) (epochId : Int) (consumedBatchIds : List String) :
    Option EpochWatermark :=
  let new := (consumedBatchIds.map lc.lower).filter (· ∉ w.consumed)
  if w.lastEpochId.any (epochId ≤ ·) then
    if new = [] then none else some { w with consumed := w.consumed ++ new }
  else some ⟨w.consumed ++ new, some epochId⟩

def reconcileFromChain (w : EpochWatermark) (epochId : Int) (planBatchIds : List String)
    (publishedOnChain : Bool) : Option EpochWatermark :=
  if publishedOnChain = false ∨ w.lastEpochId.any (epochId ≤ ·) then none
  else w.commitEpoch lc epochId planBatchIds

end EpochWatermark

/-! ## The pool -/

def EmissionEpochPlan.totalAllocatedWei (plan : EmissionEpochPlan) : Int :=
  (plan.entries.map RewardEntry.amountWei).sum

/-- A transaction of `publish_epoch`. -/
structure PublishTx where
  epochId : Int
  merkleRoot : Bytes32
  totalAmountWei : Int
  /-- The plan that the root was built from, for specification. -/
  plan : EmissionEpochPlan

def publishTx (plan : EmissionEpochPlan) (reward : RewardEpoch) : PublishTx where
  epochId := plan.epochId
  merkleRoot := reward.merkleRoot
  totalAmountWei := plan.totalAllocatedWei
  plan := plan

/-- What the publisher has sent.  `published` is in the order of the blocks. -/
structure PoolChain where
  inFlight : List PublishTx
  published : List PublishTx

namespace PoolChain

def epochExists (chain : PoolChain) (epochId : Int) : Bool :=
  chain.published.any fun tx => tx.epochId = epochId

def send (chain : PoolChain) (tx : PublishTx) : PoolChain :=
  { chain with inFlight := chain.inFlight ++ [tx] }

/-- A transaction in flight is included in a block.  `publishEpoch` reverts on an
epoch that exists. -/
def land (chain : PoolChain) (i : Nat) : Option PoolChain := do
  let tx ← chain.inFlight[i]?
  some
    { inFlight := chain.inFlight.eraseIdx i
      published :=
        if chain.epochExists tx.epochId then chain.published else chain.published ++ [tx] }

/-- A transaction in flight reverts for another reason, or is dropped. -/
def fail (chain : PoolChain) (i : Nat) : PoolChain :=
  { chain with inFlight := chain.inFlight.eraseIdx i }

end PoolChain

/-! ## A call of `run_epoch` -/

/-- The file of `_write_manifest`, as the plan and the tree that it is written
from. -/
structure Manifest where
  plan : EmissionEpochPlan
  reward : RewardEpoch

/-- How far a call has come. -/
inductive RunnerCall
  | idle
  | planned (plan : EmissionEpochPlan) (reward : RewardEpoch) (manifestDir : Option String)
  | manifestWritten (plan : EmissionEpochPlan) (reward : RewardEpoch)
  /-- `publish_epoch` has returned. -/
  | published (plan : EmissionEpochPlan)
  deriving DecidableEq

/-- The stores of the runner.  `memory` is the watermark that the process has
loaded, and `disk` its file. -/
structure Runner where
  memory : Option EpochWatermark
  disk : Option EpochWatermark
  manifests : Dict (String × Int) Manifest
  call : RunnerCall
  chain : PoolChain

/-- The arguments of `run_epoch`. -/
structure RunArgs where
  batches : List FinalizedBatch
  potWei : Option Int
  manifestDir : Option String
  dryRun : Bool
  windowStart : Option Int
  windowEnd : Option Int

/-- The ways in which a call ends before it publishes. -/
inductive EpochRunAborted
  | watermarkLost (epochId : Int)
  | manifestMissing (epochId : Int)
  | watermarkNotSaved
  | alsoPublished (epochId : Int)
  | potExceedsBalance (potWei available : Int)
  | nothingToDistribute
  | planRaised

namespace Runner

def fresh : Runner := ⟨none, none, ∅, .idle, ⟨[], []⟩⟩

def loadManifestBatches (s : Runner) (manifestDir : Option String) (epochId : Int)
    (readable : Bool) : Option (List String) :=
  match manifestDir, readable with
  | some dir, true => (s.manifests.get? (dir, epochId)).map fun m => m.plan.consumedBatchIds
  | _, _ => none

section Calls

variable (lc : LowerCase) (codec : AddressCodec) (keccak256 : Keccak)

/-- The watermark of a call, which loads it when the process has not. -/
def watermark (s : Runner) : EpochWatermark := s.memory.getD (.load lc s.disk)

/-- The batches that a call adopts for its next epoch, which is published
already. -/
def adopted (s : Runner) (manifestDir : Option String) (readable : Bool) : Option (List String) :=
  if (s.watermark lc).lastEpochId = none ∨
      s.chain.epochExists (s.watermark lc).nextEpochId = false then none
  else s.loadManifestBatches manifestDir (s.watermark lc).nextEpochId readable

/-- The stores after `reconcile_from_chain` with the batches of the manifest, and
the watermark that the call goes on with. -/
def adopt (s : Runner) (prior : List String) (saved : Bool) :
    Runner × Except EpochRunAborted EpochWatermark :=
  let epochId := (s.watermark lc).nextEpochId
  match (s.watermark lc).reconcileFromChain lc epochId prior true with
  | none => ({ s with memory := some (s.watermark lc) }, .error (.alsoPublished epochId))
  | some w =>
      if saved = false then ({ s with memory := some w }, .error .watermarkNotSaved)
      else if s.chain.epochExists w.nextEpochId then
        ({ s with memory := some w, disk := some w }, .error (.alsoPublished w.nextEpochId))
      else ({ s with memory := some w, disk := some w }, .ok w)

/-- `run_epoch` up to the recovery from the chain. -/
def recover (s : Runner) (manifestDir : Option String) (readable saved : Bool) :
    Runner × Except EpochRunAborted EpochWatermark :=
  if s.chain.epochExists (s.watermark lc).nextEpochId = false then
    ({ s with memory := some (s.watermark lc) }, .ok (s.watermark lc))
  else if (s.watermark lc).lastEpochId = none then
    ({ s with memory := some (s.watermark lc) },
      .error (.watermarkLost (s.watermark lc).nextEpochId))
  else
    match s.adopted lc manifestDir readable with
    | none =>
        ({ s with memory := some (s.watermark lc) },
          .error (.manifestMissing (s.watermark lc).nextEpochId))
    | some prior => s.adopt lc prior saved

/-- The pot and the plan. -/
def planEpoch (w : EpochWatermark) (args : RunArgs) (available : Int) :
    Except EpochRunAborted (EmissionEpochPlan × RewardEpoch) :=
  if available < args.potWei.getD available then
    .error (.potExceedsBalance (args.potWei.getD available) available)
  else if args.potWei.getD available ≤ 0 then .error .nothingToDistribute
  else
    match buildEmissionEpoch codec lc.lower w.nextEpochId args.batches
        (args.potWei.getD available) w.consumed args.windowStart args.windowEnd with
    | none => .error .planRaised
    | some plan =>
        match planToRewardEpoch codec keccak256 plan with
        | none => .error .planRaised
        | some reward =>
            if plan.totalAllocatedWei = args.potWei.getD available then .ok (plan, reward)
            else .error .planRaised

end Calls

def writeManifest (s : Runner) (plan : EmissionEpochPlan) (reward : RewardEpoch) :
    Option String → Runner
  | none => s
  | some dir => { s with manifests := s.manifests.set (dir, plan.epochId) ⟨plan, reward⟩ }

end Runner

/-- How `publish_epoch` ends.  It returns once the transaction is sent. -/
inductive PublishOutcome
  | returned
  | raisedAfterSending
  | raisedBeforeSending

inductive RunnerInput
  /-- A call up to its plan.  The balance, and whether the manifest can be read
  and the watermark saved, are the world's. -/
  | runEpoch (args : RunArgs) (available : Int) (readable saved : Bool)
  | writeManifest (written : Bool)
  | publishEpoch (outcome : PublishOutcome)
  | commitEpoch (saved : Bool)
  | crash
  | land (i : Nat)
  | fail (i : Nat)

variable (lc : LowerCase) (codec : AddressCodec) (keccak256 : Keccak)

/-- One step of the runner or of the chain. -/
def runnerStep (s : Runner) : RunnerInput → Option Runner
  | .runEpoch args available readable saved =>
      match s.call with
      | .idle =>
          match s.recover lc args.manifestDir readable saved with
          | (s', .error _) => some s'
          | (s', .ok w) =>
              match Runner.planEpoch lc codec keccak256 w args available with
              | .error _ => some s'
              | .ok (plan, reward) =>
                  if args.dryRun then some s'
                  else some { s' with call := .planned plan reward args.manifestDir }
      | _ => none
  | .writeManifest written =>
      match s.call with
      | .planned plan reward manifestDir =>
          -- a call without a directory has nothing to write
          if written ∨ manifestDir = none then
            some { s.writeManifest plan reward manifestDir with
              call := .manifestWritten plan reward }
          else some { s with call := .idle }
      | _ => none
  | .publishEpoch outcome =>
      match s.call with
      | .manifestWritten plan reward =>
          match outcome with
          | .returned =>
              some { s with
                chain := s.chain.send (publishTx plan reward)
                call := .published plan }
          | .raisedAfterSending =>
              some { s with chain := s.chain.send (publishTx plan reward), call := .idle }
          | .raisedBeforeSending => some { s with call := .idle }
      | _ => none
  | .commitEpoch saved =>
      match s.call with
      | .published plan =>
          match (s.watermark lc).commitEpoch lc plan.epochId plan.consumedBatchIds with
          | none => some { s with call := .idle }
          | some w =>
              some { s with
                memory := some w
                disk := if saved then some w else s.disk
                call := .idle }
      | _ => none
  | .crash => some { s with memory := none, call := .idle }
  | .land i => do
      let chain ← s.chain.land i
      some { s with chain := chain }
  | .fail i => some { s with chain := s.chain.fail i }

def runnerMachine : Machine Runner RunnerInput := ⟨runnerStep lc codec keccak256⟩

end Prsm.Epochs
