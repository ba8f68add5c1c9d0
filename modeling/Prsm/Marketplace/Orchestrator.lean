import Prsm.Foundations.Protocol

/-!
# `MarketplaceOrchestrator`

One call runs the shards of a job one after another, each on one provider or, where the
policy asks for consensus, on several.  The budget of the job and what it has spent are
attributes of the orchestrator.  Quotes and dispatches are requests, at each of which
other calls run.

`payments` and `agreements` are no attributes of the source: they record what was released
to providers for each call, and at which quotes its shards were completed.
-/

namespace Prsm.Marketplace

open Foundations

structure Listing where
  providerId : String
  pricePerShard : ℚ
  capacityShardsPerSec : ℚ
  stakeTier : String
  deriving DecidableEq

/-- The fields of a `DispatchPolicy` that the orchestrator reads; `maxPricePerShard` is
`none` where it is infinite. -/
structure Policy where
  maxPricePerShard : Option ℚ
  maxTotalJob : ℚ
  minPricePerShard : ℚ
  requireTee : Bool
  minStakeTier : String
  consensusMode : Option String
  consensusK : ℕ
  requesterPriorityBoost : ℚ
  deriving DecidableEq

structure Shard where
  shardIndex : ℤ
  size : ℕ
  deriving DecidableEq

/-- A call of `orchestrate_sharded_inference`, with what the filter leaves of the
directory. -/
structure Call where
  shards : List Shard
  jobId : String
  policy : Policy
  eligible : List Listing
  deriving DecidableEq

/-- The answer of a price handshake. -/
inductive Quote
  | timeout
  | rejected
  | quoted (price : ℚ)
  | raised

/-- How the dispatch to one provider ends. -/
inductive DispatchOutcome
  | completed (hasReceipt : Bool)
  | preempted
  | missingAttestation
  | dispatchError
  | raised
  deriving DecidableEq

/-- How the dispatch to several providers ends. -/
inductive ConsensusOutcome
  | agreed
  | insufficientResponses
  | consensusFailed
  | raised

inductive Error
  | noEligibleProviders
  | jobBudgetExceeded (shardIndex : ℤ) (spent quoted budget : ℚ)
  | notWired
  | noneSelected
  | quoteRaised
  | dispatchRaised

inductive Request
  | requestQuote (providerId : String) (shard : Shard) (maxPrice : Option ℚ) (minPrice : ℚ)
  | dispatch (shard : Shard) (nodeId jobId stakeTier : String) (escrowAmount : ℚ)
      (requireTee : Bool)
  | dispatchWithConsensus (shard : Shard) (nodeIds : List String) (jobId stakeTier : String)
      (escrowPerProvider : ℚ) (requireTee : Bool)
  | accumulate (providerId jobId : String) (shard : Shard) (price : ℚ)

@[reducible] def Answer : Request → Type
  | .requestQuote _ _ _ _ => Quote
  | .dispatch _ _ _ _ _ _ => DispatchOutcome
  | .dispatchWithConsensus _ _ _ _ _ _ => ConsensusOutcome
  | .accumulate _ _ _ _ => Unit

/-- The attributes of the orchestrator and, for each provider, its tier on chain, or `none`
where the gate lets it pass unasked. -/
structure State where
  jobBudget : ℚ
  jobSpent : ℚ
  effectiveTier : String → Option String
  payments : List (ℕ × ℚ)
  agreements : List (ℕ × ℚ)

/-- What the orchestrator is wired with. -/
structure Config where
  batchedSettlement : Bool
  multiDispatcher : Bool

@[reducible] def Method (α : Type) : Type := Coroutine State Request Answer Error α

open Coroutine (ask)

/-! ## Selection -/

def tierOrder : String → ℤ
  | "open" => 0
  | "standard" => 1
  | "premium" => 2
  | "critical" => 3
  | _ => -1

def State.onchainTierMeets (s : State) (policy : Policy) (listing : Listing) : Bool :=
  policy.minStakeTier = "open" ||
    match s.effectiveTier listing.providerId with
    | none => true
    | some tier => tierOrder policy.minStakeTier ≤ tierOrder tier

def stakeTierFor (label : String) : String :=
  if label ∈ ["open", "standard", "premium", "critical"] then label else "standard"

/-- Cheapest first, then by id. -/
def ranked (eligible : List Listing) : List Listing :=
  eligible.insertionSort fun a b =>
    a.pricePerShard < b.pricePerShard ∨
      (a.pricePerShard = b.pricePerShard ∧ a.providerId ≤ b.providerId)

def tierScore : String → ℚ
  | "open" => 1
  | "standard" => 2
  | "premium" => 3
  | "critical" => 4
  | _ => 0

/-- The score of a listing in `_select_top_k`. -/
def score (maxCap boost : ℚ) (listing : Listing) : ℚ :=
  let base := tierScore listing.stakeTier / max listing.pricePerShard (1 / 10 ^ 9)
  if 0 < boost ∧ 0 < maxCap then
    base * (1 + boost * (max listing.capacityShardsPerSec 0 / maxCap))
  else base

def selectTopK (listings : List Listing) (k : ℕ) (boost : ℚ) : List Listing :=
  let maxCap := (listings.map fun l => max l.capacityShardsPerSec 0).foldl max 0
  (listings.insertionSort fun a b =>
    score maxCap boost b < score maxCap boost a ∨
      (score maxCap boost a = score maxCap boost b ∧ a.providerId ≤ b.providerId)).take k

/-! ## One shard -/

section Dispatch

variable (config : Config) (call : Call) (shard : Shard)

/-- The quote is above the ceiling of the policy. -/
def overCeiling (policy : Policy) (price : ℚ) : Bool :=
  match policy.maxPricePerShard with
  | none => false
  | some maxPrice => maxPrice < price

/-- `_accumulate_settlement_receipt`, where batched settlement is wired. -/
def forwardReceipt (listing : Listing) (quoted : ℚ) (hasReceipt : Bool) : Method Unit :=
  if config.batchedSettlement && hasReceipt then
    ask (Request.accumulate listing.providerId call.jobId shard quoted)
  else pure ()

/-- The part of the loop body of `_dispatch_one_shard` that follows the checks of a quote.
The result is whether the shard is done. -/
def dispatchQuoted (listing : Listing) (quoted : ℚ) : Method Bool := do
  let budget ← Coroutine.gets State.jobBudget
  let spent ← Coroutine.gets State.jobSpent
  if 0 < budget ∧ budget < spent + quoted then
    throw (.jobBudgetExceeded shard.shardIndex spent quoted budget)
  else
    match ← ask (Request.dispatch shard listing.providerId call.jobId
      (stakeTierFor listing.stakeTier) quoted call.policy.requireTee) with
    | .preempted => pure false
    | .missingAttestation => pure false
    | .dispatchError => throw .dispatchRaised
    | .raised => throw .dispatchRaised
    | .completed hasReceipt => do
        Coroutine.modify fun s => { s with jobSpent := s.jobSpent + quoted }
        forwardReceipt config call shard listing quoted hasReceipt
        pure true

/-- The loop body of `_dispatch_one_shard`. -/
def tryListing (listing : Listing) : Method Bool := do
  if !(← Coroutine.gets fun s => s.onchainTierMeets call.policy listing) then
    pure false
  else
    match ← ask (Request.requestQuote listing.providerId shard call.policy.maxPricePerShard
      call.policy.minPricePerShard) with
    | .raised => throw .quoteRaised
    | .timeout => pure false
    | .rejected => pure false
    | .quoted price =>
        if overCeiling call.policy price then pure false
        else if price < 0 then pure false
        else dispatchQuoted config call shard listing price

def dispatchOneShard : List Listing → Method Unit
  | [] => throw .noEligibleProviders
  | listing :: rest => do
      if ← tryListing config call shard listing then
        pure ()
      else
        dispatchOneShard rest

/-- What the providers of a shard share in consensus mode, or `none` where nobody is
selected. -/
def totalBudget (policy : Policy) (selected : List Listing) : Option ℚ :=
  match policy.maxPricePerShard with
  | some maxPrice => if selected = [] then none else some maxPrice
  | none =>
      (selected.map Listing.pricePerShard).max?.map fun price => price * policy.consensusK

def dispatchOneShardWithConsensus (eligible : List Listing) : Method Unit := do
  if !config.multiDispatcher then
    throw .notWired
  else do
    let tierEligible ← Coroutine.gets fun s =>
      eligible.filter fun l => s.onchainTierMeets call.policy l
    if tierEligible.length < call.policy.consensusK then
      throw .noEligibleProviders
    else
      let selected := selectTopK tierEligible call.policy.consensusK
        call.policy.requesterPriorityBoost
      match selected.head?, totalBudget call.policy selected with
      | some first, some total =>
          match ← ask (Request.dispatchWithConsensus shard (selected.map Listing.providerId)
            call.jobId (stakeTierFor first.stakeTier) (total / call.policy.consensusK)
            call.policy.requireTee) with
          | .agreed => pure ()
          | .insufficientResponses => throw .noEligibleProviders
          | .consensusFailed => throw .noEligibleProviders
          | .raised => throw .dispatchRaised
      | _, _ => throw .noneSelected

end Dispatch

/-! ## The job -/

section Job

variable (config : Config) (call : Call)

def Policy.consensusRequested (policy : Policy) : Bool :=
  policy.consensusMode.isSome && policy.consensusMode ≠ some "single"

def dispatchShard (shard : Shard) : Method Unit :=
  if call.policy.consensusRequested then
    dispatchOneShardWithConsensus config call shard (ranked call.eligible)
  else
    dispatchOneShard config call shard (ranked call.eligible)

def dispatchShards : List Shard → Method Unit
  | [] => pure ()
  | shard :: rest => do
      dispatchShard config call shard
      dispatchShards rest

def orchestrateShardedInference : Method Unit := do
  if call.eligible = [] then
    throw .noEligibleProviders
  else do
    Coroutine.modify fun s => { s with jobBudget := call.policy.maxTotalJob, jobSpent := 0 }
    dispatchShards config call call.shards

end Job

/-! ## Calls together -/

/-- What the environment decides of an answer: how a request ends, what a dispatch has
released, and the tiers on chain from then on. -/
structure Choice where
  quote : Quote
  outcome : DispatchOutcome
  consensus : ConsensusOutcome
  released : ℚ
  effectiveTier : String → Option String

def serve (me : ℕ) (choice : Choice) (s : State) : (r : Request) → Option (Answer r × State)
  | .requestQuote _ _ _ _ =>
      some (choice.quote, { s with effectiveTier := choice.effectiveTier })
  | .dispatch _ _ _ _ escrowAmount _ =>
      some (choice.outcome, { s with
        effectiveTier := choice.effectiveTier
        payments := (me, choice.released) :: s.payments
        agreements := match choice.outcome with
          | .completed _ => (me, escrowAmount) :: s.agreements
          | _ => s.agreements })
  | .dispatchWithConsensus _ _ _ _ _ _ =>
      some (choice.consensus, { s with
        effectiveTier := choice.effectiveTier
        payments := (me, choice.released) :: s.payments })
  | .accumulate _ _ _ _ => some ((), { s with effectiveTier := choice.effectiveTier })

def program (config : Config) : Program State Request Answer Error Unit Call Choice where
  body := fun _ call => orchestrateShardedInference config call
  serve := serve
  restart := fun _ => none

@[reducible] def MarketPool : Type := Pool State Request Answer Error Unit Call

def start (effectiveTier : String → Option String) : MarketPool :=
  ⟨⟨0, 0, effectiveTier, [], []⟩, []⟩

end Prsm.Marketplace
