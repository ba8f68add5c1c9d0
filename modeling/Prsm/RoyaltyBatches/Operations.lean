import Prsm.Foundations.Dict
import Prsm.Foundations.Machine
import Prsm.Foundations.Sums

/-!
# Batched settlement of royalties

`MultiPartyEscrow` adds royalties up by creator and pays them out in batches.  A
settlement reads the pending amounts, waits for the ledger and then clears the
creators it settled, so whatever else runs in between works on the same pending
amounts.  The ledger either pays a batch in one call or is asked for one transfer
after the other.

Amounts and times are exact rationals.  A call that waits is a task, and every
step of the machine is what runs between two awaits.  The machine also keeps, for
each creator, what was accumulated and what was paid.
-/

namespace Prsm.RoyaltyBatches

open Foundations

structure EscrowConfig where
  minBatchSize : Nat := 5
  minBatchValue : ℚ := 1 / 10
  maxBatchSize : Nat := 50
  maxPendingAge : ℚ := 3600
  requireOnchainAddress : Bool := false

structure PendingRoyalty where
  creatorId : String
  amount : ℚ
  sourceCid : String
  accessorId : String
  timestamp : ℚ
  creatorAddress : Option String := none

structure CreatorAccumulator where
  creatorId : String
  totalAmount : ℚ
  royalties : List PendingRoyalty
  onchainAddress : Option String := none
  firstTimestamp : ℚ := 0
  lastTimestamp : ℚ := 0

def CreatorAccumulator.add (acc : CreatorAccumulator) (royalty : PendingRoyalty) :
    CreatorAccumulator :=
  { acc with
    totalAmount := acc.totalAmount + royalty.amount
    royalties := acc.royalties ++ [royalty]
    firstTimestamp := if acc.firstTimestamp = 0 then royalty.timestamp else acc.firstTimestamp
    lastTimestamp := royalty.timestamp }

/-- The method that the ledger offers for paying, in the order in which the
escrow looks for them. -/
inductive LedgerKind
  | transferBatch
  | multicall
  | transfer
  deriving DecidableEq

structure MultiPartyEscrow where
  /-- `none` is the simulation mode. -/
  ftnsLedger : Option LedgerKind
  config : EscrowConfig
  /-- Whether there is a registry with `get_address`. -/
  creatorRegistry : Bool
  pending : Dict String CreatorAccumulator := ∅
  totalSettled : ℚ := 0

/-- The truth value of an optional string. -/
def truthy (s : Option String) : Bool := s.getD "" ≠ ""

namespace MultiPartyEscrow

variable (e : MultiPartyEscrow)

/-- What is pending for a creator. -/
def pendingAmount (creatorId : String) : ℚ :=
  ((e.pending.get? creatorId).map (·.totalAmount)).getD 0

/-! ## Accumulation -/

/-- `accumulate` waits for the registry: the creator has no accumulator yet and
the caller gave no address. -/
def awaitsAddress (royalty : PendingRoyalty) : Bool :=
  e.pending.get? royalty.creatorId = none ∧ ¬ truthy royalty.creatorAddress ∧ e.creatorRegistry

/-- A new accumulator, whatever was there, and the royalty added to it. -/
def startAccumulator (royalty : PendingRoyalty) (address : Option String) : MultiPartyEscrow :=
  { e with
    pending := e.pending.set royalty.creatorId
      (CreatorAccumulator.add
        { creatorId := royalty.creatorId
          totalAmount := 0
          royalties := []
          onchainAddress := address } royalty) }

/-- `accumulate` where it does not wait. -/
def accumulate (royalty : PendingRoyalty) : MultiPartyEscrow :=
  match e.pending.get? royalty.creatorId with
  | some acc => { e with pending := e.pending.set royalty.creatorId (acc.add royalty) }
  | none => e.startAccumulator royalty royalty.creatorAddress

/-! ## Settlement -/

/-- One recipient of a batch, with the amount read when the batch was made. -/
structure Entry where
  creatorId : String
  onchainAddress : String
  amount : ℚ

/-- The oldest pending timestamp. -/
def oldestPending : ℚ := ((e.pending.entries.map fun p => p.2.firstTimestamp).min?).getD 0

/-- The thresholds of `settle_batch`: too few creators, too little value and
nothing too old. -/
def belowThresholds (now : ℚ) : Bool :=
  e.pending.entries.length < e.config.minBatchSize ∧
    (e.pending.entries.map fun p => p.2.totalAmount).sum < e.config.minBatchValue ∧
    now - e.oldestPending < e.config.maxPendingAge

/-- The recipients and amounts of `_execute_onchain_settlement`.  With and without
`require_onchain_address` a creator without an address is left out. -/
def entriesOf (creators : List (String × CreatorAccumulator)) : List Entry :=
  creators.filterMap fun p =>
    if truthy p.2.onchainAddress then
      some ⟨p.1, p.2.onchainAddress.getD "", p.2.totalAmount⟩
    else none

/-- The batch that `settle_batch` makes, or `none` where it returns early. -/
def createBatch (force : Bool) (now : ℚ) : Option (List Entry) :=
  if e.pending.entries = [] then none
  else if force = false ∧ e.belowThresholds now then none
  else some (entriesOf (e.pending.entries.take e.config.maxBatchSize))

/-- Clear the settled creators and book what was pending for them. -/
def clearSettled (settledIds : List String) : MultiPartyEscrow :=
  settledIds.foldl (fun e creatorId =>
    match e.pending.get? creatorId with
    | none => e
    | some acc =>
        { e with
          pending := e.pending.erase creatorId
          totalSettled := e.totalSettled + acc.totalAmount }) e

end MultiPartyEscrow

open MultiPartyEscrow (Entry)

/-! ## A settlement that waits for the ledger -/

/-- What the ledger does with one call: it pays and says so, it refuses, or it
raises. -/
inductive Answer
  | success
  | failure
  | raised

/-- `int(amount * 1e18)`, as an amount. -/
def wholeWei (amount : ℚ) : ℚ := (amount * 10 ^ 18).num.tdiv (amount * 10 ^ 18).den / 10 ^ 18

/-- The amount that the ledger is asked to pay. -/
def LedgerKind.asked : LedgerKind → ℚ → ℚ
  | multicall, amount => wholeWei amount
  | _, amount => amount

structure Settlement where
  ledger : LedgerKind
  entries : List Entry
  /-- The transfers answered so far, in order: whether each succeeded. -/
  outcomes : List Bool := []

namespace Settlement

variable (t : Settlement)

/-- `address_to_creator.get(recipient, "")`: of creators with one address the
last. -/
def addressToCreator (recipient : String) : String :=
  ((Dict.ofEntries (t.entries.map fun entry =>
    (entry.onchainAddress, entry.creatorId))).get? recipient).getD ""

def settledCreators : List String :=
  ((t.entries.zip t.outcomes).filter (·.2)).map fun p => t.addressToCreator p.1.onchainAddress

/-- The creators that are cleared once every transfer is answered: none if all
failed, all if none failed, and `settled_creators` otherwise. -/
def clearedIds : List String :=
  if t.outcomes.all (!·) then []
  else if t.outcomes.all (·) then t.entries.map (·.creatorId)
  else t.settledCreators

/-- What the ledger pays with its answer, by creator. -/
def payments : Answer → List (String × ℚ)
  | .success =>
      match t.ledger with
      | .transfer =>
          (t.entries[t.outcomes.length]?).toList.map fun entry => (entry.creatorId, entry.amount)
      | ledger => t.entries.map fun entry => (entry.creatorId, ledger.asked entry.amount)
  | _ => []

/-- The next transfer is waited for, or the settlement is over and clears
creators. -/
inductive Progress
  | waiting (t : Settlement)
  | done (settledIds : List String)

/-- After one more transfer. -/
def nextTransfer (success : Bool) : Progress :=
  if t.outcomes.length + 1 < t.entries.length then
    .waiting { t with outcomes := t.outcomes ++ [success] }
  else .done (clearedIds { t with outcomes := t.outcomes ++ [success] })

/-- What follows the ledger's answer.  An exception ends the settlement without
clearing anybody, also when transfers before it succeeded. -/
def resume : Answer → Progress
  | .raised => .done []
  | .success =>
      match t.ledger with
      | .transfer => t.nextTransfer true
      | _ => .done (t.entries.map (·.creatorId))
  | .failure =>
      match t.ledger with
      | .transfer => t.nextTransfer false
      | _ => .done []

end Settlement

/-! ## The machine -/

structure World where
  escrow : MultiPartyEscrow
  /-- Calls of `accumulate` that wait for the registry. -/
  resolving : Dict Nat PendingRoyalty := ∅
  /-- Settlements that wait for the ledger. -/
  settling : Dict Nat Settlement := ∅
  accumulated : String → ℚ := fun _ => 0
  paid : String → ℚ := fun _ => 0

inductive Input
  | accumulate (task : Nat) (royalty : PendingRoyalty)
  | resolved (task : Nat) (address : Option String)
  | settleBatch (task : Nat) (force : Bool) (now : ℚ)
  | answered (task : Nat) (answer : Answer)

/-- Amounts added for creators. -/
def credit (amounts : String → ℚ) (entries : List (String × ℚ)) : String → ℚ :=
  fun creatorId => amounts creatorId + amountFor creatorId entries

namespace World

variable (w : World)

def step : Input → Option World
  | .accumulate task royalty =>
      if w.escrow.awaitsAddress royalty then
        if w.resolving.get? task = none then
          some { w with resolving := w.resolving.set task royalty }
        else none
      else some
        { w with
          escrow := w.escrow.accumulate royalty
          accumulated := credit w.accumulated [(royalty.creatorId, royalty.amount)] }
  | .resolved task address =>
      (w.resolving.get? task).map fun royalty =>
        { w with
          escrow := w.escrow.startAccumulator royalty address
          resolving := w.resolving.erase task
          accumulated := credit w.accumulated [(royalty.creatorId, royalty.amount)] }
  | .settleBatch task force now =>
      match w.escrow.createBatch force now, w.escrow.ftnsLedger with
      | none, _ => some w
      | some entries, none =>
          -- the simulation pays and clears without waiting
          some
            { w with
              escrow := w.escrow.clearSettled (entries.map (·.creatorId))
              paid := credit w.paid (entries.map fun entry => (entry.creatorId, entry.amount)) }
      | some [], some _ => some w
      | some entries, some ledger =>
          if w.settling.get? task = none then
            some { w with settling := w.settling.set task { ledger := ledger, entries := entries } }
          else none
  | .answered task answer =>
      (w.settling.get? task).map fun t =>
        match t.resume answer with
        | .waiting t' =>
            { w with
              settling := w.settling.set task t'
              paid := credit w.paid (t.payments answer) }
        | .done settledIds =>
            { w with
              escrow := w.escrow.clearSettled settledIds
              settling := w.settling.erase task
              paid := credit w.paid (t.payments answer) }

/-- No call waits. -/
def Quiescent : Prop := w.resolving.entries = [] ∧ w.settling.entries = []

instance : Decidable w.Quiescent := inferInstanceAs (Decidable (_ ∧ _))

end World

def escrowMachine : Machine World Input where
  step := World.step

/-- A new escrow. -/
def newEscrow (ftnsLedger : Option LedgerKind) (config : EscrowConfig) (creatorRegistry : Bool) :
    World where
  escrow :=
    { ftnsLedger := ftnsLedger
      config := config
      creatorRegistry := creatorRegistry }

end Prsm.RoyaltyBatches
