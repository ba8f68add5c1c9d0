import Prsm.Foundations.Protocol
import Prsm.Settlement.Receipt

/-!
# The queue of consensus challenges

`ConsensusChallengeQueue` is one SQLite table.  Each of its methods runs under a lock
and commits, so it is one step; the runners of `process_submittable_queue` are threads
or processes of their own, and between two steps of one runner any other may work.  A
runner that crashes is one that takes no further step: the table is on the disk.

Each time a method reads the clock or draws a random number, the answer to the
request brings the value, and so does the outcome of a submitted challenge.
-/

namespace Prsm.ConsensusQueue

open Foundations
open Settlement (ShardExecutionReceipt)
open Evm (Bytes)

inductive Status
  | pending
  | submittable
  | submitted
  | failed
  deriving DecidableEq

/-- A row of `consensus_challenges`. -/
structure PendingChallenge where
  rowId : ℕ
  jobId : String
  shardIndex : ℤ
  agreedOutputHash : String
  valueFtnsPerProviderWei : ℤ
  minorityProviderId : String
  minorityReceipt : ShardExecutionReceipt
  majorityProviderId : String
  majorityReceipt : ShardExecutionReceipt
  minorityBatchId : Option Bytes
  majorityBatchId : Option Bytes
  status : Status
  attempts : ℕ
  lastError : Option String
  lastTxHash : Option String
  claimedBy : Option String
  claimedAt : Option ℚ
  leaseExpiresAt : Option ℚ
  createdAt : ℚ
  updatedAt : ℚ

/-- What the orchestrator drains for one shard. -/
structure DrainedEntry where
  jobId : String
  shardIndex : ℤ
  agreedOutputHash : String
  valueFtnsPerProviderWei : ℤ
  majorityReceipts : List ShardExecutionReceipt
  minorityReceipts : List ShardExecutionReceipt

/-- `ChallengeResult`. -/
structure ChallengeResult where
  success : Bool
  txHashHex : Option String
  errorType : Option String
  errorMessage : Option String

inductive Error
  | batchIdLength (length : ℕ)
  | attemptRaised (message : String)

/-- The table, in the order of the row ids. -/
structure Queue where
  rows : List PendingChallenge

/-- `UPDATE … WHERE` on one row. -/
def updated (selected : PendingChallenge → Bool) (f : PendingChallenge → PendingChallenge)
    (r : PendingChallenge) : PendingChallenge :=
  if selected r then f r else r

/-- `UPDATE … WHERE`. -/
def update (selected : PendingChallenge → Bool) (f : PendingChallenge → PendingChallenge)
    (rows : List PendingChallenge) : List PendingChallenge :=
  rows.map (updated selected f)

/-- `ORDER BY created_at ASC`. -/
def oldestFirst (rows : List PendingChallenge) : List PendingChallenge :=
  rows.mergeSort fun r r' => r.createdAt ≤ r'.createdAt

/-- `LIMIT`, where a negative limit is none. -/
def limited {α : Type} (limit : ℤ) (rows : List α) : List α :=
  if limit < 0 then rows else rows.take limit.toNat

/-! ## Enqueue -/

/-- The receipt with the lowest provider id, the first one of several. -/
def canonicalMajority : List ShardExecutionReceipt → Option ShardExecutionReceipt
  | [] => none
  | r :: rest =>
      some (rest.foldl (fun best r => if r.providerId < best.providerId then r else best) r)

/-- `INSERT INTO consensus_challenges`. -/
def insert (now : ℚ) (entry : DrainedEntry) (majority : ShardExecutionReceipt)
    (rows : List PendingChallenge) (minority : ShardExecutionReceipt) : List PendingChallenge :=
  rows ++ [{
    rowId := rows.length + 1
    jobId := entry.jobId
    shardIndex := entry.shardIndex
    agreedOutputHash := entry.agreedOutputHash
    valueFtnsPerProviderWei := entry.valueFtnsPerProviderWei
    minorityProviderId := minority.providerId
    minorityReceipt := minority
    majorityProviderId := majority.providerId
    majorityReceipt := majority
    minorityBatchId := none
    majorityBatchId := none
    status := .pending
    attempts := 0
    lastError := none
    lastTxHash := none
    claimedBy := none
    claimedAt := none
    leaseExpiresAt := none
    createdAt := now
    updatedAt := now }]

/-- One drained entry: a row for each minority receipt, or none if there is no
majority receipt to pair them with. -/
def enqueueEntry (now : ℚ) (rows : List PendingChallenge) (entry : DrainedEntry) :
    List PendingChallenge :=
  match canonicalMajority entry.majorityReceipts with
  | none => rows
  | some majority => entry.minorityReceipts.foldl (insert now entry majority) rows

/-- `enqueue_from_drained`, with the ids of the new rows. -/
def enqueueFromDrained (drainedEntries : List DrainedEntry) (now : ℚ) (q : Queue) :
    List ℕ × Queue :=
  let rows := drainedEntries.foldl (enqueueEntry now) q.rows
  ((rows.drop q.rows.length).map PendingChallenge.rowId, ⟨rows⟩)

/-! ## Batch-commit coordination -/

namespace PendingChallenge

/-- The row is one of this shard and still open. -/
def isPendingOf (jobId : String) (shardIndex : ℤ) (r : PendingChallenge) : Bool :=
  r.jobId = jobId && r.shardIndex = shardIndex && r.status = .pending

def awaitsMinority (providerId jobId : String) (shardIndex : ℤ) (r : PendingChallenge) : Bool :=
  r.minorityProviderId = providerId && r.isPendingOf jobId shardIndex && r.minorityBatchId.isNone

def awaitsMajority (providerId jobId : String) (shardIndex : ℤ) (r : PendingChallenge) : Bool :=
  r.majorityProviderId = providerId && r.isPendingOf jobId shardIndex && r.majorityBatchId.isNone

def isComplete (r : PendingChallenge) : Bool :=
  r.status = .pending && r.minorityBatchId.isSome && r.majorityBatchId.isSome

def setMinority (batchId : Bytes) (now : ℚ) (r : PendingChallenge) : PendingChallenge :=
  { r with minorityBatchId := some batchId, updatedAt := now }

def setMajority (batchId : Bytes) (now : ℚ) (r : PendingChallenge) : PendingChallenge :=
  { r with majorityBatchId := some batchId, updatedAt := now }

def promote (now : ℚ) (r : PendingChallenge) : PendingChallenge :=
  { r with status := .submittable, updatedAt := now }

end PendingChallenge

def recordBatchCommit (providerId jobId : String) (shardIndex : ℤ) (batchId : Bytes) (now : ℚ)
    (q : Queue) : Except Error (ℕ × Queue) :=
  if batchId.length ≠ 32 then .error (.batchIdLength batchId.length)
  else
    let rows := update (·.awaitsMinority providerId jobId shardIndex)
      (·.setMinority batchId now) q.rows
    let rows' := update (·.awaitsMajority providerId jobId shardIndex)
      (·.setMajority batchId now) rows
    let touched := q.rows.countP (·.awaitsMinority providerId jobId shardIndex) +
      rows.countP (·.awaitsMajority providerId jobId shardIndex)
    .ok (touched, ⟨update (·.isComplete) (·.promote now) rows'⟩)

/-! ## The API of the runners -/

/-- Not claimed, or under a claim whose lease has run out. -/
def PendingChallenge.claimable (now : ℚ) (r : PendingChallenge) : Bool :=
  r.status = .submittable &&
    (r.claimedBy.isNone || r.leaseExpiresAt.any fun expires => expires < now)

/-- The ids of the rows that a claim takes. -/
def picked (limit : ℤ) (now : ℚ) (q : Queue) : List ℕ :=
  (limited limit (oldestFirst (q.rows.filter (·.claimable now)))).map PendingChallenge.rowId

namespace PendingChallenge

def claim (claimToken : String) (leaseSeconds now : ℚ) (r : PendingChallenge) :
    PendingChallenge :=
  { r with
    claimedBy := some claimToken
    claimedAt := some now
    leaseExpiresAt := some (now + leaseSeconds)
    updatedAt := now }

/-- An attempt has been made, and the lease is given up. -/
def marked (now : ℚ) (r : PendingChallenge) : PendingChallenge :=
  { r with
    attempts := r.attempts + 1
    updatedAt := now
    claimedBy := none
    claimedAt := none
    leaseExpiresAt := none }

def markSubmitted (txHashHex : Option String) (now : ℚ) (r : PendingChallenge) :
    PendingChallenge :=
  { r.marked now with status := .submitted, lastTxHash := txHashHex, lastError := none }

def markFailed (error : String) (terminal : Bool) (now : ℚ) (r : PendingChallenge) :
    PendingChallenge :=
  { r.marked now with
    status := if terminal then .failed else .submittable
    lastError := some error }

end PendingChallenge

/-- `claim_submittable` with the token of this call. -/
def claimSubmittable (claimToken : String) (leaseSeconds : ℚ) (limit : ℤ) (now : ℚ) (q : Queue) :
    List PendingChallenge × Queue :=
  let rows := update (·.rowId ∈ picked limit now q) (·.claim claimToken leaseSeconds now) q.rows
  (oldestFirst (rows.filter (·.claimedBy = some claimToken)), ⟨rows⟩)

def markSubmitted (rowId : ℕ) (txHashHex : Option String) (now : ℚ) (q : Queue) : Queue :=
  ⟨update (·.rowId = rowId) (·.markSubmitted txHashHex now) q.rows⟩

def markFailed (rowId : ℕ) (errorType errorMessage : String) (terminal : Bool) (now : ℚ)
    (q : Queue) : Queue :=
  ⟨update (·.rowId = rowId) (·.markFailed (errorType ++ ": " ++ errorMessage) terminal now)
    q.rows⟩

/-- A step on the queue, or the submission of a challenge.  The last three name the row
that the runner works on, as its claim has handed it out; the marks use its id only. -/
inductive Request
  | enqueueFromDrained (drainedEntries : List DrainedEntry)
  | recordBatchCommit (providerId jobId : String) (shardIndex : ℤ) (batchId : Bytes)
  | claimSubmittable (claimantId : String) (leaseSeconds : ℚ) (limit : ℤ)
  | submitOne (row : PendingChallenge)
  | markSubmitted (row : PendingChallenge) (txHashHex : Option String)
  | markFailed (row : PendingChallenge) (errorType errorMessage : String) (terminal : Bool)

@[reducible] def Answer : Request → Type
  | .enqueueFromDrained _ => List ℕ
  | .recordBatchCommit _ _ _ _ => Except Error ℕ
  | .claimSubmittable _ _ _ => List PendingChallenge
  | .submitOne _ => Except Error ChallengeResult
  | .markSubmitted _ _ => Unit
  | .markFailed _ _ _ _ => Unit

/-- What the environment decides of an answer: the clock, `uuid4().hex`, and what comes
of a challenge (an error, where the attempt cannot be built). -/
structure Moment where
  now : ℚ
  hex : String
  outcome : Except Error ChallengeResult

/-- `claimed_by` of a claim. -/
def claimToken (claimantId hex : String) : String :=
  claimantId ++ ":" ++ hex

def serve (_ : ℕ) (moment : Moment) (q : Queue) : (r : Request) → Option (Answer r × Queue)
  | .enqueueFromDrained drainedEntries => some (enqueueFromDrained drainedEntries moment.now q)
  | .recordBatchCommit providerId jobId shardIndex batchId =>
      match recordBatchCommit providerId jobId shardIndex batchId moment.now q with
      | .ok (touched, q') => some (.ok touched, q')
      | .error e => some (.error e, q)
  | .claimSubmittable claimantId leaseSeconds limit =>
      some (claimSubmittable (claimToken claimantId moment.hex) leaseSeconds limit moment.now q)
  | .submitOne _ => some (moment.outcome, q)
  | .markSubmitted row txHashHex => some ((), markSubmitted row.rowId txHashHex moment.now q)
  | .markFailed row errorType errorMessage terminal =>
      some ((), markFailed row.rowId errorType errorMessage terminal moment.now q)

@[reducible] def Method (α : Type) : Type := Coroutine Queue Request Answer Error α

open Coroutine (ask)

/-- `_RETRYABLE_ERROR_TYPES`. -/
def isRetryableType (errorType : Option String) : Bool :=
  errorType = some "BroadcastFailedError"

/-- Python's `or` on a string that may be missing. -/
def orElse (text : Option String) (default : String) : String :=
  match text with
  | some t => if t = "" then default else t
  | none => default

/-- The loop of `process_submittable_queue` over the rows that it has claimed. -/
def processRows (maxAttempts : ℤ) : List PendingChallenge → List ChallengeResult →
    Method (List ChallengeResult)
  | [], results => pure results
  | row :: rows, results => do
      match ← ask (Request.submitOne row) with
      | .error e => throw e
      | .ok result =>
          if result.success then
            ask (Request.markSubmitted row result.txHashHex)
          else
            let underCap : Bool := (row.attempts : ℤ) + 1 < maxAttempts
            let terminal := !(isRetryableType result.errorType && underCap)
            ask (Request.markFailed row (orElse result.errorType "UnknownError")
              (orElse result.errorMessage "") terminal)
          processRows maxAttempts rows (results ++ [result])

def defaultLeaseSeconds : ℚ := 300

/-- `process_submittable_queue` with a claimant id. -/
def processSubmittableQueue (limit maxAttempts : ℤ) (claimantId : String)
    (leaseSeconds : Option ℚ) : Method (List ChallengeResult) := do
  let rows ← ask (Request.claimSubmittable claimantId (leaseSeconds.getD defaultLeaseSeconds) limit)
  processRows maxAttempts rows []

inductive Call
  | enqueueFromDrained (drainedEntries : List DrainedEntry)
  | recordBatchCommit (providerId jobId : String) (shardIndex : ℤ) (batchId : Bytes)
  | processSubmittableQueue (limit maxAttempts : ℤ) (claimantId : String)
      (leaseSeconds : Option ℚ)

inductive Reply
  | rowIds (ids : List ℕ)
  | touched (count : ℕ)
  | results (results : List ChallengeResult)

def body (_ : ℕ) : Call → Method Reply
  | .enqueueFromDrained drainedEntries => do
      pure (.rowIds (← ask (Request.enqueueFromDrained drainedEntries)))
  | .recordBatchCommit providerId jobId shardIndex batchId => do
      match ← ask (Request.recordBatchCommit providerId jobId shardIndex batchId) with
      | .error e => throw e
      | .ok count => pure (.touched count)
  | .processSubmittableQueue limit maxAttempts claimantId leaseSeconds => do
      pure (.results (← processSubmittableQueue limit maxAttempts claimantId leaseSeconds))

/-- All runners and all callers of the queue. -/
def service : Program Queue Request Answer Error Reply Call Moment where
  body := body
  serve := serve
  restart := fun _ => none

end Prsm.ConsensusQueue
