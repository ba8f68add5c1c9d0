import Prsm.Registry.State

/-!
# `BatchSettlementRegistry`: the functions of the contract

Each definition follows the body of the source function of the same name, with
its checks in the same order.  A function returns the new state and the
effects of the transaction, or the error it reverts with.

External calls are modelled without re-entry.  The two of them that may call
back, `settleFromRequester` and `slash`, are the last thing their functions do
to storage, so a transaction entered from inside them is the same as one that
comes right after.
-/

namespace Prsm.Registry

open Foundations Evm

variable (keccak256 : Keccak)

abbrev Outcome := Except Error (State × List Effect)

def panic : Error := .platform .panicArithmetic

def State.whenNotPaused (s : State) : Except Error Unit :=
  raise .platform (Evm.whenNotPaused s.paused)

def State.onlyOwner (s : State) (env : Env) : Except Error Unit :=
  raise .platform (s.ownable.onlyOwner env.sender)

def State.initial (ownable : Ownable2Step) (initialChallengeWindow : Nat) : State where
  ownable := ownable
  paused := false
  challengeWindowSeconds := initialChallengeWindow
  escrowPool := 0
  stakeBond := 0
  signatureVerifier := 0
  settlementLookbackWindowSeconds := 30 * 86400
  invalidatedReceipts := fun _ _ => false
  providerBatchSequence := fun _ => 0
  batches := fun _ => Batch.zero
  lastPendingBatchExpiry := fun _ => 0
  lastPendingBatchPausedAtAccrual := fun _ => 0
  totalPausedSeconds := 0
  pauseStartedAt := 0

def construct (initialOwner : Address) (initialChallengeWindow : Nat) : Except Error State := do
  let ownable ← raise .platform (Ownable2Step.construct initialOwner)
  require (minChallengeWindowSeconds ≤ initialChallengeWindow ∧
      initialChallengeWindow ≤ maxChallengeWindowSeconds)
    (.invalidChallengeWindow initialChallengeWindow)
  pure (State.initial ownable initialChallengeWindow)

/-! ## Commit -/

/-- The arguments of a commit.  `commitBatch` passes a zero attestation. -/
structure CommitArgs where
  requester : Address
  merkleRoot : Bytes32
  receiptCount : Uint 256
  totalValueFTNS : Uint 256
  tierSlashRateBps : Uint 16
  consensusGroupId : Bytes32
  metadataURI : String
  attestationCommitment : Bytes32

/-- `keccak256(abi.encode(msg.sender, requester, merkleRoot, receiptCount,
block.number, sequence))`. -/
def batchIdOf (env : Env) (args : CommitArgs) (sequence : Nat) : Bytes32 :=
  keccak256 (abiEncode [env.sender, args.requester, args.merkleRoot, args.receiptCount,
    env.block.number, sequence])

/-- The record a commit writes. -/
def State.newBatch (s : State) (env : Env) (args : CommitArgs) : Batch where
  provider := env.sender
  requester := args.requester
  merkleRoot := args.merkleRoot
  receiptCount := args.receiptCount
  totalValueFTNS := args.totalValueFTNS
  invalidatedValueFTNS := 0
  commitTimestamp := uint64 env.timestamp
  status := .pending
  tierSlashRateBps := args.tierSlashRateBps
  consensusGroupId := args.consensusGroupId
  lookbackWindowSecondsAtCommit := uint64 s.settlementLookbackWindowSeconds
  totalPausedAtBatchOrigin := uint64 s.totalPausedSeconds
  challengeWindowSecondsAtCommit := uint64 s.challengeWindowSeconds
  escrowPoolAtCommit := s.escrowPool
  stakeBondAtCommit := s.stakeBond
  signatureVerifierAtCommit := s.signatureVerifier
  metadataURI := args.metadataURI
  attestationCommitment := args.attestationCommitment

/-- The expiry that a commit at this moment offers to the tracker. -/
def State.newExpiry (s : State) (env : Env) : Nat :=
  uint64 (env.timestamp + uint64 s.challengeWindowSeconds)

/-- The tracker update: the pair is overwritten when the new expiry is strictly
later than the stored one. -/
def State.trackExpiry (s : State) (env : Env) : State :=
  if s.lastPendingBatchExpiry env.sender < s.newExpiry env then
    { s with
      lastPendingBatchExpiry :=
        Function.update s.lastPendingBatchExpiry env.sender (s.newExpiry env)
      lastPendingBatchPausedAtAccrual :=
        Function.update s.lastPendingBatchPausedAtAccrual env.sender
          (uint64 s.totalPausedSeconds) }
  else s

/-- Storage after `args` has been committed under `batchId`. -/
def State.commit (s : State) (env : Env) (args : CommitArgs) (batchId : Bytes32) : State :=
  { s.trackExpiry env with
    providerBatchSequence := Function.update s.providerBatchSequence env.sender
      (s.providerBatchSequence env.sender + 1)
    batches := Function.update s.batches batchId (s.newBatch env args) }

def commitEffects (env : Env) (args : CommitArgs) (batchId : Bytes32) : List Effect :=
  .batchCommitted batchId env.sender args.merkleRoot args.receiptCount args.totalValueFTNS
      (uint64 env.timestamp) args.metadataURI ::
    if args.attestationCommitment ≠ 0 then
      [.batchAttestationCommitted batchId env.sender args.attestationCommitment]
    else []

/-- `_commitBatch`. -/
def commitCore (env : Env) (s : State) (args : CommitArgs) : Outcome := do
  require (args.requester ≠ 0) .zeroRequester
  require (args.merkleRoot ≠ 0) .emptyMerkleRoot
  require (args.receiptCount ≠ 0) .zeroReceiptCount
  require (args.tierSlashRateBps.val ≤ 10000) (.invalidSlashRateBps args.tierSlashRateBps)
  let sequence := s.providerBatchSequence env.sender
  let _ ← checkedAdd 256 panic sequence 1
  let batchId := batchIdOf keccak256 env args sequence
  require ((s.batches batchId).status = .nonexistent) (.batchAlreadyCommitted batchId)
  pure (s.commit env args batchId, commitEffects env args batchId)

def commitBatch (env : Env) (s : State) (args : CommitArgs) : Outcome := do
  s.whenNotPaused
  commitCore keccak256 env s { args with attestationCommitment := 0 }

def commitBatchWithAttestation (env : Env) (s : State) (args : CommitArgs) : Outcome := do
  s.whenNotPaused
  commitCore keccak256 env s args

/-! ## Time -/

/-- `_effectiveElapsed`: seconds since the commit, less the seconds of the
pauses that were completed since. -/
def effectiveElapsed (s : State) (timestamp : Nat) (b : Batch) : Except Error Nat := do
  let wall ← checkedSub panic timestamp b.commitTimestamp
  let pausedSinceCommit ← checkedSub panic s.totalPausedSeconds b.totalPausedAtBatchOrigin
  pure (if pausedSinceCommit < wall then wall - pausedSinceCommit else 0)

def isFinalizable (s : State) (timestamp : Nat) (batchId : Bytes32) : Except Error Bool := do
  let b := s.batches batchId
  if b.status ≠ .pending then
    pure false
  else do
    let elapsed ← effectiveElapsed s timestamp b
    pure (decide (b.challengeWindowSecondsAtCommit ≤ elapsed))

def secondsUntilFinalizable (s : State) (timestamp : Nat) (batchId : Bytes32) :
    Except Error Nat := do
  let b := s.batches batchId
  if b.status ≠ .pending then
    pure 0
  else do
    let elapsed ← effectiveElapsed s timestamp b
    pure (if b.challengeWindowSecondsAtCommit ≤ elapsed then 0
      else b.challengeWindowSecondsAtCommit - elapsed)

/-! ## Finalize -/

/-- The two status checks that `finalizeBatch` and `challengeReceipt` share. -/
def requirePending (s : State) (batchId : Bytes32) : Except Error Unit := do
  require ((s.batches batchId).status ≠ .nonexistent) (.batchNotFound batchId)
  require ((s.batches batchId).status = .pending)
    (.batchNotPending batchId (s.batches batchId).status)

/-- The window check of `finalizeBatch`. -/
def requireWindowElapsed (env : Env) (s : State) (batchId : Bytes32) : Except Error Unit := do
  let b := s.batches batchId
  let elapsed ← effectiveElapsed s env.timestamp b
  require (b.challengeWindowSecondsAtCommit ≤ elapsed)
    (.challengeWindowNotElapsed batchId b.commitTimestamp b.challengeWindowSecondsAtCommit)

/-- The window check of `challengeReceipt`. -/
def requireWindowOpen (env : Env) (s : State) (batchId : Bytes32) : Except Error Unit := do
  let b := s.batches batchId
  let elapsed ← effectiveElapsed s env.timestamp b
  require (elapsed < b.challengeWindowSecondsAtCommit) (.challengeWindowElapsed batchId)

/-- The settlement call of `finalizeBatch`, skipped when nothing is payable. -/
def settle (env : Env) (batchId : Bytes32) (b : Batch) (finalValue : Nat) :
    Except Error (List Effect) :=
  if 0 < finalValue then do
    require (b.escrowPoolAtCommit ≠ 0) .escrowPoolNotConfigured
    require (env.settleFromRequester b.escrowPoolAtCommit b.requester b.provider finalValue = true)
      .settlementReverted
    pure [.settleFromRequester batchId b.escrowPoolAtCommit b.requester b.provider finalValue]
  else
    pure []

def State.setBatch (s : State) (batchId : Bytes32) (b : Batch) : State :=
  { s with batches := Function.update s.batches batchId b }

def finalizeBatch (env : Env) (s : State) (batchId : Bytes32) : Outcome := do
  s.whenNotPaused
  requirePending s batchId
  requireWindowElapsed env s batchId
  let b := s.batches batchId
  let finalValue ← checkedSub panic b.totalValueFTNS b.invalidatedValueFTNS
  let calls ← settle env batchId b finalValue
  pure (s.setBatch batchId { b with status := .finalized },
    calls ++ [.batchFinalized batchId b.provider finalValue b.invalidatedValueFTNS
      (uint64 env.timestamp)])

/-! ## Challenge handlers -/

/-- `_hashLeaf`: `keccak256(abi.encode(leaf))`. -/
def hashLeaf (leaf : ReceiptLeaf) : Bytes32 :=
  keccak256 (abiEncode [leaf.jobIdHash, leaf.shardIndex, leaf.providerIdHash,
    leaf.providerPubkeyHash, leaf.outputHash, leaf.executedAtUnix, leaf.valueFtns,
    leaf.signatureHash, leaf.signingMessageHash])

/-- `abi.decode`, which reverts when the bytes do not decode. -/
def decode {α : Type} : Option α → Except Error α
  | some a => .ok a
  | none => .error .malformedAuxData

def handleDoubleSpend (s : State) (batchId : Bytes32) (b : Batch) (leafHash : Bytes32)
    (auxData : AuxData) : Except Error Bool := do
  let (conflictingBatchId, conflictingProof) ← decode auxData.asDoubleSpend
  if conflictingBatchId = batchId then
    pure false
  else do
    let other := s.batches conflictingBatchId
    require (other.status ≠ .nonexistent) (.conflictingBatchNotCommitted conflictingBatchId)
    if b.commitTimestamp ≤ other.commitTimestamp then
      pure false
    else
      pure (MerkleProof.verify keccak256 conflictingProof other.merkleRoot leafHash)

def handleInvalidSignature (env : Env) (leaf : ReceiptLeaf) (auxData : AuxData)
    (verifierAtCommit : Address) : Except Error Bool := do
  require (verifierAtCommit ≠ 0) .verifierNotConfigured
  let (publicKey, signature) ← decode auxData.asSignature
  if keccak256 publicKey ≠ leaf.providerPubkeyHash then
    pure false
  else if keccak256 signature ≠ leaf.signatureHash then
    pure false
  else
    match env.verify verifierAtCommit leaf.signingMessageHash signature publicKey with
    | none => .error .verifierReverted
    | some valid => pure (!valid)

/-- `_handleNoEscrow`: the requester's own transaction is the attestation. -/
def handleNoEscrow (env : Env) (b : Batch) : Except Error Bool := do
  require (env.sender = b.requester) (.callerNotRequester env.sender b.requester)
  pure true

def handleExpired (env : Env) (leaf : ReceiptLeaf) (lookbackWindowAtCommit : Nat) :
    Except Error Bool := do
  let age ← checkedSub panic env.timestamp leaf.executedAtUnix
  require (lookbackWindowAtCommit < age)
    (.receiptNotExpired leaf.executedAtUnix lookbackWindowAtCommit)
  pure true

def handleConsensusMismatch (s : State) (batchId : Bytes32) (b : Batch) (leaf : ReceiptLeaf)
    (auxData : AuxData) : Except Error Bool := do
  let (conflictingBatchId, majorityProof, majorityLeaf) ← decode auxData.asConsensusMismatch
  if conflictingBatchId = batchId then
    pure false
  else if b.consensusGroupId = 0 then
    pure false
  else if leaf.jobIdHash ≠ majorityLeaf.jobIdHash then
    pure false
  else if leaf.shardIndex ≠ majorityLeaf.shardIndex then
    pure false
  else if leaf.outputHash = majorityLeaf.outputHash then
    pure false
  else do
    let other := s.batches conflictingBatchId
    require (other.status ≠ .nonexistent) (.conflictingBatchNotCommitted conflictingBatchId)
    if b.consensusGroupId ≠ other.consensusGroupId then
      pure false
    else if b.provider = other.provider then
      pure false
    else
      pure (MerkleProof.verify keccak256 majorityProof other.merkleRoot
        (hashLeaf keccak256 majorityLeaf))

/-- The dispatch on the reason code. -/
def dispatchChallenge (env : Env) (s : State) (batchId : Bytes32) (leaf : ReceiptLeaf)
    (reason : ReasonCode) (auxData : AuxData) : Except Error Bool :=
  let b := s.batches batchId
  match reason with
  | .doubleSpend => handleDoubleSpend keccak256 s batchId b (hashLeaf keccak256 leaf) auxData
  | .invalidSignature =>
      handleInvalidSignature keccak256 env leaf auxData b.signatureVerifierAtCommit
  | .noEscrow => handleNoEscrow env b
  | .expired => handleExpired env leaf b.lookbackWindowSecondsAtCommit
  | .consensusMismatch => handleConsensusMismatch keccak256 s batchId b leaf auxData
  | .malformed => .error .malformedReasonNotImplemented

/-! ## Challenge -/

/-- The slash hook.  A revert of the bond is swallowed; too little gas is not. -/
def slashProvider (env : Env) (batchId : Bytes32) (b : Batch) (reason : ReasonCode)
    (leafHash : Bytes32) : Except Error (List Effect) :=
  if b.stakeBondAtCommit ≠ 0 ∧ reason.slashes = true then do
    require (minSlashGas ≤ env.gasleft) (.insufficientGasForSlash env.gasleft minSlashGas)
    pure [if env.slash b.stakeBondAtCommit b.provider env.sender batchId then
        .slash b.stakeBondAtCommit b.provider env.sender batchId reason leafHash
      else
        .slashSwallowed batchId b.provider env.sender reason]
  else
    pure []

/-- Storage after the leaf has been invalidated in the batch. -/
def State.invalidate (s : State) (batchId leafHash : Bytes32) (value : Nat) : State :=
  { s.setBatch batchId
      { s.batches batchId with
        invalidatedValueFTNS := (s.batches batchId).invalidatedValueFTNS + value } with
    invalidatedReceipts := Function.update s.invalidatedReceipts batchId
      (Function.update (s.invalidatedReceipts batchId) leafHash true) }

def challengeReceipt (env : Env) (s : State) (batchId : Bytes32) (leaf : ReceiptLeaf)
    (merkleProof : List Bytes32) (reason : ReasonCode) (auxData : AuxData) : Outcome := do
  s.whenNotPaused
  requirePending s batchId
  requireWindowOpen env s batchId
  let b := s.batches batchId
  let leafHash := hashLeaf keccak256 leaf
  require (s.invalidatedReceipts batchId leafHash = false)
    (.receiptAlreadyInvalidated batchId leafHash)
  require (MerkleProof.verify keccak256 merkleProof b.merkleRoot leafHash = true)
    (.invalidMerkleProof batchId leafHash)
  let proven ← dispatchChallenge keccak256 env s batchId leaf reason auxData
  require (proven = true) (.challengeNotProven reason)
  let _ ← checkedAdd 256 panic b.invalidatedValueFTNS leaf.valueFtns
  let calls ← slashProvider env batchId b reason leafHash
  pure (s.invalidate batchId leafHash leaf.valueFtns,
    .receiptChallenged batchId leafHash env.sender reason leaf.valueFtns :: calls)

/-- The check shared by the three pointer setters: zero disables, anything else
must be a contract. -/
def requireContractOrZero (env : Env) (target : Address) : Except Error Unit :=
  require (target = 0 ∨ env.codeLength target ≠ 0) (.setterTargetNotContract target)

def setEscrowPool (env : Env) (s : State) (newPool : Address) : Outcome := do
  s.onlyOwner env
  requireContractOrZero env newPool
  pure ({ s with escrowPool := newPool }, [.escrowPoolUpdated s.escrowPool newPool])

def setStakeBond (env : Env) (s : State) (newBond : Address) : Outcome := do
  s.onlyOwner env
  requireContractOrZero env newBond
  pure ({ s with stakeBond := newBond }, [.stakeBondUpdated s.stakeBond newBond])

def setSignatureVerifier (env : Env) (s : State) (newVerifier : Address) : Outcome := do
  s.onlyOwner env
  requireContractOrZero env newVerifier
  pure ({ s with signatureVerifier := newVerifier },
    [.signatureVerifierUpdated s.signatureVerifier newVerifier])

def setSettlementLookbackWindow (env : Env) (s : State) (newSeconds : Nat) : Outcome := do
  s.onlyOwner env
  require (minLookbackSeconds ≤ newSeconds ∧ newSeconds ≤ maxLookbackSeconds)
    (.invalidLookbackWindow newSeconds)
  pure ({ s with settlementLookbackWindowSeconds := newSeconds },
    [.settlementLookbackUpdated s.settlementLookbackWindowSeconds newSeconds])

def setChallengeWindowSeconds (env : Env) (s : State) (newSeconds : Nat) : Outcome := do
  s.onlyOwner env
  require (minChallengeWindowSeconds ≤ newSeconds ∧ newSeconds ≤ maxChallengeWindowSeconds)
    (.invalidChallengeWindow newSeconds)
  pure ({ s with challengeWindowSeconds := newSeconds },
    [.challengeWindowUpdated s.challengeWindowSeconds newSeconds])

/-- `pause`, with the contract's override of `_pause`. -/
def pause (env : Env) (s : State) : Outcome := do
  s.onlyOwner env
  s.whenNotPaused
  pure ({ s with paused := true, pauseStartedAt := env.timestamp }, [])

/-- `unpause`, with the contract's override of `_unpause`.  The accumulator is
written before the inherited check, whose failure undoes the write. -/
def unpause (env : Env) (s : State) : Outcome := do
  s.onlyOwner env
  let pausedFor ← checkedSub panic env.timestamp s.pauseStartedAt
  let totalPaused ← checkedAdd 256 panic s.totalPausedSeconds pausedFor
  raise .platform (whenPaused s.paused)
  pure ({ s with paused := false, totalPausedSeconds := totalPaused, pauseStartedAt := 0 }, [])

inductive Call
  | commitBatch (args : CommitArgs)
  | commitBatchWithAttestation (args : CommitArgs)
  | finalizeBatch (batchId : Bytes32)
  | challengeReceipt (batchId : Bytes32) (leaf : ReceiptLeaf) (merkleProof : List Bytes32)
      (reason : ReasonCode) (auxData : AuxData)
  | setEscrowPool (newPool : Address)
  | setStakeBond (newBond : Address)
  | setSignatureVerifier (newVerifier : Address)
  | setSettlementLookbackWindow (newSeconds : Nat)
  | setChallengeWindowSeconds (newSeconds : Nat)
  | pause
  | unpause
  | ownership (call : Ownable2Step.Call)

def call (env : Env) (s : State) : Call → Outcome
  | .commitBatch args => commitBatch keccak256 env s args
  | .commitBatchWithAttestation args => commitBatchWithAttestation keccak256 env s args
  | .finalizeBatch batchId => finalizeBatch env s batchId
  | .challengeReceipt batchId leaf merkleProof reason auxData =>
      challengeReceipt keccak256 env s batchId leaf merkleProof reason auxData
  | .setEscrowPool newPool => setEscrowPool env s newPool
  | .setStakeBond newBond => setStakeBond env s newBond
  | .setSignatureVerifier newVerifier => setSignatureVerifier env s newVerifier
  | .setSettlementLookbackWindow newSeconds => setSettlementLookbackWindow env s newSeconds
  | .setChallengeWindowSeconds newSeconds => setChallengeWindowSeconds env s newSeconds
  | .pause => pause env s
  | .unpause => unpause env s
  | .ownership c => do
      let ownable ← raise .platform (s.ownable.call env.sender c)
      pure ({ s with ownable := ownable }, [])

end Prsm.Registry
