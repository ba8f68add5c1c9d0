import Prsm.Foundations.Dict
import Prsm.NodeProofs.MerkleGenerator

/-!
# `StorageProver` and `StorageProofVerifier`

The readings of the clock are arguments.  Signatures are made and checked by functions that
are parameters, with the text of the exception where a check fails.
-/

namespace Prsm.NodeProofs

open Foundations
open Evm (Bytes)
open Settlement (utf8 hex)
open Storage (Sha256)

inductive ProofType
  | merkle
  | range
  | full
  deriving DecidableEq

inductive ChallengeStatus
  | pending
  | verified
  | failed
  | expired
  deriving DecidableEq

structure StorageChallenge where
  challengeId : String
  shardHash : String
  nonce : String
  difficulty : ℤ
  deadline : ℚ
  challengerId : String
  proofType : ProofType

def StorageChallenge.isExpired (challenge : StorageChallenge) (now : ℚ) : Bool :=
  challenge.deadline < now

structure StorageProof where
  challengeId : String
  providerId : String
  shardHash : String
  proofType : ProofType
  proofData : Bytes
  timestamp : ℚ
  signature : String
  merkleProof : Option MerkleProof

structure ChallengeRecord where
  challenge : StorageChallenge
  status : ChallengeStatus
  verifiedAt : Option ℚ

/-- `isoformat` of a time, and the check of a signature under a public key. -/
structure Library where
  isoformat : ℚ → String
  checkSignature : Bytes → String → Bytes → Except String Unit

/-- The node that answers challenges. -/
structure NodeIdentity where
  nodeId : String
  sign : Bytes → String

/-- `_get_signed_data`, and what `_sign_proof` signs. -/
def signedData (lib : Library) (proof : StorageProof) : Bytes :=
  utf8 (proof.challengeId ++ ":" ++ proof.shardHash ++ ":" ++ hex proof.proofData ++ ":" ++
    lib.isoformat proof.timestamp)

/-! ## The prover -/

section Prover

variable (sha : Sha256) (lib : Library) (identity : NodeIdentity)

/-- `content[start:end]` of `_generate_range_proof`. -/
def rangeData (content : Bytes) (challenge : StorageChallenge) : Bytes :=
  let room := max 1 ((content.length : ℤ) - challenge.difficulty)
  let start := selectedIndex sha challenge.nonce room.toNat
  let stop := min (start + challenge.difficulty) content.length
  -- a negative end counts from the back
  let stop := if stop < 0 then stop + content.length else stop
  (content.take stop.toNat).drop start

/-- The data and the Merkle proof that answer a challenge of each type. -/
def proofFor (content : Bytes) (challenge : StorageChallenge) :
    Option (Bytes × Option MerkleProof) :=
  match challenge.proofType with
  | .merkle => do
      let (_, proof, chunk) ← generateChallengeProof sha defaultGenerator content challenge.nonce
      pure (chunk, some proof)
  | .range => some (rangeData sha content challenge, none)
  | .full => some (content, none)

/-- `answer_challenge`.  `getContent` is the content client. -/
def answerChallenge (now : ℚ) (getContent : String → Option Bytes) (challenge : StorageChallenge)
    (content : Option Bytes) : Option StorageProof :=
  if challenge.isExpired now then none
  else do
    let content ← content.or (getContent challenge.shardHash)
    let (proofData, merkleProof) ← proofFor sha content challenge
    let proof : StorageProof := {
      challengeId := challenge.challengeId
      providerId := identity.nodeId
      shardHash := challenge.shardHash
      proofType := challenge.proofType
      proofData := proofData
      timestamp := now
      signature := ""
      merkleProof := merkleProof }
    pure { proof with signature := identity.sign (signedData lib proof) }

end Prover

/-- Why a proof is not accepted. -/
inductive Rejection
  | unknownChallenge (challengeId : String)
  | expired
  | shardHashMismatch
  | signature (error : String)
  | downgrade (answered issued : ProofType)
  | merkleMissing
  | noTrustedRoot
  | rootMismatch
  | pathFails
  | leafMismatch
  | rangeNotImplemented
  | fullNotImplemented
  deriving DecidableEq

/-- The pending challenges of a verifier, by their ids. -/
@[reducible] def Pending : Type := Dict String ChallengeRecord

def updateChallengeStatus (pending : Pending) (challengeId : String) (status : ChallengeStatus)
    (now : ℚ) : Pending :=
  match pending.get? challengeId with
  | none => pending
  | some record =>
      pending.set challengeId { record with
        status := status
        verifiedAt := if status = .verified then some now else record.verifiedAt }

section Verifier

variable (sha : Sha256) (lib : Library)

/-- The checks of `_verify_merkle_proof`. -/
def checkMerkleProof (proof : StorageProof) (expectedMerkleRoot : Option String) :
    Except Rejection Unit := do
  match proof.merkleProof with
  | none => throw .merkleMissing
  | some merkleProof =>
      match expectedMerkleRoot with
      | none => throw .noTrustedRoot
      | some trustedRoot =>
          if trustedRoot = "" then throw .noTrustedRoot
          else if merkleProof.rootHash ≠ trustedRoot then throw .rootMismatch
          else if !verifyProof sha merkleProof then throw .pathFails
          else if sha.hexdigest proof.proofData ≠ merkleProof.leafHash then throw .leafMismatch
          else pure ()

/-- The checks of `verify_proof` that do not depend on the proof type. -/
def checkProof (now : ℚ) (proof : StorageProof) (challenge : StorageChallenge)
    (providerPublicKey : Option Bytes) : Except Rejection Unit := do
  if challenge.isExpired now then throw .expired
  else if challenge.shardHash ≠ proof.shardHash then throw .shardHashMismatch
  else
    match providerPublicKey with
    | none => pure ()
    | some key =>
        match lib.checkSignature key proof.signature (signedData lib proof) with
        | .ok _ => pure ()
        | .error error => throw (.signature error)
    if proof.proofType ≠ challenge.proofType then
      throw (.downgrade proof.proofType challenge.proofType)

/-- The dispatch on the proof type. -/
def checkByType (proof : StorageProof) (expectedMerkleRoot : Option String) :
    Except Rejection Unit :=
  match proof.proofType with
  | .merkle => checkMerkleProof sha proof expectedMerkleRoot
  | .range => throw .rangeNotImplemented
  | .full => throw .fullNotImplemented

/-- The challenge that a proof answers: the one given, or the pending one. -/
def challengeOf (pending : Pending) (proof : StorageProof) (challenge : Option StorageChallenge) :
    Except Rejection StorageChallenge :=
  match challenge.or ((pending.get? proof.challengeId).map ChallengeRecord.challenge) with
  | none => throw (.unknownChallenge proof.challengeId)
  | some challenge => pure challenge

/-- Whether the proof is accepted, or why not. -/
def decideProof (pending : Pending) (now : ℚ) (proof : StorageProof)
    (challenge : Option StorageChallenge) (providerPublicKey : Option Bytes)
    (expectedMerkleRoot : Option String) : Except Rejection Unit := do
  let challenge ← challengeOf pending proof challenge
  checkProof lib now proof challenge providerPublicKey
  checkByType sha proof expectedMerkleRoot

/-- `StorageProofVerifier.verify_proof`, with the statuses that it leaves. -/
def verifyStorageProof (pending : Pending) (now : ℚ) (proof : StorageProof)
    (challenge : Option StorageChallenge) (providerPublicKey : Option Bytes)
    (expectedMerkleRoot : Option String) : Except Rejection Unit × Pending :=
  let result := decideProof sha lib pending now proof challenge providerPublicKey
    expectedMerkleRoot
  (result,
    match result with
    | .ok _ => updateChallengeStatus pending proof.challengeId .verified now
    | .error .expired => updateChallengeStatus pending proof.challengeId .expired now
    | .error _ => pending)

end Verifier

/-! ## What is accepted -/

section Accepted

variable {sha : Sha256} {lib : Library} {pending : Pending} {now : ℚ} {proof : StorageProof}
  {challenge : StorageChallenge} {providerPublicKey : Option Bytes} {trustedRoot : String}

theorem checkProof_ok_iff :
    checkProof lib now proof challenge providerPublicKey = .ok () ↔
      now ≤ challenge.deadline ∧ challenge.shardHash = proof.shardHash ∧
        (∀ key, providerPublicKey = some key →
          ∃ u, lib.checkSignature key proof.signature (signedData lib proof) = .ok u) ∧
        proof.proofType = challenge.proofType := by
  unfold checkProof StorageChallenge.isExpired
  by_cases hTime : challenge.deadline < now
  · simp [hTime]
  · by_cases hShard : challenge.shardHash = proof.shardHash
    · cases providerPublicKey with
      | none => by_cases hType : proof.proofType = challenge.proofType <;> simp [*, not_lt.mp hTime]
      | some key =>
          cases hSignature : lib.checkSignature key proof.signature (signedData lib proof) with
          | error e => simp [hTime, hShard, hSignature]
          | ok u =>
              by_cases hType : proof.proofType = challenge.proofType <;>
                simp [*, not_lt.mp hTime]
    · simp [hTime, hShard]

theorem checkMerkleProof_ok_iff :
    checkMerkleProof sha proof (some trustedRoot) = .ok () ↔
      ∃ merkleProof, proof.merkleProof = some merkleProof ∧ trustedRoot ≠ "" ∧
        merkleProof.rootHash = trustedRoot ∧ verifyProof sha merkleProof = true ∧
        sha.hexdigest proof.proofData = merkleProof.leafHash := by
  unfold checkMerkleProof
  cases proof.merkleProof with
  | none => simp
  | some merkleProof =>
      by_cases hEmpty : trustedRoot = ""
      · simp [hEmpty]
      · by_cases hRoot : merkleProof.rootHash = trustedRoot
        · by_cases hPath : verifyProof sha merkleProof = true
          · by_cases hLeaf : sha.hexdigest proof.proofData = merkleProof.leafHash <;>
              simp [hEmpty, hRoot, hPath, hLeaf]
          · simp [hEmpty, hRoot, hPath]
        · simp [hEmpty, hRoot]

theorem accepted_iff {given : Option StorageChallenge}
    (hGiven : challengeOf pending proof given = .ok challenge)
    (hType : challenge.proofType = .merkle) :
    (verifyStorageProof sha lib pending now proof given providerPublicKey
        (some trustedRoot)).1 = .ok () ↔
      (now ≤ challenge.deadline ∧ challenge.shardHash = proof.shardHash ∧
        (∀ key, providerPublicKey = some key →
          ∃ u, lib.checkSignature key proof.signature (signedData lib proof) = .ok u) ∧
        proof.proofType = .merkle) ∧
      ∃ merkleProof, proof.merkleProof = some merkleProof ∧ trustedRoot ≠ "" ∧
        merkleProof.rootHash = trustedRoot ∧ verifyProof sha merkleProof = true ∧
        sha.hexdigest proof.proofData = merkleProof.leafHash := by
  have hDecide : decideProof sha lib pending now proof given providerPublicKey
      (some trustedRoot) = (checkProof lib now proof challenge providerPublicKey >>= fun _ =>
        checkByType sha proof (some trustedRoot)) := by
    rw [decideProof, hGiven]
    rfl
  rw [← checkMerkleProof_ok_iff, ← hType, ← checkProof_ok_iff]
  show decideProof sha lib pending now proof given providerPublicKey
    (some trustedRoot) = .ok () ↔ _
  rw [hDecide]
  cases hCheck : checkProof lib now proof challenge providerPublicKey with
  | error e => simp [bind, Except.bind]
  | ok u =>
      have hMerkle : proof.proofType = .merkle := by
        rw [← hType]
        exact (checkProof_ok_iff.mp hCheck).2.2.2
      simp [bind, Except.bind, checkByType, hMerkle]

end Accepted

end Prsm.NodeProofs
