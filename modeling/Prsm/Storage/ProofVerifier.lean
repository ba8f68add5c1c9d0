import Prsm.Storage.MerkleProofs

/-!
# Challenges, responses and the verifier

`ChallengeIssuer.issue` and `ProofVerifier.verify`.  The readings of the clock and the random
bytes are arguments, and the call of the on-chain hook is part of what `verify` gives.
-/

namespace Prsm.Storage

open Foundations
open Evm (Bytes)
open Settlement (utf8)

structure ProofChallenge where
  challengeId : String
  shardId : String
  providerId : String
  chunkIndex : ℤ
  issuedAtUnix : ℤ
  deadlineUnix : ℤ
  nonce : Bytes
  deriving DecidableEq

structure ProofResponse where
  challengeId : String
  chunkData : Bytes
  merkleProof : List Bytes
  deriving DecidableEq

inductive ProofVerdict
  | ok
  | missingResponse
  | deadlineExceeded
  | challengeIdMismatch
  | merkleMismatch
  deriving DecidableEq

def ProofVerdict.value : ProofVerdict → String
  | .ok => "ok"
  | .missingResponse => "missing_response"
  | .deadlineExceeded => "deadline_exceeded"
  | .challengeIdMismatch => "challenge_id_mismatch"
  | .merkleMismatch => "merkle_mismatch"

structure ProofResult where
  challenge : ProofChallenge
  response : Option ProofResponse
  verdict : ProofVerdict

def ProofResult.verified (result : ProofResult) : Bool := result.verdict = .ok

/-- The arguments of `submit_proof_failure`. -/
structure ProofFailure where
  providerId : String
  shardId : String
  evidenceHash : String
  challenger : String

/-- `int(…)` of a reading of the clock. -/
def wholeSeconds (reading : ℚ) : ℤ := if 0 ≤ reading then ⌊reading⌋ else ⌈reading⌉

/-- `int.from_bytes(…, "big")`. -/
def fromBytesBig (bytes : Bytes) : ℕ :=
  bytes.foldl (fun n byte => n * 256 + byte.val) 0

/-- `n.to_bytes(8, "big")`, which raises where the number does not fit. -/
def toBytesBig (n : ℤ) : Option Bytes :=
  if 0 ≤ n ∧ n < 2 ^ 64 then
    some ((List.range 8).map fun i => Fin.ofNat _ (n.toNat / 256 ^ (7 - i)))
  else none

section Issuer

variable (sha : Sha256)

def issue (now : ℚ) (indexBytes nonce : Bytes) (providerId shardId : String) (numChunks : ℤ)
    (deadlineSeconds : ℤ) : Option ProofChallenge :=
  if numChunks ≤ 0 then none
  else do
    let issuedAt := wholeSeconds now
    let stamp ← toBytesBig issuedAt
    pure {
      challengeId := sha.hexdigest (utf8 shardId ++ utf8 providerId ++ nonce ++ stamp)
      shardId := shardId
      providerId := providerId
      chunkIndex := (fromBytesBig indexBytes : ℤ) % numChunks
      issuedAtUnix := issuedAt
      deadlineUnix := issuedAt + deadlineSeconds
      nonce := nonce }

end Issuer

structure ProofVerifier where
  challengerId : String
  hasSlashHook : Bool

section Verifier

variable (sha : Sha256)

def classify (now : ℚ) (challenge : ProofChallenge) (response : Option ProofResponse)
    (expectedRoot : Bytes) : ProofVerdict :=
  match response with
  | none => if challenge.deadlineUnix < wholeSeconds now then .deadlineExceeded
      else .missingResponse
  | some response =>
      if challenge.deadlineUnix < wholeSeconds now then .deadlineExceeded
      else if response.challengeId ≠ challenge.challengeId then .challengeIdMismatch
      else if !verifyMerkleProof sha response.chunkData response.merkleProof
          challenge.chunkIndex expectedRoot then .merkleMismatch
      else .ok

/-- The string whose digest is the evidence. -/
def evidenceBlob (result : ProofResult) : Bytes :=
  utf8 (result.challenge.challengeId ++ ":" ++ result.verdict.value) ++
    match result.response with
    | none => []
    | some response => utf8 ":" ++ sha.digest response.chunkData

/-- `_escalate`: what the hook is called with.  What it raises is caught. -/
def escalate (verifier : ProofVerifier) (result : ProofResult) : ProofFailure where
  providerId := result.challenge.providerId
  shardId := result.challenge.shardId
  evidenceHash := "0x" ++ sha.hexdigest (evidenceBlob sha result)
  challenger := verifier.challengerId

/-- `ProofVerifier.verify`, with the call of the hook if there is one. -/
def verify (verifier : ProofVerifier) (now : ℚ) (challenge : ProofChallenge)
    (response : Option ProofResponse) (expectedRoot : Bytes) :
    ProofResult × Option ProofFailure :=
  let result : ProofResult :=
    ⟨challenge, response, classify sha now challenge response expectedRoot⟩
  (result,
    if !result.verified && verifier.hasSlashHook then some (escalate sha verifier result)
    else none)

end Verifier

/-! ## What the verifier decides -/

theorem wholeSeconds_le {now : ℚ} {deadline : ℤ} (h : now ≤ deadline) :
    wholeSeconds now ≤ deadline := by
  unfold wholeSeconds
  split
  · exact_mod_cast (Int.floor_le now).trans h
  · exact Int.ceil_le.mpr h

variable {sha : Sha256} {verifier : ProofVerifier} {now : ℚ} {challenge : ProofChallenge}
  {expectedRoot : Bytes}

theorem verdict_ok_iff {response : ProofResponse} :
    (verify sha verifier now challenge (some response) expectedRoot).1.verdict = .ok ↔
      wholeSeconds now ≤ challenge.deadlineUnix ∧
        response.challengeId = challenge.challengeId ∧
        verifyMerkleProof sha response.chunkData response.merkleProof challenge.chunkIndex
          expectedRoot = true := by
  simp only [verify, classify]
  split
  · simp
    omega
  · split <;> rename_i hLate hId
    · simp [hId]
    · rw [not_not] at hId
      cases hMerkle : verifyMerkleProof sha response.chunkData response.merkleProof
        challenge.chunkIndex expectedRoot
      · simp
      · simp [hId]
        omega

theorem slashed_iff {response : Option ProofResponse} :
    (verify sha verifier now challenge response expectedRoot).2 ≠ none ↔
      verifier.hasSlashHook = true ∧
        (verify sha verifier now challenge response expectedRoot).1.verdict ≠ .ok := by
  simp only [verify, ProofResult.verified]
  cases verifier.hasSlashHook <;> by_cases hOk :
    classify sha now challenge response expectedRoot = .ok <;> simp [hOk]

theorem verdict_none_ne_ok :
    (verify sha verifier now challenge none expectedRoot).1.verdict ≠ .ok := by
  simp only [verify, classify]
  split <;> simp

theorem index_of_issue {indexBytes nonce : Bytes} {providerId shardId : String} {numChunks : ℕ}
    {deadlineSeconds : ℤ}
    (h : issue sha now indexBytes nonce providerId shardId numChunks deadlineSeconds =
      some challenge) : ∃ i < numChunks, challenge.chunkIndex = (i : ℕ) := by
  unfold issue at h
  split at h
  · cases h
  · next hPos =>
    obtain ⟨stamp, -, hSame⟩ := Option.bind_eq_some_iff.mp h
    obtain rfl := Option.some.inj hSame
    refine ⟨fromBytesBig indexBytes % numChunks, ?_, ?_⟩
    · apply Nat.mod_lt
      omega
    · push_cast
      rfl

/-! ## A challenge for two chunks -/

def sampleA : ℕ := 0xca978112ca1bbdcafac231b39a23dc4da786eff8147c4e72b9807785afee48bb

def sampleB : ℕ := 0x3e23e8160039594a33894f6564e1b1348bbd7a0088d42c4acb73eeaed59c009d

/-- The digests of the two chunks, of the two digests in a row, and of the identifying
fields of the challenge. -/
def sampleSha : Sha256 :=
  Sha256.ofTable [
    ([97], sampleA),
    ([98], sampleB),
    (digestBytes sampleA ++ digestBytes sampleB,
      0xe5a01fee14e0ed5c48714f22180f25ad8365b53f9779f79dc4a3d7e93963f94a),
    (utf8 "sp" ++ List.replicate 16 0 ++ [0, 0, 0, 0, 0, 0, 3, 232],
      0xbf1e8c195db2a397617d094b0cb3eba5a802e725c73fbedc539f04e468d44ed5)]

def sampleChunks : List Bytes := [[97], [98]]

def sampleRoot : Bytes :=
  digestBytes 0xe5a01fee14e0ed5c48714f22180f25ad8365b53f9779f79dc4a3d7e93963f94a

def sampleTree : MerkleTree :=
  ⟨[[digestBytes sampleA, digestBytes sampleB], [sampleRoot]], 2⟩

def sampleChallenge : ProofChallenge where
  challengeId := "bf1e8c195db2a397617d094b0cb3eba5a802e725c73fbedc539f04e468d44ed5"
  shardId := "s"
  providerId := "p"
  chunkIndex := 1
  issuedAtUnix := 1000
  deadlineUnix := 1030
  nonce := List.replicate 16 0

end Prsm.Storage
