import Prsm.Storage.ProofVerifier

/-!
# What an accepted response proves

With one sibling for each level of the tree an accepted response holds the challenged chunk.
The verifier does not look at the number of siblings, and a chunk is hashed like the two
digests below an inner node: a shorter proof can end at an inner node, a longer one can
start below a chunk.
-/

namespace Prsm.Storage

open Foundations
open Evm (Bytes)

/-- The number of levels above the leaves. -/
def MerkleTree.height (tree : MerkleTree) : ℕ := tree.levels.length - 1

section Strings

variable (sha : Sha256)

/-- The strings hashed for the tree: the chunks, and the digests below each inner node. -/
def hashedByTree (chunks : List Bytes) : List Bytes :=
  chunks ++ loopStrings sha.digest (fun a b => a ++ b) (leafDigests sha chunks).length
    (leafDigests sha chunks)

/-- The strings hashed to verify a response. -/
def hashedByProof (challenge : ProofChallenge) (response : ProofResponse) : List Bytes :=
  response.chunkData :: climbStrings sha.digest (fun a b => a ++ b)
    (stepsAt challenge.chunkIndex response.merkleProof) (sha.digest response.chunkData)

/-- What a proof that is too short leads from: the two digests below the inner node that
the lowest bits of the index lead to. -/
def StandsAbove (chunks : List Bytes) (i len : ℕ) (data : Bytes) : Prop :=
  ∃ hashes left right, PairTree.ofList (leafDigests sha chunks) = some hashes ∧
    hashes.locate (bits len i).reverse = (.pair left right, 0) ∧
    data = left.digest sha.digest (fun a b => a ++ b) ++
      right.digest sha.digest (fun a b => a ++ b)

/-- What a proof with `excess` siblings too many leads from: a string whose digest the
excess siblings lead to the digest of a chunk. -/
def StandsBelow (hashed : Set Bytes) (chunks : List Bytes) (i excess : ℕ) (data : Bytes) : Prop :=
  ∃ chunk lower, chunks[i / 2 ^ excess]? = some chunk ∧ lower.length = excess ∧
    (∀ b ∈ climbStrings sha.digest (fun a b => a ++ b) (stepsAt i lower) (sha.digest data),
      b ∈ hashed) ∧
    climb sha.digest (fun a b => a ++ b) (stepsAt i lower) (sha.digest data) = sha.digest chunk

end Strings

section Accepted

variable {sha : Sha256} {chunks : List Bytes} {tree : MerkleTree} {root : Bytes}
  {hashed : Set Bytes} {i : ℕ} {chunk data : Bytes}

theorem starts_iff {hashes : PairTree Bytes} {len : ℕ}
    (hHashes : PairTree.ofList (leafDigests sha chunks) = some hashes)
    (hLeaves : hashes.leaves = leafDigests sha chunks)
    (hPerfect : hashes.IsPerfect tree.height) (hChunk : chunks[i]? = some chunk)
    (hInj : Set.InjOn sha.digest hashed) (hMem : chunk ∈ hashed) (hData : data ∈ hashed) :
    Starts sha.digest (fun a b => a ++ b) hashed i data (hashes.locate (bits len i).reverse) ↔
      (len = tree.height ∧ data = chunk) ∨
      (len < tree.height ∧ StandsAbove sha chunks i len data) ∨
      (tree.height < len ∧ StandsBelow sha hashed chunks i (len - tree.height) data) := by
  obtain ⟨hIdx, -⟩ := List.getElem?_eq_some_iff.mp hChunk
  have hCount := length_le_leafDigests sha chunks
  have hWidth := hPerfect.length_leaves
  rw [hLeaves] at hWidth
  rcases Nat.lt_trichotomy len tree.height with hLt | hEq | hGt
  · -- an inner node
    obtain ⟨left, right, hLocate⟩ := hPerfect.locate_inner hLt (i : ℤ)
    rw [hLocate]
    constructor
    · intro hStart
      exact Or.inr (Or.inl ⟨hLt, hashes, left, right, hHashes, hLocate, hStart⟩)
    · rintro (⟨hEq, -⟩ | ⟨-, hashes', left', right', hHashes', hLocate', hSame⟩ | ⟨hGt, -⟩)
      · omega
      · obtain rfl := Option.some.inj (hHashes.symm.trans hHashes')
        rw [hLocate] at hLocate'
        obtain ⟨rfl, rfl⟩ := PairTree.pair.inj (congrArg Prod.fst hLocate')
        exact hSame
      · omega
  · -- the leaf of the chunk
    obtain ⟨value, hValue, hLocate⟩ := hPerfect.locate_leaf (show i < _ by omega)
    rw [hLeaves, getElem?_leafDigests sha hChunk] at hValue
    obtain rfl := Option.some.inj hValue
    rw [hEq, hLocate]
    constructor
    · rintro ⟨lower, hNil, -, hClimb⟩
      rw [List.length_eq_zero_iff.mp hNil] at hClimb
      exact Or.inl ⟨rfl, hInj hData hMem hClimb⟩
    · rintro (⟨-, rfl⟩ | ⟨hLt, -⟩ | ⟨hGt, -⟩)
      · exact ⟨[], rfl, by simp [stepsAt, climbStrings], rfl⟩
      · omega
      · omega
  · -- below a leaf
    obtain ⟨excess, rfl⟩ : ∃ excess, len = excess + tree.height := ⟨len - tree.height, by omega⟩
    have hDiv : i / 2 ^ excess ≤ i := Nat.div_le_self _ _
    obtain ⟨value, hValue, hLocate⟩ :=
      hPerfect.locate_below (show i / 2 ^ excess < _ by omega)
    obtain ⟨owner, hOwner⟩ : ∃ owner, chunks[i / 2 ^ excess]? = some owner :=
      ⟨_, List.getElem?_eq_getElem (by omega)⟩
    rw [hLeaves, getElem?_leafDigests sha hOwner] at hValue
    obtain rfl := Option.some.inj hValue
    rw [hLocate, show excess + tree.height - tree.height = excess by omega]
    constructor
    · rintro ⟨lower, hLength, hStrings, hClimb⟩
      exact Or.inr (Or.inr ⟨hGt, owner, lower, hOwner, hLength, hStrings, hClimb⟩)
    · rintro (⟨hEq, -⟩ | ⟨hLt, -⟩ | ⟨-, owner', lower, hOwner', hLength, hStrings, hClimb⟩)
      · omega
      · omega
      · obtain rfl := Option.some.inj (hOwner.symm.trans hOwner')
        exact ⟨lower, hLength, hStrings, hClimb⟩

theorem exists_verified_iff (hTree : MerkleTree.ofChunks sha chunks = some tree)
    (hRoot : tree.root = some root) (hInj : Set.InjOn sha.digest hashed)
    (hHashed : ∀ b ∈ hashedByTree sha chunks, b ∈ hashed) (hChunk : chunks[i]? = some chunk)
    (hData : data ∈ hashed) (len : ℕ) :
    (∃ proof : List Bytes, proof.length = len ∧
      (∀ b ∈ climbStrings sha.digest (fun a b => a ++ b) (stepsAt i proof) (sha.digest data),
        b ∈ hashed) ∧
      verifyMerkleProof sha data proof i root = true) ↔
      (len = tree.height ∧ data = chunk) ∨
      (len < tree.height ∧ StandsAbove sha chunks i len data) ∨
      (tree.height < len ∧ StandsBelow sha hashed chunks i (len - tree.height) data) := by
  obtain ⟨hashes, hOf, hLeaves, hPerfect, hDigest⟩ := MerkleTree.root_ofChunks hTree
  obtain rfl := Option.some.inj (hRoot.symm.trans hDigest)
  have hStrings : ∀ b ∈ hashes.strings sha.digest fun a b => a ++ b, b ∈ hashed := by
    intro b hb
    apply hHashed b
    exact List.mem_append_right _ (PairTree.strings_of_ofList _ _ hOf b hb)
  have hMem : chunk ∈ hashed :=
    hHashed chunk (List.mem_append_left _ (List.mem_of_getElem? hChunk))
  have hLeafLengths : ∀ value ∈ hashes.leaves, value.length = 32 := by
    rw [hLeaves]
    exact length_of_mem_leafDigests
  rw [← starts_iff hOf hLeaves hPerfect hChunk hInj hMem hData,
    ← exists_climb_iff (framing_bytes sha) hInj hStrings hLeafLengths hData len (i : ℤ)]
  simp only [verifyMerkleProof, foldProof_eq, decide_eq_true_eq]

end Accepted

/-- For a challenge and a number of siblings: an accepted response always holds the
challenged chunk exactly when no other string stands in for it.  With one sibling a level
nothing does. -/
theorem accepted_chunk_iff {sha : Sha256} {chunks : List Bytes} {tree : MerkleTree}
    {root : Bytes} (hTree : MerkleTree.ofChunks sha chunks = some tree)
    (hRoot : tree.root = some root) {hashed : Set Bytes} (hInj : Set.InjOn sha.digest hashed)
    (hHashed : ∀ b ∈ hashedByTree sha chunks, b ∈ hashed) (verifier : ProofVerifier)
    {challenge : ProofChallenge} {i : ℕ} {chunk : Bytes} (hIndex : challenge.chunkIndex = i)
    (hChunk : chunks[i]? = some chunk) (len : ℕ) :
    (∀ (now : ℚ) (response : ProofResponse), response.merkleProof.length = len →
      (∀ b ∈ hashedByProof sha challenge response, b ∈ hashed) →
      (verify sha verifier now challenge (some response) root).1.verdict = .ok →
      response.chunkData = chunk) ↔
    len = tree.height ∨
      (len < tree.height ∧ ∀ data ∈ hashed, StandsAbove sha chunks i len data → data = chunk) ∨
      (tree.height < len ∧ ∀ data ∈ hashed,
        StandsBelow sha hashed chunks i (len - tree.height) data → data = chunk) := by
  have hAccepted := fun {data : Bytes} (hData : data ∈ hashed) =>
    exists_verified_iff hTree hRoot hInj hHashed hChunk hData len
  constructor
  · intro hSound
    -- a string that stands in makes a response that is accepted at the deadline
    have hForged : ∀ data ∈ hashed, (∃ proof : List Bytes, proof.length = len ∧
        (∀ b ∈ climbStrings sha.digest (fun a b => a ++ b) (stepsAt i proof) (sha.digest data),
          b ∈ hashed) ∧
        verifyMerkleProof sha data proof i root = true) → data = chunk := by
      rintro data hData ⟨proof, hLength, hStrings, hVerify⟩
      apply hSound challenge.deadlineUnix ⟨challenge.challengeId, data, proof⟩ hLength
      · rw [hashedByProof, hIndex]
        intro b hb
        rcases List.mem_cons.mp hb with rfl | hb
        · exact hData
        · exact hStrings b hb
      · rw [verdict_ok_iff, hIndex]
        exact ⟨wholeSeconds_le le_rfl, rfl, hVerify⟩
    rcases Nat.lt_trichotomy len tree.height with hLt | hEq | hGt
    · right
      left
      refine ⟨hLt, fun data hData hStands => hForged data hData ?_⟩
      exact (hAccepted hData).mpr (Or.inr (Or.inl ⟨hLt, hStands⟩))
    · exact Or.inl hEq
    · right
      right
      refine ⟨hGt, fun data hData hStands => hForged data hData ?_⟩
      exact (hAccepted hData).mpr (Or.inr (Or.inr ⟨hGt, hStands⟩))
  · intro hNone now response hLength hStrings hOk
    obtain ⟨-, -, hVerify⟩ := verdict_ok_iff.mp hOk
    rw [hIndex] at hVerify
    rw [hashedByProof, hIndex] at hStrings
    have hData := hStrings _ List.mem_cons_self
    have hClimb := fun b hb => hStrings b (List.mem_cons_of_mem _ hb)
    have hStart := (hAccepted hData).mp ⟨response.merkleProof, hLength, hClimb, hVerify⟩
    rcases hStart with ⟨-, hSame⟩ | ⟨hLt, hStands⟩ | ⟨hGt, hStands⟩
    · exact hSame
    · rcases hNone with hEq | ⟨-, hAbove⟩ | ⟨hGt, -⟩
      · omega
      · exact hAbove _ hData hStands
      · omega
    · rcases hNone with hEq | ⟨hLt, -⟩ | ⟨-, hBelow⟩
      · omega
      · omega
      · exact hBelow _ hData hStands

/-! ## Two digests in the place of a chunk -/

def sampleHashed : List Bytes :=
  [[97], [98], digestBytes sampleA ++ digestBytes sampleB]

theorem sampleHashed_injOn : Set.InjOn sampleSha.digest {b | b ∈ sampleHashed} := by
  have hPairs : ∀ a ∈ sampleHashed, ∀ b ∈ sampleHashed,
      sampleSha.digest a = sampleSha.digest b → a = b := by decide +kernel
  exact fun a ha b hb => hPairs a ha b hb

/-- With one sibling, the second of the two chunks is the only one accepted. -/
theorem accepted_chunk_iff_oneSibling :
    sampleTree.height = 1 ∧
      ∀ (now : ℚ) (response : ProofResponse), response.merkleProof.length = 1 →
        (∀ b ∈ hashedByProof sampleSha sampleChallenge response, b ∈ sampleHashed) →
        (verify sampleSha ⟨"verifier", true⟩ now sampleChallenge (some response)
          sampleRoot).1.verdict = .ok → response.chunkData = [98] :=
  have hTree : MerkleTree.ofChunks sampleSha sampleChunks = some sampleTree := by decide +kernel
  have hChunk : sampleChunks[1]? = some [98] := by decide +kernel
  ⟨rfl, (accepted_chunk_iff hTree (by decide +kernel) sampleHashed_injOn (by decide +kernel)
    ⟨"verifier", true⟩ rfl hChunk 1).mpr (Or.inl rfl)⟩

/-- A provider that kept the two digests and no chunk is accepted, with no sibling at all. -/
theorem digests_accepted :
    MerkleTree.ofChunks sampleSha sampleChunks = some sampleTree ∧
      sampleTree.root = some sampleRoot ∧ sampleChunks[1]? = some [98] ∧
      Set.InjOn sampleSha.digest {b | b ∈ sampleHashed} ∧
      ∃ response : ProofResponse,
        (∀ b ∈ hashedByTree sampleSha sampleChunks ++
          hashedByProof sampleSha sampleChallenge response, b ∈ sampleHashed) ∧
        (verify sampleSha ⟨"verifier", true⟩ 1010 sampleChallenge (some response)
          sampleRoot).1.verdict = .ok ∧ response.chunkData ≠ [98] := by
  refine ⟨by decide +kernel, by decide +kernel, by decide +kernel, sampleHashed_injOn, ?_⟩
  exact ⟨⟨sampleChallenge.challengeId, digestBytes sampleA ++ digestBytes sampleB, []⟩,
    by decide +kernel, by decide +kernel, by decide +kernel⟩

end Prsm.Storage

/-!
# Who is slashed

The response of a provider that holds the chunks is accepted up to the deadline.  The hook
is called on every other verdict: also on a missing response, before the deadline.
-/

namespace Prsm.Storage

open Foundations
open Evm (Bytes)

/-- The challenged chunk with the proof of its leaf. -/
def honestResponse (tree : MerkleTree) (chunks : List Bytes) (challenge : ProofChallenge) :
    Option ProofResponse := do
  let chunk ← chunks[challenge.chunkIndex.toNat]?
  let proof ← tree.proof challenge.chunkIndex
  pure ⟨challenge.challengeId, chunk, proof⟩

/-- The response is for another challenge, or does not lead to the root. -/
def Wrong (sha : Sha256) (challenge : ProofChallenge) (root : Bytes)
    (response : ProofResponse) : Prop :=
  response.challengeId ≠ challenge.challengeId ∨
    verifyMerkleProof sha response.chunkData response.merkleProof challenge.chunkIndex root =
      false

/-- One verification treats the provider fairly: the honest response passes up to the
deadline, and the hook is called only when it is late or the response is wrong. -/
structure Fair (sha : Sha256) (verifier : ProofVerifier) (tree : MerkleTree)
    (chunks : List Bytes) (root : Bytes) (challenge : ProofChallenge) (now : ℚ)
    (response : Option ProofResponse) : Prop where
  honest : ∃ answer, honestResponse tree chunks challenge = some answer ∧
    (response = some answer → now ≤ challenge.deadlineUnix →
      (verify sha verifier now challenge response root).1.verdict = .ok)
  slashed : (verify sha verifier now challenge response root).2 ≠ none →
    (challenge.deadlineUnix : ℚ) < now ∨ ∃ answer, response = some answer ∧
      Wrong sha challenge root answer

section Honest

variable {sha : Sha256} {verifier : ProofVerifier} {tree : MerkleTree} {chunks : List Bytes}
  {root : Bytes} {challenge : ProofChallenge} {now : ℚ}

theorem verdict_honest (verifier : ProofVerifier) (now : ℚ)
    (hTree : MerkleTree.ofChunks sha chunks = some tree)
    (hRoot : tree.root = some root) {i : ℕ} (hIdx : i < chunks.length)
    (hIndex : challenge.chunkIndex = i) :
    ∃ answer, honestResponse tree chunks challenge = some answer ∧
      (now ≤ challenge.deadlineUnix →
        (verify sha verifier now challenge (some answer) root).1.verdict = .ok) := by
  obtain ⟨chunk, hChunk⟩ : ∃ chunk, chunks[i]? = some chunk :=
    ⟨_, List.getElem?_eq_getElem hIdx⟩
  obtain ⟨proof, hProof, hVerify⟩ := verify_proof_of_chunk hTree hRoot hChunk
  refine ⟨⟨challenge.challengeId, chunk, proof⟩, ?_, ?_⟩
  · simp [honestResponse, hIndex, hChunk, hProof]
  · intro hTime
    rw [verdict_ok_iff]
    refine ⟨wholeSeconds_le hTime, rfl, ?_⟩
    rw [hIndex]
    exact hVerify

theorem late_or_wrong {response : ProofResponse}
    (h : (verify sha verifier now challenge (some response) root).2 ≠ none) :
    (challenge.deadlineUnix : ℚ) < now ∨ Wrong sha challenge root response := by
  obtain ⟨-, hVerdict⟩ := slashed_iff.mp h
  rw [Ne, verdict_ok_iff] at hVerdict
  by_cases hTime : now ≤ challenge.deadlineUnix
  · have hWhole := wholeSeconds_le hTime
    right
    by_cases hId : response.challengeId = challenge.challengeId
    · right
      simpa [hWhole, hId] using hVerdict
    · exact Or.inl hId
  · exact Or.inl (not_le.mp hTime)

end Honest

/-- A verification is fair exactly when no hook is configured, or a response is there, or
the deadline has passed. -/
theorem fair_iff {sha : Sha256} {chunks : List Bytes} {tree : MerkleTree} {root : Bytes}
    (hTree : MerkleTree.ofChunks sha chunks = some tree) (hRoot : tree.root = some root)
    {issuedAt : ℚ} {indexBytes nonce : Bytes} {providerId shardId : String}
    {deadlineSeconds : ℤ} {challenge : ProofChallenge}
    (hIssue : issue sha issuedAt indexBytes nonce providerId shardId chunks.length
      deadlineSeconds = some challenge)
    (verifier : ProofVerifier) (now : ℚ) (response : Option ProofResponse) :
    Fair sha verifier tree chunks root challenge now response ↔
      verifier.hasSlashHook = false ∨ response ≠ none ∨ (challenge.deadlineUnix : ℚ) < now := by
  obtain ⟨i, hIdx, hIndex⟩ := index_of_issue hIssue
  obtain ⟨answer, hAnswer, hOk⟩ := verdict_honest verifier now hTree hRoot hIdx hIndex
  constructor
  · intro hFair
    by_cases hHook : verifier.hasSlashHook = true
    · right
      by_cases hNone : response = none
      · right
        have hCalled : (verify sha verifier now challenge response root).2 ≠ none :=
          slashed_iff.mpr ⟨hHook, hNone ▸ verdict_none_ne_ok⟩
        rcases hFair.slashed hCalled with hLate | ⟨r, hSome, -⟩
        · exact hLate
        · rw [hNone] at hSome
          cases hSome
      · exact Or.inl hNone
    · exact Or.inl (by simpa using hHook)
  · intro hCondition
    refine ⟨⟨answer, hAnswer, ?_⟩, ?_⟩
    · intro hSame hTime
      rw [hSame]
      exact hOk hTime
    · intro hCalled
      cases hResponse : response with
      | some r =>
          rw [hResponse] at hCalled
          rcases late_or_wrong hCalled with hLate | hWrong
          · exact Or.inl hLate
          · exact Or.inr ⟨r, rfl, hWrong⟩
      | none =>
          obtain ⟨hHook, -⟩ := slashed_iff.mp hCalled
          left
          simpa [hHook, hResponse] using hCondition

/-! ## A provider that has not answered yet -/

/-- A provider that answers in time is accepted. -/
theorem fair_iff_answered :
    ∃ answer, honestResponse sampleTree sampleChunks sampleChallenge = some answer ∧
      Fair sampleSha ⟨"verifier", true⟩ sampleTree sampleChunks sampleRoot sampleChallenge 1010
        (some answer) := by
  refine ⟨⟨sampleChallenge.challengeId, [98], [digestBytes sampleA]⟩, by decide +kernel, ?_⟩
  have hTree : MerkleTree.ofChunks sampleSha sampleChunks = some sampleTree := by decide +kernel
  have hIssue : issue sampleSha 1000 [0, 0, 0, 1] (List.replicate 16 0) "p" "s"
      sampleChunks.length 30 = some sampleChallenge := by decide +kernel
  apply (fair_iff hTree (by decide +kernel) hIssue ⟨"verifier", true⟩ 1010 _).mpr
  right
  left
  simp

/-- A verification twenty seconds before the deadline, while the provider has not answered,
calls the hook. -/
theorem unfair_before_deadline :
    issue sampleSha 1000 [0, 0, 0, 1] (List.replicate 16 0) "p" "s" 2 30 = some sampleChallenge ∧
      sampleChallenge.deadlineUnix = 1030 ∧
      ¬Fair sampleSha ⟨"verifier", true⟩ sampleTree sampleChunks sampleRoot sampleChallenge 1010
        none := by
  refine ⟨by decide +kernel, rfl, ?_⟩
  intro hFair
  rcases hFair.slashed (by decide +kernel) with hLate | ⟨r, hSome, -⟩
  · have hEarly : ¬(((1030 : ℤ) : ℚ) < 1010) := by norm_num
    exact hEarly hLate
  · cases hSome

end Prsm.Storage
