import Prsm.NodeProofs.Completeness

/-!
# What an accepted proof shows

The verifier binds a proof to the trusted root, but neither the leaf index nor the number
of siblings to the nonce of the challenge.  An accepted proof shows a string that is hashed
at the place which its own index and length lead to: any chunk of the content, or the text
of the two digests below an inner node.
-/

namespace Prsm.NodeProofs

open Foundations
open Evm (Bytes)
open Settlement (hex)
open Storage (Sha256 digestBytes)

/-- The chunk that `generate_challenge_proof` selects for a nonce. -/
def selectedChunk (sha : Sha256) (g : MerkleProofGenerator) (content : Bytes) (nonce : String) :
    Bytes :=
  chunkAt g content (selectedIndex sha nonce (chunksOf g content).length)

/-- No string but the chunk leads from the located place to the root: the place is the leaf
of the chunk, or a node whose text happens to be the chunk, or no other string leads in the
steps that are left over to the digest of the leaf. -/
def OnlyLeadsFrom (sha : Sha256) (hashed : Set Bytes) (idx : ℤ) (chunk : Bytes) :
    PairTree String × ℕ → Prop
  | (.leaf value, 0) => value = sha.hexdigest chunk
  | (.pair left right, _) =>
      pairText (left.digest sha.hexdigest pairText) (right.digest sha.hexdigest pairText) = chunk
  | (.leaf value, d + 1) => ∀ data ∈ hashed, ∀ lower : List String, lower.length = d + 1 →
      (∀ b ∈ climbStrings sha.hexdigest pairText (stepsAt idx lower) (sha.hexdigest data),
        b ∈ hashed) →
      climb sha.hexdigest pairText (stepsAt idx lower) (sha.hexdigest data) = value →
      data = chunk

section Places

variable {sha : Sha256} {hashed : Set Bytes} {g : MerkleProofGenerator} {content : Bytes}
  {hashes : PairTree String} {chunk : Bytes}

theorem of_locate (sha : Sha256) {tree sub : PairTree String} {directions : List Bool} {d : ℕ}
    (h : tree.locate directions = (sub, d)) :
    (∀ value ∈ sub.leaves, value ∈ tree.leaves) ∧
      ∀ b ∈ sub.strings sha.hexdigest pairText, b ∈ tree.strings sha.hexdigest pairText := by
  induction directions generalizing tree with
  | nil =>
      have hSame : tree = sub := by cases tree <;> simp_all [PairTree.locate]
      rw [hSame]
      exact ⟨fun _ h => h, fun _ h => h⟩
  | cons isRight rest ih =>
      cases tree with
      | leaf value =>
          have hSame : PairTree.leaf value = sub := congrArg Prod.fst h
          rw [← hSame]
          exact ⟨fun _ h => h, fun _ h => h⟩
      | pair left right =>
          obtain ⟨hLeaves, hStrings⟩ := ih h
          refine ⟨fun value hValue => ?_, fun b hb => ?_⟩
          · have hSub := hLeaves value hValue
            cases isRight <;> simp at hSub <;> simp [PairTree.leaves, hSub]
          · have hSub := hStrings b hb
            cases isRight <;> simp at hSub <;> simp [PairTree.strings, hSub]

theorem forall_starts_iff (hInj : Set.InjOn sha.digest hashed)
    (hBuild : ∀ b ∈ hashedToBuild sha g content, b ∈ hashed)
    (hHashes : PairTree.ofList ((chunksOf g content).map sha.hexdigest) = some hashes)
    (hChunk : chunk ∈ chunksOf g content) (idx : ℤ) (directions : List Bool) :
    (∀ data ∈ hashed, Starts sha.hexdigest pairText hashed idx data (hashes.locate directions) →
      data = chunk) ↔ OnlyLeadsFrom sha hashed idx chunk (hashes.locate directions) := by
  have hInjHex := Storage.injOn_hexdigest hInj
  have hMem : ∀ c ∈ chunksOf g content, c ∈ hashed :=
    fun c hc => hBuild c (List.mem_append_left _ hc)
  rcases hPlace : hashes.locate directions with ⟨sub, d⟩
  obtain ⟨hSubLeaves, hSubStrings⟩ := of_locate sha hPlace
  cases sub with
  | pair left right =>
      have hText : pairText (left.digest sha.hexdigest pairText)
          (right.digest sha.hexdigest pairText) ∈ hashed := by
        have hLoop := PairTree.strings_of_ofList sha.hexdigest pairText hHashes _
          (hSubStrings _ List.mem_cons_self)
        rw [List.length_map] at hLoop
        exact hBuild _ (List.mem_append_right _ hLoop)
      constructor
      · exact fun h => h _ hText rfl
      · intro hOnly data _ hStart
        have hData : data = pairText _ _ := hStart
        rw [hData]
        exact hOnly
  | leaf value =>
      cases d with
      | zero =>
          have hValue := hSubLeaves value (List.mem_singleton_self value)
          rw [PairTree.leaves_of_ofList hHashes] at hValue
          obtain ⟨owner, hOwner, rfl⟩ := List.mem_map.mp hValue
          constructor
          · intro h
            have hSame := h owner (hMem owner hOwner)
              ⟨[], rfl, by simp [stepsAt, climbStrings], rfl⟩
            rw [hSame]
            rfl
          · rintro hOnly data hData ⟨lower, hNil, -, hClimb⟩
            rw [List.length_eq_zero_iff.mp hNil] at hClimb
            exact hInjHex hData (hMem chunk hChunk) (hClimb.trans hOnly)
      | succ d =>
          constructor
          · intro h data hData lower hLength hStrings hClimb
            exact h data hData ⟨lower, hLength, hStrings, hClimb⟩
          · rintro hOnly data hData ⟨lower, hLength, hStrings, hClimb⟩
            exact hOnly data hData lower hLength hStrings hClimb

end Places

/-- For content, a nonce, a leaf index and a number of siblings: accepted proofs always show
the selected chunk exactly when only that chunk leads from where they lead. -/
theorem shows_selected_iff {sha : Sha256} {hashed : Set Bytes}
    (hInj : Set.InjOn sha.digest hashed) {g : MerkleProofGenerator} {content : Bytes}
    (hContent : content ≠ []) (hBuild : ∀ b ∈ hashedToBuild sha g content, b ∈ hashed)
    {hashes : PairTree String}
    (hHashes : PairTree.ofList ((chunksOf g content).map sha.hexdigest) = some hashes)
    (lib : Library) {challenge : StorageChallenge} (hType : challenge.proofType = .merkle)
    (idx : ℤ) (len : ℕ) :
    (∀ (pending : Pending) (given : Option StorageChallenge) (key : Option Bytes) (now : ℚ)
      (proof : StorageProof) (merkleProof : MerkleProof),
      challengeOf pending proof given = .ok challenge →
      proof.merkleProof = some merkleProof → merkleProof.leafIndex = idx →
      merkleProof.siblings.length = len →
      (∀ b ∈ proof.proofData :: hashedToVerify sha merkleProof, b ∈ hashed) →
      (verifyStorageProof sha lib pending now proof given key
        (some (buildMerkleTree sha g content).rootHash)).1 = .ok () →
      proof.proofData = selectedChunk sha g content challenge.nonce) ↔
    OnlyLeadsFrom sha hashed idx (selectedChunk sha g content challenge.nonce)
      (hashes.locate (bits len idx).reverse) := by
  obtain ⟨-, found, hFound, hLeaves, hRoot, -⟩ := buildMerkleTree_spec sha g hContent
  obtain rfl := Option.some.inj (hHashes.symm.trans hFound)
  have hPos : 0 < (chunksOf g content).length := List.length_pos_iff.mpr (chunksOf_ne_nil hContent)
  have hSelected : selectedChunk sha g content challenge.nonce ∈ chunksOf g content :=
    List.mem_of_getElem? (getElem?_chunksOf (selectedIndex_lt sha challenge.nonce hPos))
  have hTreeStrings : ∀ b ∈ hashes.strings sha.hexdigest pairText, b ∈ hashed := by
    intro b hb
    have hLoop := PairTree.strings_of_ofList sha.hexdigest pairText hHashes b hb
    rw [List.length_map] at hLoop
    exact hBuild b (List.mem_append_right _ hLoop)
  have hLengths : ∀ value ∈ hashes.leaves, value.length = 64 := by
    rw [hLeaves]
    intro value hValue
    obtain ⟨chunk, -, rfl⟩ := List.mem_map.mp hValue
    exact Storage.length_hexdigest sha chunk
  have hAccepted := fun {data : Bytes} (hData : data ∈ hashed) =>
    exists_climb_iff (Storage.framing_text sha) (Storage.injOn_hexdigest hInj) hTreeStrings
      hLengths hData len idx
  rw [← forall_starts_iff hInj hBuild hHashes hSelected]
  constructor
  · -- a string that leads to the root makes a proof that is accepted at the deadline
    intro hSound data hData hStart
    obtain ⟨siblings, hLength, hStrings, hClimb⟩ := (hAccepted hData).mpr hStart
    apply hSound ∅ (some challenge) none challenge.deadline
      ⟨challenge.challengeId, "", challenge.shardHash, .merkle, data, 0, "",
        some ⟨idx, sha.hexdigest data, siblings, (buildMerkleTree sha g content).rootHash⟩⟩
      ⟨idx, sha.hexdigest data, siblings, (buildMerkleTree sha g content).rootHash⟩
      rfl rfl rfl hLength
    · intro b hb
      rcases List.mem_cons.mp hb with rfl | hb
      · exact hData
      · exact hStrings b hb
    · apply (accepted_iff rfl hType).mpr
      refine ⟨⟨le_rfl, rfl, by simp, rfl⟩, _, rfl, rootHash_ne_empty sha g hContent, rfl, ?_, rfl⟩
      rw [verifyProof, decide_eq_true_eq, foldSiblings_eq, hRoot]
      exact hClimb
  · intro hOnly pending given key now proof merkleProof hGiven hMerkle hIdx hLength hStrings hOk
    obtain ⟨-, found, hSome, -, hRootHash, hPath, hLeaf⟩ := (accepted_iff hGiven hType).mp hOk
    obtain rfl := Option.some.inj (hMerkle.symm.trans hSome)
    have hData := hStrings _ List.mem_cons_self
    rw [hashedToVerify, hIdx, ← hLeaf] at hStrings
    rw [verifyProof, decide_eq_true_eq, foldSiblings_eq, hRootHash, hRoot, hIdx, ← hLeaf] at hPath
    exact hOnly _ hData ((hAccepted hData).mp ⟨merkleProof.siblings, hLength,
      fun b hb => hStrings b (List.mem_cons_of_mem _ hb), hPath⟩)

/-! ## Another chunk than the selected one -/

def sampleChallenge : StorageChallenge where
  challengeId := "challenge"
  shardHash := "shard"
  nonce := "n"
  difficulty := 1024
  deadline := 300
  challengerId := "challenger"
  proofType := .merkle

def otherProof : StorageProof where
  challengeId := "challenge"
  providerId := "provider"
  shardHash := "shard"
  proofType := .merkle
  proofData := [97]
  timestamp := 0
  signature := ""
  merkleProof := some
    ⟨0, hex (digestBytes sampleA), [hex (digestBytes sampleB), hex (digestBytes sampleC)],
      hex (digestBytes sampleRoot)⟩

def sampleLibrary : Library where
  isoformat := fun _ => "1970-01-01T00:00:00+00:00"
  checkSignature := fun _ _ _ => .error ""

/-- With the path of the last of three leaves, only the selected chunk is accepted. -/
theorem shows_selected_iff_lastLeaf :
    ∃ hashes : PairTree String,
      PairTree.ofList ((chunksOf sampleGenerator sampleContent).map sampleSha.hexdigest) =
        some hashes ∧
      OnlyLeadsFrom sampleSha {b | b ∈ sampleHashed} 1
        (selectedChunk sampleSha sampleGenerator sampleContent "n")
        (hashes.locate (bits 1 1).reverse) ∧
      ∀ (pending : Pending) (given : Option StorageChallenge) (key : Option Bytes) (now : ℚ)
        (proof : StorageProof) (merkleProof : MerkleProof),
        challengeOf pending proof given = .ok sampleChallenge →
        proof.merkleProof = some merkleProof → merkleProof.leafIndex = 1 →
        merkleProof.siblings.length = 1 →
        (∀ b ∈ proof.proofData :: hashedToVerify sampleSha merkleProof, b ∈ sampleHashed) →
        (verifyStorageProof sampleSha sampleLibrary pending now proof given key
          (some (buildMerkleTree sampleSha sampleGenerator sampleContent).rootHash)).1 =
            .ok () →
        proof.proofData = selectedChunk sampleSha sampleGenerator sampleContent "n" := by
  let left : PairTree String := .pair (.leaf (hex (digestBytes sampleA)))
    (.leaf (hex (digestBytes sampleB)))
  have hHashes : PairTree.ofList
      ((chunksOf sampleGenerator sampleContent).map sampleSha.hexdigest) =
        some (.pair left (.leaf (hex (digestBytes sampleC)))) := by rfl
  have hOnly : OnlyLeadsFrom sampleSha {b | b ∈ sampleHashed} 1
      (selectedChunk sampleSha sampleGenerator sampleContent "n")
      ((PairTree.pair left (.leaf (hex (digestBytes sampleC)))).locate (bits 1 1).reverse) := by
    show hex (digestBytes sampleC) = _
    decide +kernel
  exact ⟨_, hHashes, hOnly, (shows_selected_iff sampleHashed_injOn (by decide) (by decide +kernel)
    hHashes sampleLibrary rfl 1 1).mpr hOnly⟩

/-- A provider that holds only the first chunk is accepted where the last is challenged. -/
theorem otherChunk_accepted :
    (verifyStorageProof sampleSha sampleLibrary ∅ 0 otherProof (some sampleChallenge) none
        (some (buildMerkleTree sampleSha sampleGenerator sampleContent).rootHash)).1 = .ok () ∧
      (∀ merkleProof, otherProof.merkleProof = some merkleProof →
        ∀ b ∈ hashedToBuild sampleSha sampleGenerator sampleContent ++
          otherProof.proofData :: hashedToVerify sampleSha merkleProof, b ∈ sampleHashed) ∧
      Set.InjOn sampleSha.digest {b | b ∈ sampleHashed} ∧
      selectedChunk sampleSha sampleGenerator sampleContent sampleChallenge.nonce = [99] ∧
      otherProof.proofData = [97] :=
  ⟨by decide +kernel, by rintro _ ⟨⟩; decide +kernel, sampleHashed_injOn, by decide +kernel,
    rfl⟩

end Prsm.NodeProofs
