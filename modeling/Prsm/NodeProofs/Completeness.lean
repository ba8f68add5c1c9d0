import Prsm.NodeProofs.Challenges

/-!
# Which honest proofs are accepted

The builder moves the odd node of a level up unchanged, and the verifier hashes the node
with itself there.  So the proof of a leaf is accepted exactly when no node on its way to
the root is the odd one out.
-/

namespace Prsm.NodeProofs

open Foundations
open Evm (Bytes)
open Settlement (utf8 hex)
open Storage (Sha256 digestBytes)

/-- The number of nodes of a level over the given number of leaves. -/
def levelLength (count : ℕ) : ℕ → ℕ
  | 0 => count
  | k + 1 => (levelLength count k + 1) / 2

/-- No node on the way from the leaf to the root is the last of an odd number of nodes,
but for the root. -/
def IsPaired (count idx : ℕ) : Prop :=
  ∀ k, idx / 2 ^ k % 2 = 0 → idx / 2 ^ k + 1 = levelLength count k → levelLength count k = 1

theorem levelLength_succ (count k : ℕ) :
    levelLength count (k + 1) = levelLength ((count + 1) / 2) k := by
  induction k with
  | zero => rfl
  | succ k ih => rw [levelLength, ih, levelLength]

theorem isPaired_iff {count idx : ℕ} :
    IsPaired count idx ↔
      (idx % 2 = 0 → idx + 1 = count → count = 1) ∧ IsPaired ((count + 1) / 2) (idx / 2) := by
  constructor
  · intro h
    refine ⟨by simpa [levelLength] using h 0, ?_⟩
    intro k
    have hNext := h (k + 1)
    rw [levelLength_succ, pow_succ', ← Nat.div_div_eq_div_mul] at hNext
    exact hNext
  · rintro ⟨hLeaf, hAbove⟩ k
    cases k with
    | zero => simpa [levelLength] using hLeaf
    | succ k =>
        rw [levelLength_succ, pow_succ', ← Nat.div_div_eq_div_mul]
        exact hAbove k

theorem levelLength_one (k : ℕ) : levelLength 1 k = 1 := by
  induction k with
  | zero => rfl
  | succ k ih => rw [levelLength, ih]

section Siblings

variable {sha : Sha256}

variable {rounds idx : ℕ} {level : List String} {node : String}

theorem proofSiblings_paired {sibling : String}
    (hLong : 1 < level.length) (hSibling : level[siblingIndex idx]? = some sibling) :
    proofSiblings sha (rounds + 1) level idx =
      (proofSiblings sha rounds (pairLayer (hashPair sha) level) (idx / 2)).map
        (sibling :: ·) := by
  obtain ⟨hIdx, -⟩ := List.getElem?_eq_some_iff.mp hSibling
  rw [proofSiblings, if_pos hLong, if_pos hIdx, hSibling]
  cases proofSiblings sha rounds (pairLayer (hashPair sha) level) (idx / 2) <;> rfl

theorem proofSiblings_last
    (hLong : 1 < level.length) (hNode : level[idx]? = some node) (hEven : idx % 2 = 0)
    (hLast : idx + 1 = level.length) :
    proofSiblings sha (rounds + 1) level idx =
      (proofSiblings sha rounds (pairLayer (hashPair sha) level) (idx / 2)).map
        (node :: ·) := by
  have hNone : ¬siblingIndex idx < level.length := by
    unfold siblingIndex
    rw [if_pos hEven]
    omega
  rw [proofSiblings, if_pos hLong, if_neg hNone, hNode]
  cases proofSiblings sha rounds (pairLayer (hashPair sha) level) (idx / 2) <;> rfl

theorem foldSiblings_cons (hash sibling : String) (idx : ℕ) (rest : List String) :
    foldSiblings sha hash idx (sibling :: rest) =
      foldSiblings sha (sha.hexdigest (stepString pairText hash
        (decide (idx % 2 = 1), sibling))) (idx / 2 : ℕ) rest := by
  rw [foldSiblings_eq, foldSiblings_eq, stepsAt_natCast_cons, climb_cons]

theorem sibling_or_last
    (hNode : level[idx]? = some node) :
    (∃ sibling, level[siblingIndex idx]? = some sibling ∧
      ¬(idx % 2 = 0 ∧ idx + 1 = level.length)) ∨
      (idx % 2 = 0 ∧ idx + 1 = level.length) := by
  obtain ⟨hIdx, -⟩ := List.getElem?_eq_some_iff.mp hNode
  by_cases hLast : idx % 2 = 0 ∧ idx + 1 = level.length
  · exact Or.inr hLast
  · exact Or.inl ⟨_, List.getElem?_eq_getElem (siblingIndex_lt hIdx hLast), hLast⟩

theorem exists_proofSiblings (sha : Sha256)
    (hNode : level[idx]? = some node) (hRounds : level.length ≤ rounds + 1) :
    ∃ siblings, proofSiblings sha rounds level idx = some siblings ∧
      (IsPaired level.length idx → (pairLayers (hashPair sha) rounds level).head? =
        some (foldSiblings sha node idx siblings)) := by
  obtain ⟨hIdx, -⟩ := List.getElem?_eq_some_iff.mp hNode
  induction rounds generalizing level idx node with
  | zero => exact ⟨[], rfl, fun _ => head?_of_length_le_one hNode hRounds⟩
  | succ rounds ih =>
      by_cases hLong : 1 < level.length
      · have hHalf := @length_pairLayer _ (hashPair sha) level
        rcases sibling_or_last hNode with ⟨sibling, hSibling, -⟩ | ⟨hEven, hLast⟩
        · have hParent := getElem?_pairLayer_sibling sha.hexdigest pairText hNode hSibling
          have hParent' : (pairLayer (hashPair sha) level)[idx / 2]? = _ := hParent
          obtain ⟨siblings, hSiblings, hRoot⟩ := ih hParent' (by omega) (by omega)
          refine ⟨sibling :: siblings, ?_, ?_⟩
          · rw [proofSiblings_paired hLong hSibling, hSiblings]
            rfl
          · intro hPaired
            rw [hHalf] at hRoot
            rw [pairLayers, if_pos hLong, foldSiblings_cons]
            exact hRoot (isPaired_iff.mp hPaired).2
        · have hParent := getElem?_pairLayer_last (hashPair sha) hEven hLast
          rw [hNode] at hParent
          obtain ⟨siblings, hSiblings, -⟩ := ih hParent (by omega) (by omega)
          refine ⟨node :: siblings, ?_, ?_⟩
          · rw [proofSiblings_last hLong hNode hEven hLast, hSiblings]
            rfl
          · intro hPaired
            have hOne := (isPaired_iff.mp hPaired).1 hEven hLast
            omega
      · refine ⟨[], ?_, ?_⟩
        · rw [proofSiblings, if_neg hLong]
        · intro _
          rw [pairLayers, if_neg hLong]
          exact head?_of_length_le_one hNode (by omega)

end Siblings

/-! ## Where the odd one out is hashed with itself -/

section Rejected

variable {sha : Sha256} {hashed : Set Bytes}

/-- No hashed string ends in its own digest. -/
def NoSelfDigest (sha : Sha256) (hashed : Set Bytes) : Prop :=
  ∀ front digest, pairText front digest ∈ hashed → sha.hexdigest (pairText front digest) ≠ digest

variable (hInj : Set.InjOn sha.digest hashed) (hSelf : NoSelfDigest sha hashed)

include hInj hSelf

theorem foldSiblings_ne_root {rounds idx : ℕ} {level siblings : List String}
    {node wrong : String} (hNode : level[idx]? = some node) (hRounds : level.length ≤ rounds + 1)
    (hSiblings : proofSiblings sha rounds level idx = some siblings)
    (hLengths : ∀ value ∈ level, value.length = 64) (hWrongLength : wrong.length = 64)
    (hLoop : ∀ b ∈ loopStrings sha.hexdigest pairText rounds level, b ∈ hashed)
    (hStrings : ∀ b ∈ climbStrings sha.hexdigest pairText (stepsAt idx siblings) wrong,
      b ∈ hashed)
    (hNe : wrong ≠ node) :
    (pairLayers (hashPair sha) rounds level).head? ≠
      some (foldSiblings sha wrong idx siblings) := by
  obtain ⟨hIdx, -⟩ := List.getElem?_eq_some_iff.mp hNode
  have hNodeLength := hLengths node (List.mem_of_getElem? hNode)
  induction rounds generalizing level idx node wrong siblings with
  | zero =>
      obtain rfl := Option.some.inj hSiblings
      have hHead : level.head? = some node := head?_of_length_le_one hNode hRounds
      show level.head? ≠ some wrong
      rw [hHead]
      exact fun h => hNe (Option.some.inj h).symm
  | succ rounds ih =>
      by_cases hLong : 1 < level.length
      · have hHalf := @length_pairLayer _ (hashPair sha) level
        have hAbove : ∀ b ∈ loopStrings sha.hexdigest pairText rounds
            (pairLayer (hashPair sha) level), b ∈ hashed :=
          fun b hb => hLoop b (loopStrings_above sha.hexdigest pairText hLong hb)
        have hLengths' : ∀ value ∈ pairLayer (hashPair sha) level, value.length = 64 :=
          @forall_pairLayer _ (hashPair sha) (fun value => value.length = 64)
            (fun a b => Storage.length_hexdigest sha _) level hLengths
        rw [pairLayers, if_pos hLong]
        rcases sibling_or_last hNode with ⟨sibling, hSibling, -⟩ | ⟨hEven, hLast⟩
        · rw [proofSiblings_paired hLong hSibling] at hSiblings
          obtain ⟨rest, hRest, rfl⟩ := Option.map_eq_some_iff.mp hSiblings
          have hParent : (pairLayer (hashPair sha) level)[idx / 2]? = _ :=
            getElem?_pairLayer_sibling sha.hexdigest pairText hNode hSibling
          rw [stepsAt_natCast_cons] at hStrings
          have hFirst := hStrings _ List.mem_cons_self
          rw [foldSiblings_cons]
          apply ih hParent (by omega) hRest hLengths' (Storage.length_hexdigest sha _) hAbove
          · exact fun b hb => hStrings b (List.mem_cons_of_mem _ hb)
          · intro hSame
            have hTrue := hLoop _ (stepString_mem_loopStrings sha.hexdigest pairText hNode hSibling)
            have hString := Storage.injOn_hexdigest hInj hFirst hTrue hSame
            exact hNe (step_inj (Storage.framing_text sha) hWrongLength hNodeLength hString).1
          · omega
          · exact Storage.length_hexdigest sha _
        · rw [proofSiblings_last hLong hNode hEven hLast] at hSiblings
          obtain ⟨rest, hRest, rfl⟩ := Option.map_eq_some_iff.mp hSiblings
          have hParent := getElem?_pairLayer_last (hashPair sha) hEven hLast
          rw [hNode] at hParent
          rw [stepsAt_natCast_cons] at hStrings
          have hFirst := hStrings _ List.mem_cons_self
          rw [foldSiblings_cons]
          apply ih hParent (by omega) hRest hLengths' (Storage.length_hexdigest sha _) hAbove
          · exact fun b hb => hStrings b (List.mem_cons_of_mem _ hb)
          · have hOdd : decide (idx % 2 = 1) = false := by simp [hEven]
            rw [hOdd] at hFirst ⊢
            exact hSelf wrong node hFirst
          · omega
          · exact hNodeLength
      · have hNil : siblings = [] := by
          rw [proofSiblings, if_neg hLong] at hSiblings
          exact (Option.some.inj hSiblings).symm
        have hHead : level.head? = some node := head?_of_length_le_one hNode (by omega)
        rw [pairLayers, if_neg hLong, hHead, hNil]
        exact fun h => hNe (Option.some.inj h).symm

theorem leads_to_root_iff {rounds idx : ℕ} {level siblings : List String} {node : String}
    (hNode : level[idx]? = some node) (hRounds : level.length ≤ rounds + 1)
    (hSiblings : proofSiblings sha rounds level idx = some siblings)
    (hLengths : ∀ value ∈ level, value.length = 64)
    (hLoop : ∀ b ∈ loopStrings sha.hexdigest pairText rounds level, b ∈ hashed)
    (hStrings : ∀ b ∈ climbStrings sha.hexdigest pairText (stepsAt idx siblings) node,
      b ∈ hashed) :
    (pairLayers (hashPair sha) rounds level).head? = some (foldSiblings sha node idx siblings) ↔
      IsPaired level.length idx := by
  constructor
  swap
  · intro hPaired
    obtain ⟨found, hFound, hRoot⟩ := exists_proofSiblings sha hNode hRounds
    obtain rfl := Option.some.inj (hSiblings.symm.trans hFound)
    exact hRoot hPaired
  intro hRoot
  obtain ⟨hIdx, -⟩ := List.getElem?_eq_some_iff.mp hNode
  have hNodeLength := hLengths node (List.mem_of_getElem? hNode)
  induction rounds generalizing level idx node siblings with
  | zero =>
      have hOne : level.length = 1 := by omega
      intro k _ _
      rw [hOne, levelLength_one]
  | succ rounds ih =>
      by_cases hLong : 1 < level.length
      · have hHalf := @length_pairLayer _ (hashPair sha) level
        have hAbove : ∀ b ∈ loopStrings sha.hexdigest pairText rounds
            (pairLayer (hashPair sha) level), b ∈ hashed :=
          fun b hb => hLoop b (loopStrings_above sha.hexdigest pairText hLong hb)
        have hLengths' : ∀ value ∈ pairLayer (hashPair sha) level, value.length = 64 :=
          @forall_pairLayer _ (hashPair sha) (fun value => value.length = 64)
            (fun a b => Storage.length_hexdigest sha _) level hLengths
        rw [pairLayers, if_pos hLong] at hRoot
        rcases sibling_or_last hNode with ⟨sibling, hSibling, hNotLast⟩ | ⟨hEven, hLast⟩
        · rw [proofSiblings_paired hLong hSibling] at hSiblings
          obtain ⟨rest, hRest, rfl⟩ := Option.map_eq_some_iff.mp hSiblings
          have hParent : (pairLayer (hashPair sha) level)[idx / 2]? = _ :=
            getElem?_pairLayer_sibling sha.hexdigest pairText hNode hSibling
          rw [stepsAt_natCast_cons] at hStrings
          rw [foldSiblings_cons] at hRoot
          have hAbovePaired := ih hParent (by omega) hRest hLengths' hAbove
            (fun b hb => hStrings b (List.mem_cons_of_mem _ hb)) hRoot (by omega)
            (Storage.length_hexdigest sha _)
          rw [hHalf] at hAbovePaired
          exact isPaired_iff.mpr ⟨fun hEven hLast => absurd ⟨hEven, hLast⟩ hNotLast,
            hAbovePaired⟩
        · -- hashed with itself, the node is lost
          rw [proofSiblings_last hLong hNode hEven hLast] at hSiblings
          obtain ⟨rest, hRest, rfl⟩ := Option.map_eq_some_iff.mp hSiblings
          have hParent := getElem?_pairLayer_last (hashPair sha) hEven hLast
          rw [hNode] at hParent
          rw [stepsAt_natCast_cons] at hStrings
          have hFirst := hStrings _ List.mem_cons_self
          have hOdd : decide (idx % 2 = 1) = false := by simp [hEven]
          rw [foldSiblings_cons] at hRoot
          have hWrong := foldSiblings_ne_root hInj hSelf hParent (by omega) hRest hLengths'
            (Storage.length_hexdigest sha _) hAbove
            (fun b hb => hStrings b (List.mem_cons_of_mem _ hb))
            (by rw [hOdd] at hFirst ⊢; exact hSelf node node hFirst)
          exact absurd hRoot hWrong
      · have hOne : level.length = 1 := by omega
        intro k _ _
        rw [hOne, levelLength_one]

end Rejected

/-! ## Proofs of leaves and answers to challenges -/

/-- The strings hashed to build the tree over content. -/
def hashedToBuild (sha : Sha256) (g : MerkleProofGenerator) (content : Bytes) : List Bytes :=
  chunksOf g content ++ loopStrings sha.hexdigest pairText (chunksOf g content).length
    ((chunksOf g content).map sha.hexdigest)

/-- The strings hashed to follow a proof. -/
def hashedToVerify (sha : Sha256) (proof : MerkleProof) : List Bytes :=
  climbStrings sha.hexdigest pairText (stepsAt proof.leafIndex proof.siblings) proof.leafHash

section Answers

variable {sha : Sha256} {content : Bytes} {hashed : Set Bytes}

theorem exists_generateProof (g : MerkleProofGenerator) (hContent : content ≠ [])
    (hInj : Set.InjOn sha.digest hashed) (hSelf : NoSelfDigest sha hashed)
    (hBuild : ∀ b ∈ hashedToBuild sha g content, b ∈ hashed) {i : ℕ}
    (hIdx : i < (chunksOf g content).length) :
    ∃ proof, generateProof sha (buildMerkleTree sha g content) i = some proof ∧
      proof.rootHash = (buildMerkleTree sha g content).rootHash ∧
      proof.leafHash = sha.hexdigest (chunkAt g content i) ∧
      ((∀ b ∈ hashedToVerify sha proof, b ∈ hashed) →
        (verifyProof sha proof = true ↔ IsPaired (chunksOf g content).length i)) := by
  obtain ⟨hLeaves, -, -, -, -, hHead⟩ :=
    buildMerkleTree_spec sha g hContent
  have hNode : (buildMerkleTree sha g content).leaves[i]? =
      some (sha.hexdigest (chunkAt g content i)) := by
    rw [hLeaves, List.getElem?_map, getElem?_chunksOf hIdx]
    rfl
  have hCount : (buildMerkleTree sha g content).leaves.length = (chunksOf g content).length := by
    rw [hLeaves, List.length_map]
  obtain ⟨siblings, hSiblings, -⟩ :=
    exists_proofSiblings sha hNode (Nat.le_succ _)
  have hRange : ¬((i : ℤ) < 0 ∨ ((buildMerkleTree sha g content).leaves.length : ℤ) ≤ i) := by
    omega
  refine ⟨⟨i, sha.hexdigest (chunkAt g content i), siblings,
    (buildMerkleTree sha g content).rootHash⟩, ?_, rfl, rfl, ?_⟩
  · rw [generateProof, if_neg hRange, Int.toNat_natCast, hSiblings, hNode]
    rfl
  · intro hStrings
    have hLengths : ∀ value ∈ (buildMerkleTree sha g content).leaves, value.length = 64 := by
      intro value hValue
      rw [hLeaves] at hValue
      obtain ⟨chunk, -, rfl⟩ := List.mem_map.mp hValue
      exact Storage.length_hexdigest sha chunk
    have hLoop : ∀ b ∈ loopStrings sha.hexdigest pairText
        (buildMerkleTree sha g content).leaves.length (buildMerkleTree sha g content).leaves,
        b ∈ hashed := by
      intro b hb
      apply hBuild b
      rw [hCount, hLeaves] at hb
      exact List.mem_append_right _ hb
    rw [← hCount, ← leads_to_root_iff hInj hSelf hNode (Nat.le_succ _) hSiblings hLengths hLoop
      hStrings, hHead, verifyProof, decide_eq_true_eq, Option.some_inj]
    exact eq_comm

theorem selectedIndex_lt (sha : Sha256) (nonce : String) {count : ℕ} (h : 0 < count) :
    selectedIndex sha nonce count < count :=
  Nat.mod_lt _ h

theorem generateChallengeProof_eq {g : MerkleProofGenerator} {nonce : String}
    {proof : MerkleProof} (hContent : content ≠ [])
    (hProof : generateProof sha (buildMerkleTree sha g content)
      (selectedIndex sha nonce (chunksOf g content).length : ℕ) = some proof) :
    generateChallengeProof sha g content nonce =
      some (buildMerkleTree sha g content, proof,
        chunkAt g content (selectedIndex sha nonce (chunksOf g content).length)) := by
  obtain ⟨hLeaves, -⟩ := buildMerkleTree_spec sha g hContent
  have hSome : (buildMerkleTree sha g content).leaves ≠ [] := by
    rw [hLeaves, Ne, List.map_eq_nil_iff]
    exact chunksOf_ne_nil hContent
  have hCount : (buildMerkleTree sha g content).leaves.length = (chunksOf g content).length := by
    rw [hLeaves, List.length_map]
  rw [generateChallengeProof, if_neg hSome, hCount]
  simp only [hProof]
  rfl

variable {lib : Library} {identity : NodeIdentity} {pending : Pending}
  {getContent : String → Option Bytes} {given : Option Bytes} {challenge : StorageChallenge}
  {key : Option Bytes} {answeredAt checkedAt : ℚ}

theorem exists_answer (hContent : content ≠ []) (hInj : Set.InjOn sha.digest hashed)
    (hSelf : NoSelfDigest sha hashed)
    (hBuild : ∀ b ∈ hashedToBuild sha defaultGenerator content, b ∈ hashed)
    (hType : challenge.proofType = .merkle) (hAnswered : answeredAt ≤ challenge.deadline)
    (hChecked : checkedAt ≤ challenge.deadline)
    (hGiven : given.or (getContent challenge.shardHash) = some content)
    (hKey : ∀ k, key = some k → ∀ data, lib.checkSignature k (identity.sign data) data = .ok ()) :
    ∃ proof merkleProof,
      answerChallenge sha lib identity answeredAt getContent challenge given = some proof ∧
      proof.merkleProof = some merkleProof ∧
      ((∀ b ∈ hashedToVerify sha merkleProof, b ∈ hashed) →
        ((verifyStorageProof sha lib pending checkedAt proof (some challenge) key
          (some (buildMerkleTree sha defaultGenerator content).rootHash)).1 = .ok () ↔
          IsPaired (chunksOf defaultGenerator content).length
            (selectedIndex sha challenge.nonce (chunksOf defaultGenerator content).length))) := by
  have hPos : 0 < (chunksOf defaultGenerator content).length :=
    List.length_pos_iff.mpr (chunksOf_ne_nil hContent)
  obtain ⟨merkleProof, hGenerated, hRootHash, hLeafHash, hVerify⟩ :=
    exists_generateProof defaultGenerator hContent hInj hSelf hBuild
      (selectedIndex_lt sha challenge.nonce hPos)
  have hChallengeProof := generateChallengeProof_eq hContent hGenerated
  have hFor : proofFor sha content challenge = some (chunkAt defaultGenerator content
      (selectedIndex sha challenge.nonce (chunksOf defaultGenerator content).length),
        some merkleProof) := by
    simp only [proofFor, hType, hChallengeProof]
    rfl
  have hNotExpired : challenge.isExpired answeredAt = false := by
    simpa [StorageChallenge.isExpired] using hAnswered
  have hAnswer : ∃ proof,
      answerChallenge sha lib identity answeredAt getContent challenge given = some proof ∧
      proof.merkleProof = some merkleProof ∧ proof.shardHash = challenge.shardHash ∧
      proof.proofType = challenge.proofType ∧
      proof.proofData = chunkAt defaultGenerator content
        (selectedIndex sha challenge.nonce (chunksOf defaultGenerator content).length) ∧
      proof.signature = identity.sign (signedData lib proof) := by
    rw [answerChallenge, hNotExpired, hGiven]
    simp only [Bool.false_eq_true, if_false, Option.bind_eq_bind, Option.bind_some, hFor]
    exact ⟨_, rfl, rfl, rfl, rfl, rfl, rfl⟩
  obtain ⟨proof, hSome, hMerkle, hShard, hSameType, hData, hSignature⟩ := hAnswer
  refine ⟨proof, merkleProof, hSome, hMerkle, ?_⟩
  intro hStrings
  rw [accepted_iff rfl hType, ← hVerify hStrings]
  constructor
  · rintro ⟨-, found, hFound, -, -, hPath, -⟩
    obtain rfl := Option.some.inj (hMerkle.symm.trans hFound)
    exact hPath
  · intro hPath
    refine ⟨⟨hChecked, hShard.symm, ?_, hSameType.trans hType⟩, merkleProof, hMerkle,
      rootHash_ne_empty sha _ hContent, hRootHash, hPath, ?_⟩
    · intro k hk
      rw [hSignature]
      exact ⟨(), hKey k hk _⟩
    · rw [hData, hLeafHash]

end Answers

/-- For all content and every leaf the generated proof is accepted, and so is the answer to
an unexpired challenge, exactly when all nodes on the way to the root are paired. -/
theorem honest_accepted_iff {sha : Sha256} {hashed : Set Bytes}
    (hInj : Set.InjOn sha.digest hashed) (hSelf : NoSelfDigest sha hashed) {content : Bytes}
    (hContent : content ≠ []) :
    (∀ (g : MerkleProofGenerator) (i : ℕ), i < (chunksOf g content).length →
      (∀ b ∈ hashedToBuild sha g content, b ∈ hashed) →
      ∃ proof, generateProof sha (buildMerkleTree sha g content) i = some proof ∧
        ((∀ b ∈ hashedToVerify sha proof, b ∈ hashed) →
          (verifyProof sha proof = true ↔ IsPaired (chunksOf g content).length i))) ∧
    (∀ (lib : Library) (identity : NodeIdentity) (pending : Pending)
      (getContent : String → Option Bytes) (given : Option Bytes) (challenge : StorageChallenge)
      (key : Option Bytes) (answeredAt checkedAt : ℚ),
      (∀ b ∈ hashedToBuild sha defaultGenerator content, b ∈ hashed) →
      challenge.proofType = .merkle → answeredAt ≤ challenge.deadline →
      checkedAt ≤ challenge.deadline →
      given.or (getContent challenge.shardHash) = some content →
      (∀ k, key = some k → ∀ data, lib.checkSignature k (identity.sign data) data = .ok ()) →
      ∃ proof merkleProof,
        answerChallenge sha lib identity answeredAt getContent challenge given = some proof ∧
        proof.merkleProof = some merkleProof ∧
        ((∀ b ∈ hashedToVerify sha merkleProof, b ∈ hashed) →
          ((verifyStorageProof sha lib pending checkedAt proof (some challenge) key
            (some (buildMerkleTree sha defaultGenerator content).rootHash)).1 = .ok () ↔
            IsPaired (chunksOf defaultGenerator content).length
              (selectedIndex sha challenge.nonce
                (chunksOf defaultGenerator content).length)))) := by
  constructor
  · intro g i hIdx hBuild
    obtain ⟨proof, hProof, -, -, hVerify⟩ :=
      exists_generateProof g hContent hInj hSelf hBuild hIdx
    exact ⟨proof, hProof, hVerify⟩
  · intro lib identity pending getContent given challenge key answeredAt checkedAt hBuild hType
      hAnswered hChecked hGiven hKey
    exact exists_answer hContent hInj hSelf hBuild hType hAnswered hChecked hGiven hKey

/-! ## Three chunks -/

theorem noSelfDigest_of_suffix {sha : Sha256} {hashed : Set Bytes}
    (h : ∀ b ∈ hashed, ¬utf8 (sha.hexdigest b) <:+ b) : NoSelfDigest sha hashed := by
  intro front digest hMem hSelf
  apply h _ hMem
  rw [hSelf, pairText, Settlement.utf8_append]
  exact List.suffix_append _ _

theorem sample_noSelfDigest : NoSelfDigest sampleSha {b | b ∈ sampleHashed} := by
  apply noSelfDigest_of_suffix
  have hSuffix : ∀ b ∈ sampleHashed, ¬utf8 (sampleSha.hexdigest b) <:+ b := by decide +kernel
  exact fun b hb => hSuffix b hb

/-- The proof of the first of three leaves is accepted. -/
theorem honest_accepted_iff_firstOfThree :
    ∃ proof, generateProof sampleSha (buildMerkleTree sampleSha sampleGenerator sampleContent) 0 =
      some proof ∧ verifyProof sampleSha proof = true := by
  obtain ⟨proof, hProof, hVerify⟩ :=
    (honest_accepted_iff sampleHashed_injOn sample_noSelfDigest (by decide)).1 sampleGenerator 0
      (show 0 < (chunksOf sampleGenerator sampleContent).length by decide) (by decide +kernel)
  have hSame : generateProof sampleSha
      (buildMerkleTree sampleSha sampleGenerator sampleContent) 0 = some
        ⟨0, hex (digestBytes sampleA), [hex (digestBytes sampleB), hex (digestBytes sampleC)],
          hex (digestBytes sampleRoot)⟩ := by decide +kernel
  obtain rfl := Option.some.inj (hSame.symm.trans hProof)
  refine ⟨_, hProof, (hVerify (by decide +kernel)).mpr ?_⟩
  intro k _ hLast
  rw [Nat.zero_div] at hLast
  exact hLast.symm

/-- The proof of the last of three leaves is not accepted. -/
theorem lastOfThree_rejected :
    ∃ proof, generateProof sampleSha (buildMerkleTree sampleSha sampleGenerator sampleContent) 2 =
      some proof ∧ verifyProof sampleSha proof = false :=
  ⟨⟨2, hex (digestBytes sampleC), [hex (digestBytes sampleC), hex (digestBytes sampleAB)],
    hex (digestBytes sampleRoot)⟩, by decide +kernel, by decide +kernel⟩

end Prsm.NodeProofs
