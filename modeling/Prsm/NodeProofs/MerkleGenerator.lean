import Prsm.Storage.Sha256

/-!
# `MerkleProofGenerator`

Content is cut into chunks, and the leaves are their digests in hexadecimal.  An inner node
is the digest of the text of its two children.  A node that is the odd one out of its level
moves up unchanged; a proof gives it itself as its sibling.
-/

namespace Prsm.NodeProofs

open Foundations
open Evm (Bytes)
open Settlement (utf8 hex)
open Storage (Sha256 digestBytes)

structure MerkleProofGenerator where
  chunkSize : ℕ
  chunkSize_pos : 0 < chunkSize

/-- The generator that provers and verifiers use. -/
def defaultGenerator : MerkleProofGenerator := ⟨4096, by decide⟩

structure MerkleTree where
  rootHash : String
  leaves : List String
  chunkSize : ℕ
  contentSize : ℕ

structure MerkleProof where
  leafIndex : ℤ
  leafHash : String
  siblings : List String
  rootHash : String
  deriving DecidableEq

section Generator

variable (sha : Sha256)

/-- The string that is hashed for two nodes. -/
def pairText (left right : String) : Bytes := utf8 (left ++ right)

def hashPair : String → String → String := joined sha.hexdigest pairText

variable (g : MerkleProofGenerator)

/-- `content[i * chunk_size : (i + 1) * chunk_size]`. -/
def chunkAt (content : Bytes) (i : ℕ) : Bytes :=
  (content.drop (i * g.chunkSize)).take g.chunkSize

/-- The chunks that start within the content. -/
def chunksOf (content : Bytes) : List Bytes :=
  (List.range ((content.length + g.chunkSize - 1) / g.chunkSize)).map (chunkAt g content)

def buildMerkleTree (content : Bytes) : MerkleTree :=
  let leaves := (chunksOf g content).map sha.hexdigest
  match (pairLayers (hashPair sha) leaves.length leaves).head? with
  | none => ⟨sha.hexdigest [], [], g.chunkSize, 0⟩
  | some rootHash => ⟨rootHash, leaves, g.chunkSize, content.length⟩

/-- The loop of `generate_proof` over the levels. -/
def proofSiblings : ℕ → List String → ℕ → Option (List String)
  | 0, _, _ => some []
  | rounds + 1, level, idx =>
      if 1 < level.length then do
        let sibling ← if siblingIndex idx < level.length then level[siblingIndex idx]?
          else level[idx]?
        let rest ← proofSiblings rounds (pairLayer (hashPair sha) level) (idx / 2)
        pure (sibling :: rest)
      else some []

/-- `generate_proof`, which raises on an index out of range. -/
def generateProof (tree : MerkleTree) (leafIndex : ℤ) : Option MerkleProof :=
  if leafIndex < 0 ∨ (tree.leaves.length : ℤ) ≤ leafIndex then none
  else do
    let siblings ← proofSiblings sha tree.leaves.length tree.leaves leafIndex.toNat
    let leafHash ← tree.leaves[leafIndex.toNat]?
    pure ⟨leafIndex, leafHash, siblings, tree.rootHash⟩

/-- The loop of `verify_proof` over the siblings. -/
def foldSiblings : String → ℤ → List String → String
  | currentHash, _, [] => currentHash
  | currentHash, currentIndex, sibling :: rest =>
      if currentIndex % 2 = 0 then
        foldSiblings (hashPair sha currentHash sibling) (currentIndex / 2) rest
      else foldSiblings (hashPair sha sibling currentHash) (currentIndex / 2) rest

def verifyProof (proof : MerkleProof) : Bool :=
  foldSiblings sha proof.leafHash proof.leafIndex proof.siblings = proof.rootHash

/-- `int(sha256(nonce).hexdigest(), 16) % count`. -/
def selectedIndex (nonce : String) (count : ℕ) : ℕ :=
  (sha.digest (utf8 nonce)).foldl (fun n byte => n * 256 + byte.val) 0 % count

/-- `generate_challenge_proof`, which raises on empty content. -/
def generateChallengeProof (content : Bytes) (nonce : String) :
    Option (MerkleTree × MerkleProof × Bytes) :=
  let tree := buildMerkleTree sha g content
  if tree.leaves = [] then none
  else do
    let index := selectedIndex sha nonce tree.leaves.length
    let proof ← generateProof sha tree index
    pure (tree, proof, chunkAt g content index)

end Generator

/-! ## The loops and the tree -/

section Loops

variable (sha : Sha256) {g : MerkleProofGenerator} {content : Bytes}

theorem foldSiblings_eq (hash : String) (idx : ℤ) (siblings : List String) :
    foldSiblings sha hash idx siblings =
      climb sha.hexdigest pairText (stepsAt idx siblings) hash := by
  induction siblings generalizing hash idx with
  | nil => rfl
  | cons sibling rest ih =>
      rw [foldSiblings, ih, ih, stepsAt, climb_cons]
      rcases Int.emod_two_eq_zero_or_one idx with h | h <;>
        simp [stepString, hashPair, joined, h]

omit sha in
theorem chunksOf_ne_nil (h : content ≠ []) : chunksOf g content ≠ [] := by
  have hLength := List.length_pos_iff.mpr h
  have hPos := g.chunkSize_pos
  have hCount : 0 < (content.length + g.chunkSize - 1) / g.chunkSize :=
    Nat.div_pos (by omega) hPos
  intro hNil
  rw [chunksOf, List.map_eq_nil_iff, List.range_eq_nil] at hNil
  omega

omit sha in
theorem getElem?_chunksOf {i : ℕ} (h : i < (chunksOf g content).length) :
    (chunksOf g content)[i]? = some (chunkAt g content i) := by
  rw [chunksOf, List.length_map, List.length_range] at h
  rw [chunksOf, List.getElem?_map, List.getElem?_range h]
  rfl

theorem buildMerkleTree_spec (g : MerkleProofGenerator) (h : content ≠ []) :
    (buildMerkleTree sha g content).leaves = (chunksOf g content).map sha.hexdigest ∧
      ∃ hashes : PairTree String,
        PairTree.ofList ((chunksOf g content).map sha.hexdigest) = some hashes ∧
        hashes.leaves = (chunksOf g content).map sha.hexdigest ∧
        (buildMerkleTree sha g content).rootHash = hashes.digest sha.hexdigest pairText ∧
        (pairLayers (hashPair sha) (buildMerkleTree sha g content).leaves.length
          (buildMerkleTree sha g content).leaves).head? =
            some (buildMerkleTree sha g content).rootHash := by
  have hSome : (chunksOf g content).map sha.hexdigest ≠ [] := by
    rw [Ne, List.map_eq_nil_iff]
    exact chunksOf_ne_nil h
  obtain ⟨hashes, hOf, hLeaves, hHead⟩ :=
    PairTree.ofList_digest sha.hexdigest pairText hSome
  have hHead' : (pairLayers (hashPair sha) ((chunksOf g content).map sha.hexdigest).length
      ((chunksOf g content).map sha.hexdigest)).head? =
        some (hashes.digest sha.hexdigest pairText) := hHead
  have hTree : buildMerkleTree sha g content =
      ⟨hashes.digest sha.hexdigest pairText, (chunksOf g content).map sha.hexdigest,
        g.chunkSize, content.length⟩ := by
    rw [buildMerkleTree, hHead']
  rw [hTree]
  exact ⟨rfl, hashes, hOf, hLeaves, rfl, hHead'⟩

theorem rootHash_ne_empty (g : MerkleProofGenerator) (h : content ≠ []) :
    (buildMerkleTree sha g content).rootHash ≠ "" := by
  obtain ⟨-, hashes, -, hLeaves, hRoot, -⟩ := buildMerkleTree_spec sha g h
  have hLength : (hashes.digest sha.hexdigest pairText).length = 64 := by
    apply PairTree.isDigest_digest (Storage.framing_text sha)
    rw [hLeaves]
    intro value hValue
    obtain ⟨chunk, -, rfl⟩ := List.mem_map.mp hValue
    exact Storage.length_hexdigest sha chunk
  rw [hRoot]
  intro hEmpty
  rw [hEmpty] at hLength
  exact absurd hLength (by decide)

end Loops

/-! ## Three chunks of one byte -/

def sampleGenerator : MerkleProofGenerator := ⟨1, by decide⟩

def sampleContent : Bytes := [97, 98, 99]

def sampleA : ℕ := 0xca978112ca1bbdcafac231b39a23dc4da786eff8147c4e72b9807785afee48bb

def sampleB : ℕ := 0x3e23e8160039594a33894f6564e1b1348bbd7a0088d42c4acb73eeaed59c009d

def sampleC : ℕ := 0x2e7d2c03a9507ae265ecf5b5356885a53393a2029d241394997265a1a25aefc6

def sampleAB : ℕ := 0x62af5c3cb8da3e4f25061e829ebeea5c7513c54949115b1acc225930a90154da

def sampleRoot : ℕ := 0xd71dc32fa2cd95be60b32dbb3e63009fa8064407ee19f457c92a09a5ff841a8a

def sampleCC : ℕ := 0xd50c873877f38fcbc56dbe836b9d979912efcb587ed8eea919372d403b5c2bd4

def sampleText (left right : ℕ) : Bytes :=
  pairText (hex (digestBytes left)) (hex (digestBytes right))

/-- The digests of what is hashed for the tree, for the proof of its last leaf, and for a
nonce. -/
def sampleSha : Sha256 :=
  Sha256.ofTable [
    (utf8 "n", 0x1b16b1df538ba12dc3f97edbb85caa7050d46c148134290feba80f8236c83db9),
    ([97], sampleA),
    ([98], sampleB),
    ([99], sampleC),
    (sampleText sampleA sampleB, sampleAB),
    (sampleText sampleAB sampleC, sampleRoot),
    (sampleText sampleC sampleC, sampleCC),
    (sampleText sampleAB sampleCC,
      0x0bdf27bf7ec894ca7cadfe491ec1a3ece840f117989e8c5e9bd7086467bf6c38)]

def sampleHashed : List Bytes :=
  [[97], [98], [99], sampleText sampleA sampleB, sampleText sampleAB sampleC,
    sampleText sampleC sampleC, sampleText sampleAB sampleCC]

theorem sampleHashed_injOn : Set.InjOn sampleSha.digest {b | b ∈ sampleHashed} := by
  have hPairs : ∀ a ∈ sampleHashed, ∀ b ∈ sampleHashed,
      sampleSha.digest a = sampleSha.digest b → a = b := by decide +kernel
  exact fun a ha b hb => hPairs a ha b hb

end Prsm.NodeProofs
