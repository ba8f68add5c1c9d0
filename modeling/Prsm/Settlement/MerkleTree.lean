import Prsm.Settlement.Merkle

/-!
# The Merkle tree over byte strings

`build_merkle_root`, `build_merkle_proof` and `verify_merkle_proof` work on
lists of byte strings and look at no length.  With 32-byte leaf hashes and
32-byte siblings a proof leads to the root from a leaf only, and the root
determines the leaves up to their order.  A longer sibling can stand in for the
rest of a leaf's own preimage.

The contracts verify the same proofs over `bytes32` words; the words and their
byte strings are compared at the end.
-/

namespace Prsm.Settlement.MerkleTree

open Foundations Evm

variable (keccak256 : Keccak)

/-- The 32 bytes of a hash. -/
def digest (preimage : Bytes) : Bytes := abiWord (keccak256 preimage).val

/-- What `_hash_pair` hashes: the smaller byte string first. -/
def pairPreimage (a b : Bytes) : Bytes := if a < b then a ++ b else b ++ a

def hashPair (a b : Bytes) : Bytes := digest keccak256 (pairPreimage a b)

/-- `build_merkle_root`, with `none` where it raises.  Each round shortens the
layer, so as many rounds as there are leaves complete the loop. -/
def buildMerkleRoot (leafHashes : List Bytes) : Option Bytes :=
  (pairLayers (hashPair keccak256) leafHashes.length leafHashes).head?

/-- `build_merkle_proof`, with `none` where it raises. -/
def buildMerkleProof (leafHashes : List Bytes) (leafIndex : Int) : Option (List Bytes) :=
  if leafHashes = [] then none
  else if leafIndex < 0 ∨ (leafHashes.length : Int) ≤ leafIndex then none
  else some (siblings (hashPair keccak256) leafHashes.length leafHashes leafIndex.toNat)

def verifyMerkleProof (proof : List Bytes) (root leafHash : Bytes) : Bool :=
  proof.foldl (hashPair keccak256) leafHash = root

/-! ## What is hashed, and the assumptions on it -/

/-- The pairs hashed by `build_merkle_root`. -/
def rootPreimages (leafHashes : List Bytes) : List Bytes :=
  (loopPairs (hashPair keccak256) leafHashes.length leafHashes).map fun q => pairPreimage q.1 q.2

/-- The pairs hashed by `verify_merkle_proof`. -/
def proofPreimages (proof : List Bytes) (leafHash : Bytes) : List Bytes :=
  (foldPairs (hashPair keccak256) proof leafHash).map fun q => pairPreimage q.1 q.2

/-- The hash function has no collision among the given byte strings. -/
def CollisionFree (preimages : List Bytes) : Prop :=
  ∀ p ∈ preimages, ∀ q ∈ preimages, keccak256 p = keccak256 q → p = q

/-- None of the leaf hashes is the hash of a 64-byte pair among the byte strings. -/
def NoLeafIsPair (leafHashes preimages : List Bytes) : Prop :=
  ∀ leaf ∈ leafHashes, ∀ p ∈ preimages, p.length = 64 → digest keccak256 p ≠ leaf

/-- Every byte string of the list has the length of a hash. -/
def HashSized (hashes : List Bytes) : Prop :=
  ∀ hash ∈ hashes, hash.length = 32

instance (hashes : List Bytes) : Decidable (HashSized hashes) :=
  inferInstanceAs (Decidable (∀ hash ∈ hashes, hash.length = 32))

instance (preimages : List Bytes) : Decidable (CollisionFree keccak256 preimages) :=
  inferInstanceAs (Decidable (∀ p ∈ preimages, ∀ q ∈ preimages,
    keccak256 p = keccak256 q → p = q))

instance (leafHashes preimages : List Bytes) :
    Decidable (NoLeafIsPair keccak256 leafHashes preimages) :=
  inferInstanceAs (Decidable (∀ leaf ∈ leafHashes, ∀ p ∈ preimages, p.length = 64 →
    digest keccak256 p ≠ leaf))

variable {keccak256} in
theorem CollisionFree.mono {preimages more : List Bytes} (h : CollisionFree keccak256 more)
    (hSub : ∀ p ∈ preimages, p ∈ more) : CollisionFree keccak256 preimages :=
  fun p hp q hq => h p (hSub p hp) q (hSub q hq)

/-! ## The hash of an unordered pair -/

@[simp] theorem length_digest (preimage : Bytes) : (digest keccak256 preimage).length = 32 :=
  length_abiWord _

theorem pairPreimage_comm (a b : Bytes) : pairPreimage a b = pairPreimage b a := by
  unfold pairPreimage
  rcases lt_trichotomy a b with hLt | rfl | hGt
  · rw [if_pos hLt, if_neg hLt.asymm]
  · rfl
  · rw [if_neg hGt.asymm, if_pos hGt]

theorem length_pairPreimage {a b : Bytes} (ha : a.length = 32) (hb : b.length = 32) :
    (pairPreimage a b).length = 64 := by
  unfold pairPreimage
  split <;> simp [ha, hb]

theorem pairPreimage_injective {a b c d : Bytes} (ha : a.length = 32) (hb : b.length = 32)
    (hc : c.length = 32) (hd : d.length = 32) (h : pairPreimage a b = pairPreimage c d) :
    s(a, b) = s(c, d) := by
  unfold pairPreimage at h
  split at h <;> split at h <;> obtain ⟨hFirst, hSecond⟩ := List.append_inj h (by simp [*])
  · exact Sym2.eq_iff.mpr (Or.inl ⟨hFirst, hSecond⟩)
  · exact Sym2.eq_iff.mpr (Or.inr ⟨hFirst, hSecond⟩)
  · exact Sym2.eq_iff.mpr (Or.inr ⟨hSecond, hFirst⟩)
  · exact Sym2.eq_iff.mpr (Or.inl ⟨hSecond, hFirst⟩)

theorem digest_inj {p q : Bytes} (h : digest keccak256 p = digest keccak256 q) :
    keccak256 p = keccak256 q :=
  Fin.ext (abiWord_injective (keccak256 p).isLt (keccak256 q).isLt h)

/-- `_hash_pair` on unordered pairs. -/
def pairHash : Sym2 Bytes → Bytes :=
  Sym2.lift ⟨hashPair keccak256, fun a b => congrArg (digest keccak256) (pairPreimage_comm a b)⟩

theorem hashPair_comm (a b : Bytes) : hashPair keccak256 a b = hashPair keccak256 b a :=
  congrArg (digest keccak256) (pairPreimage_comm a b)

theorem joinBy_pairHash : PairTree.joinBy (pairHash keccak256) = hashPair keccak256 := rfl

/-! ## The pairs hashed, as unordered pairs -/

section Hashed

variable {keccak256} {joined : List (Bytes × Bytes)}

/-- The unordered pairs of a list of pairs. -/
def unordered (joined : List (Bytes × Bytes)) : Set (Sym2 Bytes) :=
  {p | ∃ q ∈ joined, p = s(q.1, q.2)}

theorem injOn_pairHash (hSized : ∀ q ∈ joined, q.1.length = 32 ∧ q.2.length = 32)
    (hFree : CollisionFree keccak256 (joined.map fun q => pairPreimage q.1 q.2)) :
    Set.InjOn (pairHash keccak256) (unordered joined) := by
  rintro _ ⟨q, hq, rfl⟩ _ ⟨r, hr, rfl⟩ hHash
  have hSame := hFree _ (List.mem_map_of_mem hq) _ (List.mem_map_of_mem hr)
    (digest_inj keccak256 hHash)
  exact pairPreimage_injective (hSized q hq).1 (hSized q hq).2 (hSized r hr).1 (hSized r hr).2 hSame
variable {leafHashes : List Bytes}

theorem pairHash_ne_leaf (hSized : ∀ q ∈ joined, q.1.length = 32 ∧ q.2.length = 32)
    (hLeaf : NoLeafIsPair keccak256 leafHashes (joined.map fun q => pairPreimage q.1 q.2)) :
    ∀ leaf ∈ leafHashes, ∀ p ∈ unordered joined, pairHash keccak256 p ≠ leaf := by
  rintro leaf hMem _ ⟨q, hq, rfl⟩
  exact hLeaf leaf hMem _ (List.mem_map_of_mem hq)
    (length_pairPreimage (hSized q hq).1 (hSized q hq).2)

theorem exists_tree (hSome : leafHashes ≠ []) :
    ∃ tree : PairTree Bytes, tree.leaves = leafHashes ∧
      buildMerkleRoot keccak256 leafHashes = some (tree.root (pairHash keccak256)) ∧
      ∀ p ∈ tree.pairs (pairHash keccak256),
        p ∈ unordered (loopPairs (hashPair keccak256) leafHashes.length leafHashes) := by
  obtain ⟨tree, -, hTree⟩ := @PairTree.ofList_spec _ (pairHash keccak256) leafHashes hSome
  exact ⟨tree, hTree⟩

theorem sized_loopPairs (hSized : HashSized leafHashes) :
    ∀ q ∈ loopPairs (hashPair keccak256) leafHashes.length leafHashes,
      q.1.length = 32 ∧ q.2.length = 32 :=
  @forall_loopPairs _ _ (fun a : Bytes => a.length = 32) (fun _ _ => length_digest keccak256 _)
    _ _ hSized

end Hashed

/-! ## Completeness and soundness -/

section Soundness

variable {keccak256}

theorem verify_buildMerkleProof {leafHashes : List Bytes} {i : Nat} (hi : i < leafHashes.length) :
    ∃ proof root, buildMerkleProof keccak256 leafHashes i = some proof ∧
      buildMerkleRoot keccak256 leafHashes = some root ∧
      verifyMerkleProof keccak256 proof root leafHashes[i] = true := by
  have hSome : leafHashes ≠ [] := List.ne_nil_of_length_pos (Nat.zero_lt_of_lt hi)
  have hRange : ¬ ((i : Int) < 0 ∨ (leafHashes.length : Int) ≤ i) := by omega
  have hRoot := foldl_siblings (hashPair_comm keccak256) (List.getElem?_eq_getElem hi)
    (Nat.le_succ leafHashes.length)
  refine ⟨siblings (hashPair keccak256) leafHashes.length leafHashes i, _, ?_, hRoot, ?_⟩
  · rw [buildMerkleProof, if_neg hSome, if_neg hRange, Int.toNat_natCast]
  · exact decide_eq_true rfl

theorem mem_of_verifyMerkleProof {leafHashes proof : List Bytes} {root leafHash : Bytes}
    (hSome : leafHashes ≠ []) (hRoot : buildMerkleRoot keccak256 leafHashes = some root)
    (hSized : HashSized (leafHash :: (leafHashes ++ proof)))
    (hFree : CollisionFree keccak256
      (rootPreimages keccak256 leafHashes ++ proofPreimages keccak256 proof leafHash))
    (hLeaf : NoLeafIsPair keccak256 (leafHash :: leafHashes)
      (rootPreimages keccak256 leafHashes ++ proofPreimages keccak256 proof leafHash))
    (hVerify : verifyMerkleProof keccak256 proof root leafHash = true) :
    leafHash ∈ leafHashes := by
  obtain ⟨tree, hLeaves, hTreeRoot, hPairs⟩ := @exists_tree keccak256 _ hSome
  rw [rootPreimages, proofPreimages, ← List.map_append] at hFree hLeaf
  have hSizedPairs : ∀ q ∈ loopPairs (hashPair keccak256) leafHashes.length leafHashes ++
      foldPairs (hashPair keccak256) proof leafHash, q.1.length = 32 ∧ q.2.length = 32 := by
    intro q hq
    rcases List.mem_append.mp hq with hq | hq
    · exact sized_loopPairs (fun a ha => hSized a (by simp [ha])) q hq
    · exact @forall_foldPairs _ _ (fun a : Bytes => a.length = 32)
        (fun _ _ => length_digest keccak256 _) _ _ (hSized _ List.mem_cons_self)
        (fun a ha => hSized a (by simp [ha])) q hq
  have hNotLeaf := pairHash_ne_leaf hSizedPairs hLeaf
  have hFold : proof.foldl (hashPair keccak256) leafHash = tree.root (pairHash keccak256) :=
    (of_decide_eq_true hVerify).trans (Option.some.inj (hRoot.symm.trans hTreeRoot))
  rw [← hLeaves]
  refine PairTree.mem_leaves_of_foldl (injOn_pairHash hSizedPairs hFree) ?_ ?_ ?_ ?_ hFold
  · intro p hp
    obtain ⟨q, hq, hEq⟩ := hPairs p hp
    exact ⟨q, List.mem_append_left _ hq, hEq⟩
  · exact fun q hq => ⟨q, List.mem_append_right _ hq, rfl⟩
  · rw [hLeaves]
    exact fun leaf hMem => hNotLeaf leaf (List.mem_cons_of_mem _ hMem)
  · exact hNotLeaf leafHash List.mem_cons_self

theorem perm_of_buildMerkleRoot_eq {leafHashes others : List Bytes} (hSome : leafHashes ≠ [])
    (hOthers : others ≠ []) (hSized : HashSized (leafHashes ++ others))
    (hFree : CollisionFree keccak256
      (rootPreimages keccak256 leafHashes ++ rootPreimages keccak256 others))
    (hLeaf : NoLeafIsPair keccak256 (leafHashes ++ others)
      (rootPreimages keccak256 leafHashes ++ rootPreimages keccak256 others))
    (hRoot : buildMerkleRoot keccak256 leafHashes = buildMerkleRoot keccak256 others) :
    leafHashes.Perm others := by
  obtain ⟨tree, hLeaves, hTreeRoot, hPairs⟩ := @exists_tree keccak256 _ hSome
  obtain ⟨other, hOtherLeaves, hOtherRoot, hOtherPairs⟩ := @exists_tree keccak256 _ hOthers
  rw [rootPreimages, rootPreimages, ← List.map_append] at hFree hLeaf
  have hSizedPairs : ∀ q ∈ loopPairs (hashPair keccak256) leafHashes.length leafHashes ++
      loopPairs (hashPair keccak256) others.length others, q.1.length = 32 ∧ q.2.length = 32 := by
    intro q hq
    rcases List.mem_append.mp hq with hq | hq
    · exact sized_loopPairs (fun a ha => hSized a (List.mem_append_left _ ha)) q hq
    · exact sized_loopPairs (fun a ha => hSized a (List.mem_append_right _ ha)) q hq
  have hNotLeaf := pairHash_ne_leaf hSizedPairs hLeaf
  have hSame : tree.root (pairHash keccak256) = other.root (pairHash keccak256) :=
    Option.some.inj (hTreeRoot.symm.trans (hRoot.trans hOtherRoot))
  rw [← hLeaves, ← hOtherLeaves]
  refine (PairTree.swapped_of_root_eq (injOn_pairHash hSizedPairs hFree) ?_ ?_ ?_ ?_
    hSame).leaves_perm
  · intro p hp
    obtain ⟨q, hq, hEq⟩ := hPairs p hp
    exact ⟨q, List.mem_append_left _ hq, hEq⟩
  · intro p hp
    obtain ⟨q, hq, hEq⟩ := hOtherPairs p hp
    exact ⟨q, List.mem_append_right _ hq, hEq⟩
  · rw [hLeaves]
    exact fun leaf hMem => hNotLeaf leaf (List.mem_append_left _ hMem)
  · rw [hOtherLeaves]
    exact fun leaf hMem => hNotLeaf leaf (List.mem_append_right _ hMem)

end Soundness

/-- Every index has a proof that leads to the root, only leaves have proofs of
32-byte siblings, and the root determines the leaves up to their order. -/
theorem merkle_complete_and_sound (leafHashes : List Bytes) (hSome : leafHashes ≠ []) :
    (∀ i (hi : i < leafHashes.length), ∃ proof root,
      buildMerkleProof keccak256 leafHashes i = some proof ∧
      buildMerkleRoot keccak256 leafHashes = some root ∧
      verifyMerkleProof keccak256 proof root leafHashes[i] = true) ∧
    (∀ proof root leafHash, buildMerkleRoot keccak256 leafHashes = some root →
      HashSized (leafHash :: (leafHashes ++ proof)) →
      CollisionFree keccak256
        (rootPreimages keccak256 leafHashes ++ proofPreimages keccak256 proof leafHash) →
      NoLeafIsPair keccak256 (leafHash :: leafHashes)
        (rootPreimages keccak256 leafHashes ++ proofPreimages keccak256 proof leafHash) →
      verifyMerkleProof keccak256 proof root leafHash = true → leafHash ∈ leafHashes) ∧
    (∀ others, others ≠ [] → HashSized (leafHashes ++ others) →
      CollisionFree keccak256
        (rootPreimages keccak256 leafHashes ++ rootPreimages keccak256 others) →
      NoLeafIsPair keccak256 (leafHashes ++ others)
        (rootPreimages keccak256 leafHashes ++ rootPreimages keccak256 others) →
      buildMerkleRoot keccak256 leafHashes = buildMerkleRoot keccak256 others →
      leafHashes.Perm others) :=
  ⟨fun _ hi => verify_buildMerkleProof hi,
    fun _ _ _ hRoot => mem_of_verifyMerkleProof hSome hRoot,
    fun _ hOthers => perm_of_buildMerkleRoot_eq hSome hOthers⟩

def threeLeaves : List Bytes := [abiWord 1, abiWord 2, abiWord 3]

theorem merkle_complete_and_sound_threeLeaves :
    (∃ proof root, buildMerkleProof polynomialHash threeLeaves 1 = some proof ∧
      buildMerkleRoot polynomialHash threeLeaves = some root ∧
      verifyMerkleProof polynomialHash proof root threeLeaves[1] = true) ∧
    abiWord 3 ∈ threeLeaves ∧ threeLeaves.Perm [abiWord 2, abiWord 1, abiWord 3] := by
  have hAll := merkle_complete_and_sound polynomialHash threeLeaves (by decide)
  refine ⟨hAll.1 1 (by decide), ?_, ?_⟩
  · exact hAll.2.1 [hashPair polynomialHash (abiWord 1) (abiWord 2)]
      (hashPair polynomialHash (hashPair polynomialHash (abiWord 1) (abiWord 2)) (abiWord 3))
      (abiWord 3) rfl (by decide +kernel) (by decide +kernel) (by decide +kernel)
      (by decide +kernel)
  · exact hAll.2.2 _ (by decide) (by decide +kernel) (by decide +kernel) (by decide +kernel)
      (by decide +kernel)

/-- Without a bound on the siblings' lengths a proof can start at the first word
of a leaf's own preimage, here the encoding of nine words. -/
theorem not_sound_longSibling :
    ¬ ∀ (keccak256 : Keccak) (leafHashes proof : List Bytes) (root leafHash : Bytes),
      buildMerkleRoot keccak256 leafHashes = some root →
      HashSized (leafHash :: leafHashes) →
      CollisionFree keccak256
        (rootPreimages keccak256 leafHashes ++ proofPreimages keccak256 proof leafHash) →
      NoLeafIsPair keccak256 (leafHash :: leafHashes)
        (rootPreimages keccak256 leafHashes ++ proofPreimages keccak256 proof leafHash) →
      verifyMerkleProof keccak256 proof root leafHash = true → leafHash ∈ leafHashes := by
  intro h
  have hMem := h polynomialHash [digest polynomialHash (abiEncode [0, 1, 2, 3, 4, 5, 6, 7, 8])]
    [abiEncode [1, 2, 3, 4, 5, 6, 7, 8]]
    (digest polynomialHash (abiEncode [0, 1, 2, 3, 4, 5, 6, 7, 8])) (abiWord 0) rfl
    (by decide +kernel) (by decide +kernel) (by decide +kernel) (by decide +kernel)
  revert hMem
  decide +kernel

/-! ## Words and their byte strings

The contracts compare words as numbers, the off-chain code compares byte strings
in lexicographic order. -/

section Words

variable {keccak256}

/-- The byte string of a word. -/
def word (x : Bytes32) : Bytes := abiWord x.val

theorem lt_iff_of_top {base low low' top top' : Nat} (hLow : low < base) (hLow' : low' < base) :
    low + base * top < low' + base * top' ↔ top < top' ∨ top = top' ∧ low < low' := by
  have hStep : ∀ {m n : Nat}, m < n → base * m + base ≤ base * n := fun {m n} hLt => by
    rw [← Nat.mul_succ]
    exact Nat.mul_le_mul_left base hLt
  rcases lt_trichotomy top top' with hLt | rfl | hGt
  · have := hStep hLt
    omega
  · omega
  · have := hStep hGt
    omega

theorem digits_lt_iff (n x y : Nat) :
    ((List.range n).map fun i => Fin.ofNat (2 ^ 8) (x / 256 ^ (n - 1 - i)))
        < ((List.range n).map fun i => Fin.ofNat (2 ^ 8) (y / 256 ^ (n - 1 - i)))
      ↔ x % 256 ^ n < y % 256 ^ n := by
  induction n with
  | zero => simp [Nat.mod_one]
  | succ n ih =>
      have hTail : ∀ z : Nat, (List.range (n + 1)).map
          (fun i => Fin.ofNat (2 ^ 8) (z / 256 ^ (n + 1 - 1 - i))) =
          Fin.ofNat (2 ^ 8) (z / 256 ^ n) ::
            (List.range n).map fun i => Fin.ofNat (2 ^ 8) (z / 256 ^ (n - 1 - i)) := by
        intro z
        rw [List.range_succ_eq_map, List.map_cons, List.map_map]
        refine congrArg _ (List.map_congr_left fun i _ => ?_)
        show Fin.ofNat (2 ^ 8) (z / 256 ^ (n + 1 - 1 - (i + 1))) = _
        rw [show n + 1 - 1 - (i + 1) = n - 1 - i by omega]
      have hTop : ∀ z : Nat, z % 256 ^ (n + 1) = z % 256 ^ n + 256 ^ n * (z / 256 ^ n % 256) :=
        fun z => Nat.mod_pow_succ
      have hLowX := Nat.mod_lt x (Nat.pow_pos (n := n) (show 0 < 256 by decide))
      have hLowY := Nat.mod_lt y (Nat.pow_pos (n := n) (show 0 < 256 by decide))
      rw [hTail, hTail, List.cons_lt_cons_iff, ih, hTop x, hTop y, Fin.lt_def, Fin.ext_iff]
      show x / 256 ^ n % 256 < y / 256 ^ n % 256 ∨
        x / 256 ^ n % 256 = y / 256 ^ n % 256 ∧ x % 256 ^ n < y % 256 ^ n ↔ _
      exact (lt_iff_of_top hLowX hLowY).symm

theorem word_lt_iff (x y : Bytes32) : word x < word y ↔ x < y := by
  have hWidth : (256 : Nat) ^ 32 = 2 ^ 256 := by norm_num
  have hDigits := digits_lt_iff 32 x.val y.val
  rw [hWidth, Nat.mod_eq_of_lt x.isLt, Nat.mod_eq_of_lt y.isLt] at hDigits
  exact hDigits

theorem word_injective : Function.Injective word := fun x y h =>
  Fin.ext (abiWord_injective x.isLt y.isLt h)

theorem hashPair_word (a b : Bytes32) :
    hashPair keccak256 (word a) (word b) = word (MerkleProof.hashPair keccak256 a b) := by
  have hEncode : ∀ x y : Bytes32, abiEncode [x.val, y.val] = word x ++ word y := by
    intro x y
    simp [abiEncode, word]
  rw [hashPair, pairPreimage, MerkleProof.hashPair, hEncode, hEncode]
  by_cases hLt : a < b
  · rw [if_pos ((word_lt_iff a b).mpr hLt), if_pos hLt]
    rfl
  · rw [if_neg (mt (word_lt_iff a b).mp hLt), if_neg hLt]
    rfl

theorem buildMerkleRoot_word (leafHashes : List Bytes32) :
    buildMerkleRoot keccak256 (leafHashes.map word)
      = (Settlement.buildMerkleRoot keccak256 leafHashes).map word := by
  rw [buildMerkleRoot, buildMerkleRoot_eq, List.length_map,
    ← map_pairLayers (fun a b => (hashPair_word a b).symm), List.head?_map]

theorem verifyMerkleProof_word (proof : List Bytes32) (root leaf : Bytes32) :
    verifyMerkleProof keccak256 (proof.map word) (word root) (word leaf)
      = MerkleProof.verify keccak256 proof root leaf := by
  have hFold : (proof.map word).foldl (hashPair keccak256) (word leaf)
      = word (proof.foldl (MerkleProof.hashPair keccak256) leaf) := by
    induction proof generalizing leaf with
    | nil => rfl
    | cons sibling proof ih => rw [List.map_cons, List.foldl_cons, hashPair_word, ih]; rfl
  rw [verifyMerkleProof, hFold, MerkleProof.verify, MerkleProof.processProof,
    decide_eq_decide, word_injective.eq_iff]

end Words

end Prsm.Settlement.MerkleTree
