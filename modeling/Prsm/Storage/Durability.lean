import Prsm.Storage.ShardEngine

/-!
# What an erasure-coded content survives

`decode` refuses a corrupt shard instead of passing over it, and equal shards are one blob:
the content comes back when no blob is altered and the positions that lost theirs are at most
`n - k`.
-/

namespace Prsm.Storage

open Foundations
open Evm (Bytes)

/-- The positions of the manifest whose blob is gone. -/
def missingShards (files : Files) (manifest : ShardManifest) : ℕ :=
  manifest.shardHashes.countP fun hash => (files.get? hash).isNone

/-- A blob of the manifest holds other bytes than it did. -/
def Altered (stored damaged : Files) (manifest : ShardManifest) : Prop :=
  ∃ hash ∈ manifest.shardHashes, ∃ raw,
    damaged.get? hash = some raw ∧ stored.get? hash ≠ some raw

/-- The shares of a content. -/
def sharesOf (z : Zfec) (content : Bytes) (k n : ℕ) : List Bytes :=
  z.encode k n (blocksOf content k).1

/-- The strings that are hashed: the files before and after, and the shares. -/
def hashedStrings (files damaged : Files) (shares : List Bytes) : Set Bytes :=
  {data | (∃ hash, files.get? hash = some data) ∨ (∃ hash, damaged.get? hash = some data) ∨
    data ∈ shares}

section Survivors

variable {hashes : Hashes} {files : Files}

theorem mem_survivors {shares : List Bytes} {s : ErasureShard} :
    s ∈ survivors files (shares.map hashes.of) ↔
      ∃ i share raw, shares[i]? = some share ∧ files.get? (hashes.of share) = some raw ∧
        s = ⟨(i : ℕ), raw, hashes.sha256.hexdigest share⟩ := by
  unfold survivors
  rw [List.mem_filterMap]
  constructor
  · rintro ⟨⟨hash, i⟩, hMem, hShard⟩
    rw [List.mem_zipIdx_iff_getElem?, List.getElem?_map] at hMem
    obtain ⟨share, hShare, rfl⟩ := Option.map_eq_some_iff.mp hMem
    obtain ⟨raw, hRaw, rfl⟩ := Option.map_eq_some_iff.mp hShard
    exact ⟨i, share, raw, hShare, hRaw, rfl⟩
  · rintro ⟨i, share, raw, hShare, hRaw, rfl⟩
    refine ⟨(hashes.of share, i), ?_, ?_⟩
    · rw [List.mem_zipIdx_iff_getElem?, List.getElem?_map, hShare]
      rfl
    · simp only [hRaw, Option.map_some]
      rfl

theorem survivors_ascending (shardHashes : List ContentHash) :
    ((survivors files shardHashes).map ErasureShard.index).Pairwise (· < ·) := by
  have hPositions : (shardHashes.zipIdx).Pairwise fun p q => p.2 < q.2 := by
    rw [← List.pairwise_map (f := Prod.snd), List.zipIdx_map_snd]
    exact List.pairwise_lt_range'
  rw [List.pairwise_map]
  apply List.Pairwise.filterMap _ _ hPositions
  intro p q hLt s hs t ht
  obtain ⟨raw, -, rfl⟩ := Option.map_eq_some_iff.mp hs
  obtain ⟨raw', -, rfl⟩ := Option.map_eq_some_iff.mp ht
  show (p.2 : ℤ) < q.2
  omega

theorem length_survivors (manifest : ShardManifest) :
    (survivors files manifest.shardHashes).length + missingShards files manifest =
      manifest.shardHashes.length := by
  unfold survivors missingShards
  generalize manifest.shardHashes = shardHashes
  generalize 0 = start
  induction shardHashes generalizing start with
  | nil => rfl
  | cons hash rest ih =>
      have hRest := ih (start + 1)
      dsimp only at hRest
      rw [List.zipIdx_cons, List.filterMap_cons, List.countP_cons, List.length_cons]
      cases hFile : files.get? hash with
      | none =>
          simp only [hFile, Option.map_none, Option.isNone_none, if_true]
          omega
      | some raw =>
          simp only [hFile, Option.map_some, Option.isNone_some, List.length_cons]
          simp
          omega

end Survivors

section Damage

variable {hashes : Hashes} {z : Zfec} {files damaged : Files} {content : Bytes} {k n : ℕ}

theorem reassemble_ok_iff {manifest : ShardManifest} {params : ErasureParams}
    (hMode : manifest.shardingMode = .erasure) (hParams : manifest.erasureParams = some params)
    (hContent : manifest.contentHash = hashes.of content) :
    reassemble hashes z damaged manifest = .ok content ↔
      decode hashes.sha256 z
        ⟨params.k, params.n, params.payloadBytes, params.shardBytes, params.payloadSha256⟩
        (survivors damaged manifest.shardHashes) = .ok content := by
  unfold reassemble reassembleErasure
  simp only [hMode, hParams, hContent]
  cases hDecode : decode hashes.sha256 z
      ⟨params.k, params.n, params.payloadBytes, params.shardBytes, params.payloadSha256⟩
      (survivors damaged manifest.shardHashes) with
  | error e => simp [throw, throwThe, MonadExceptOf.throw]
  | ok recovered =>
      constructor
      · intro h
        cases hCheck : checkHash hashes (hashes.of content) recovered with
        | error e => simp [hCheck, bind, Except.bind] at h
        | ok u => simpa [hCheck, bind, Except.bind, pure, Except.pure] using h
      · intro h
        obtain rfl : recovered = content := Except.ok.inj h
        simp [bind, Except.bind, pure, Except.pure]

theorem decode_damaged_iff {manifest : ShardManifest} (hMds : z.IsMds k n) (hK : 0 < k)
    (hN : k ≤ n) (hLimit : n ≤ 256) (hContent : content ≠ []) {stored : Files}
    (hShards : manifest.shardHashes = (sharesOf z content k n).map hashes.of)
    (hStored : ∀ share ∈ sharesOf z content k n, stored.get? (hashes.of share) = some share)
    (hInj : Set.InjOn hashes.sha256.digest
      (hashedStrings files damaged (sharesOf z content k n))) (shardBytes : ℕ) :
    decode hashes.sha256 z
        ⟨k, n, content.length, shardBytes, hashes.sha256.hexdigest content⟩
        (survivors damaged manifest.shardHashes) = .ok content ↔
      ¬ Altered stored damaged manifest ∧ missingShards damaged manifest ≤ n - k := by
  have hCount : (sharesOf z content k n).length = n :=
    (hMds _ _ (blocksOf_spec content hK).1 (blocksOf_spec content hK).2.1).1
  have hLength : (survivors damaged manifest.shardHashes).length +
      missingShards damaged manifest = manifest.shardHashes.length := length_survivors manifest
  have hTotal : manifest.shardHashes.length = n := by rw [hShards, List.length_map, hCount]
  constructor
  · intro hDecode
    obtain ⟨hDigest, hEnough⟩ := of_decode_ok hDecode (by simpa using hContent)
    refine ⟨?_, by simp only at hEnough; omega⟩
    -- an altered blob would be among the survivors, with the digest of the share
    rintro ⟨hash, hMem, raw, hRaw, hOld⟩
    rw [hShards] at hMem
    obtain ⟨share, hShare, rfl⟩ := List.mem_map.mp hMem
    obtain ⟨i, hAt⟩ := List.getElem?_of_mem hShare
    have hSame := hDigest _ (hShards ▸ mem_survivors.mpr ⟨i, share, raw, hAt, hRaw, rfl⟩)
    have hEq : raw = share :=
      injOn_hexdigest hInj (Or.inr (Or.inl ⟨_, hRaw⟩)) (Or.inr (Or.inr hShare)) hSame
    exact hOld (hEq ▸ hStored share hShare)
  · rintro ⟨hUnaltered, hFew⟩
    apply decode_of_shares hMds hK hN hLimit hContent (survivors_ascending _)
    · intro s hs
      rw [hShards] at hs
      obtain ⟨i, share, raw, hAt, hRaw, rfl⟩ := mem_survivors.mp hs
      have hShare := List.mem_of_getElem? hAt
      have hSame : stored.get? (hashes.of share) = some raw := by
        by_contra hOther
        exact hUnaltered ⟨_, hShards ▸ List.mem_map_of_mem hShare, raw, hRaw, hOther⟩
      obtain rfl : share = raw := Option.some.inj ((hStored share hShare).symm.trans hSame)
      exact ⟨by simp, rfl, by simpa [sharesOf] using hAt⟩
    · omega

theorem split_erasure (hashes : Hashes) (z : Zfec) (files : Files) (engine : ShardEngine)
    {request : SplitRequest} (hK : 0 < k) (hN : k ≤ n) (hLimit : n ≤ 256) (hContent : content ≠ [])
    (hMode : request.shardingMode = .erasure) (hRequestK : request.erasureK = k)
    (hRequestN : request.erasureN = n) :
    ∃ manifest, engine.split hashes z files content request =
        (storeAll hashes files (sharesOf z content k n), .ok manifest) ∧
      manifest.shardingMode = .erasure ∧ manifest.contentHash = hashes.of content ∧
      manifest.shardHashes = (sharesOf z content k n).map hashes.of ∧
      manifest.erasureParams = some ⟨k, n, content.length, (blocksOf content k).2,
        hashes.sha256.hexdigest content⟩ := by
  let shards : List ErasureShard := (sharesOf z content k n).zipIdx.map fun share =>
    ⟨share.2, share.1, hashes.sha256.hexdigest share.1⟩
  have hEncode : encode hashes.sha256 z content request.erasureK request.erasureN =
      .ok (⟨k, n, content.length, (blocksOf content k).2, hashes.sha256.hexdigest content⟩,
        shards) := by
    rw [encode, hRequestK, hRequestN, validateParams_ok hK hN hLimit, if_neg hContent]
    rfl
  have hDigests : ∀ s ∈ shards, s.sha256 = hashes.sha256.hexdigest s.data := by
    intro s hs
    obtain ⟨⟨share, i⟩, -, rfl⟩ := List.mem_map.mp hs
    rfl
  have hData : shards.map ErasureShard.data = sharesOf z content k n := by
    show (List.map _ _).map _ = _
    rw [List.map_map]
    exact List.zipIdx_map_fst 0 _
  have hHashes : (shards.map fun s => hashes.of s.data) =
      (sharesOf z content k n).map hashes.of := by
    rw [← hData]
    exact (List.map_map (f := ErasureShard.data) (g := hashes.of)).symm
  unfold ShardEngine.split splitErasure
  simp only [hMode, hEncode, storeShards_eq hDigests, hData, hHashes, Except.map]
  exact ⟨_, rfl, rfl, rfl, rfl, rfl⟩

theorem reassemble_empty (engine : ShardEngine) {request : SplitRequest}
    (hMode : request.shardingMode = .erasure)
    (hParams : validateParams request.erasureK request.erasureN = .ok ()) :
    ∃ manifest, engine.split hashes z files [] request = (files, .ok manifest) ∧
      reassemble hashes z damaged manifest = .ok [] := by
  have hEncode : encode hashes.sha256 z [] request.erasureK request.erasureN =
      .ok (⟨request.erasureK, request.erasureN, 0, 0, hashes.sha256.hexdigest []⟩, []) := by
    rw [encode, hParams, if_pos rfl]
    rfl
  unfold ShardEngine.split splitErasure
  simp only [hMode, hEncode, storeShards, pure, Except.pure, Except.map]
  refine ⟨_, rfl, ?_⟩
  rw [reassemble_ok_iff rfl rfl rfl]
  simp [decode, pure, Except.pure]

theorem validateParams_eq_ok_iff {k n : ℤ} :
    validateParams k n = .ok () ↔ 0 < k ∧ k ≤ n ∧ n ≤ 256 := by
  unfold validateParams
  split
  · simp [throw, throwThe, MonadExceptOf.throw]; omega
  · split
    · simp [throw, throwThe, MonadExceptOf.throw]; omega
    · split
      · simp [throw, throwThe, MonadExceptOf.throw]; omega
      · simp [pure, Except.pure]; omega

/-- After any damage the content is reassembled exactly if it is empty, or no blob of it is
altered and at most `n - k` positions have lost theirs. -/
theorem reassemble_damaged_iff (engine : ShardEngine) (request : SplitRequest)
    (hMode : request.shardingMode = .erasure)
    (hParams : validateParams request.erasureK request.erasureN = .ok ())
    (hMds : z.IsMds request.erasureK.toNat request.erasureN.toNat)
    (hIntact : Intact hashes files)
    (hInj : Set.InjOn hashes.sha256.digest (hashedStrings files damaged
      (sharesOf z content request.erasureK.toNat request.erasureN.toNat))) :
    ∃ stored manifest, engine.split hashes z files content request = (stored, .ok manifest) ∧
      (reassemble hashes z damaged manifest = .ok content ↔
        content = [] ∨ ¬ Altered stored damaged manifest ∧
          (missingShards damaged manifest : ℤ) ≤ request.erasureN - request.erasureK) := by
  by_cases hContent : content = []
  · subst hContent
    obtain ⟨manifest, hSplit, hRead⟩ :
        ∃ manifest, engine.split hashes z files [] request = (files, .ok manifest) ∧
          reassemble hashes z damaged manifest = .ok [] :=
      reassemble_empty engine hMode hParams
    exact ⟨files, manifest, hSplit, by simp [hRead]⟩
  · obtain ⟨hK, hN, hLimit⟩ := validateParams_eq_ok_iff.mp hParams
    obtain ⟨k, hRequestK⟩ := Int.eq_ofNat_of_zero_le hK.le
    obtain ⟨n, hRequestN⟩ := Int.eq_ofNat_of_zero_le (hK.le.trans hN)
    rw [hRequestK, hRequestN] at hMds hInj hN
    rw [hRequestK] at hK
    rw [hRequestN] at hLimit
    simp only [Int.toNat_natCast, Nat.cast_pos, Nat.cast_le] at hMds hInj hK hN
    have hStored : ∀ share ∈ sharesOf z content k n,
        (storeAll hashes files (sharesOf z content k n)).get? (hashes.of share) =
          some share := by
      intro share hShare
      have hSound : Sound hashes (hashedStrings files damaged (sharesOf z content k n)) files :=
        ⟨hIntact, fun hash data h => Or.inl ⟨hash, h⟩⟩
      exact (hSound.storeAll fun b hb => Or.inr (Or.inr hb)).get?_eq hInj
        (Or.inr (Or.inr hShare)) (isSome_storeAll_of_mem hShare)
    obtain ⟨manifest, hSplit, hErasure, hHash, hShards, hMeta⟩ :=
      split_erasure hashes z files engine hK hN (by omega) hContent hMode hRequestK hRequestN
    refine ⟨_, manifest, hSplit, ?_⟩
    rw [reassemble_ok_iff hErasure hMeta hHash,
      decode_damaged_iff hMds hK hN (by omega) hContent hShards hStored hInj, hRequestK,
      hRequestN]
    simp only [hContent, false_or]
    apply and_congr_right'
    omega

end Damage

/-! ## Two shards that are one blob -/

def copies : Zfec where
  encode := fun _ n blocks => List.replicate n (blocks.headD [])
  decode := fun k _ shares _ => shares.take k

theorem isMds_copies (n : ℕ) : copies.IsMds 1 n := by
  intro blocks size hBlocks _
  obtain ⟨block, rfl⟩ := List.length_eq_one_iff.mp hBlocks
  refine ⟨by simp [copies], ?_⟩
  intro picked hPicked _ hShares
  obtain ⟨⟨i, share⟩, rfl⟩ := List.length_eq_one_iff.mp hPicked
  obtain ⟨-, hShare⟩ := hShares (i, share) List.mem_cons_self
  have hMem := List.mem_of_getElem? hShare
  simp only [copies, List.headD_cons] at hMem ⊢
  simp [List.eq_of_mem_replicate hMem]

def sampleHashes : Hashes where
  sha256 := Sha256.ofTable [([7], 1), ([8], 2), ([9], 3)]
  sha3_256 := fun data => data

def sampleRequest : SplitRequest where
  ownerNodeId := "node-1"
  replicationFactor := 3
  visibility := "public"
  shardingMode := .erasure
  erasureK := 1
  erasureN := 2
  now := 0

def sampleEngine : ShardEngine := ⟨1048576, 262144, by decide⟩

theorem injOn_sampleHashes {hashed : Set Bytes} (h : hashed ⊆ {[7], [8]}) :
    Set.InjOn sampleHashes.sha256.digest hashed := by
  intro a ha b hb hSame
  rcases h ha with rfl | rfl <;> rcases h hb with rfl | rfl
  · rfl
  · exact absurd hSame (by decide +kernel)
  · exact absurd hSame (by decide +kernel)
  · rfl

/-- The content of one byte, with its blob in place. -/
theorem reassemble_sample_iff :
    ∃ stored manifest,
      sampleEngine.split sampleHashes copies ∅ [7] sampleRequest = (stored, .ok manifest) ∧
      (reassemble sampleHashes copies (storeBlob sampleHashes ∅ [7]) manifest = .ok [7] ↔
        ([7] : Bytes) = [] ∨
          ¬ Altered stored (storeBlob sampleHashes ∅ [7]) manifest ∧
            (missingShards (storeBlob sampleHashes ∅ [7]) manifest : ℤ) ≤ 2 - 1) := by
  apply reassemble_damaged_iff sampleEngine sampleRequest rfl rfl (isMds_copies 2)
  · intro hash data h
    simp at h
  · apply injOn_sampleHashes
    rintro data (⟨hash, h⟩ | ⟨hash, h⟩ | h)
    · simp at h
    · rw [get?_storeBlob] at h
      split at h
      · simp at h
        exact Or.inl h.symm
      · simp at h
    · exact Or.inl (List.eq_of_mem_replicate h)

/-- A loss the code cannot bear: with two shards of which any one is enough, the loss of the
one blob they share, or its alteration, leaves nothing to decode. -/
theorem one_blob_for_two_shards :
    copies.IsMds 1 2 ∧ Set.InjOn sampleHashes.sha256.digest {[7], [8]} ∧
      ∃ stored manifest,
        sampleEngine.split sampleHashes copies ∅ [7] sampleRequest = (stored, .ok manifest) ∧
        reassemble sampleHashes copies stored manifest = .ok [7] ∧
        reassemble sampleHashes copies (stored.erase (sampleHashes.of [7])) manifest =
          .error (.erasure (.insufficientShards 1 0)) ∧
        reassemble sampleHashes copies (stored.set (sampleHashes.of [7]) [8]) manifest =
          .error (.erasure (.corruptShard 0)) := by
  refine ⟨isMds_copies 2, injOn_sampleHashes Set.Subset.rfl, _, _, rfl, ?_⟩
  decide +kernel

end Prsm.Storage
