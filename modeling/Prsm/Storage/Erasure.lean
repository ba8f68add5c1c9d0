import Prsm.Foundations.Lists
import Prsm.Storage.Sha256

/-!
# Erasure coding of a payload

`encode` pads the payload, cuts it into `k` blocks and gives them to `zfec`; `decode` checks
every shard it is given before it picks `k` of them.  `zfec` is a parameter.
-/

namespace Prsm.Storage

open Foundations
open Evm (Bytes)

/-- The encoder and the decoder for `k` of `n` shares. -/
structure Zfec where
  encode : ℕ → ℕ → List Bytes → List Bytes
  decode : ℕ → ℕ → List Bytes → List ℤ → List Bytes

/-- Any `k` of the `n` shares, given in the order of their numbers, lead back to the
blocks. -/
def Zfec.IsMds (z : Zfec) (k n : ℕ) : Prop :=
  ∀ (blocks : List Bytes) (size : ℕ), blocks.length = k → (∀ b ∈ blocks, b.length = size) →
    (z.encode k n blocks).length = n ∧
      ∀ picked : List (ℤ × Bytes), picked.length = k → (picked.map Prod.fst).Pairwise (· < ·) →
        (∀ p ∈ picked, 0 ≤ p.1 ∧ (z.encode k n blocks)[p.1.toNat]? = some p.2) →
        z.decode k n (picked.map Prod.snd) (picked.map Prod.fst) = blocks

inductive ErasureError
  | kNotPositive (k : ℤ)
  | nBelowK (n k : ℤ)
  | nAboveLimit (n : ℤ)
  | indexOutOfRange (index n : ℤ)
  | duplicateShard (index : ℤ)
  | corruptShard (index : ℤ)
  | insufficientShards (k : ℤ) (found : ℕ)
  | payloadChecksum (actual expected : String)
  deriving DecidableEq

structure ErasureMetadata where
  k : ℤ
  n : ℤ
  payloadBytes : ℕ
  shardBytes : ℕ
  payloadSha256 : String

structure ErasureShard where
  index : ℤ
  data : Bytes
  sha256 : String

def validateParams (k n : ℤ) : Except ErasureError Unit :=
  if k ≤ 0 then throw (.kNotPositive k)
  else if n < k then throw (.nBelowK n k)
  else if 256 < n then throw (.nAboveLimit n)
  else pure ()

section Code

variable (sha : Sha256) (z : Zfec)

/-- The `k` blocks of the padded payload, and their size. -/
def blocksOf (payload : Bytes) (k : ℕ) : List Bytes × ℕ :=
  let blockBytes := (payload.length + k - 1) / k
  let padded := payload ++ List.replicate (blockBytes * k - payload.length) 0
  (slices k blockBytes padded, blockBytes)

def encode (payload : Bytes) (k n : ℤ) :
    Except ErasureError (ErasureMetadata × List ErasureShard) := do
  validateParams k n
  if payload = [] then
    pure (⟨k, n, 0, 0, sha.hexdigest []⟩, [])
  else
    let (blocks, blockBytes) := blocksOf payload k.toNat
    let shares := z.encode k.toNat n.toNat blocks
    pure (⟨k, n, payload.length, blockBytes, sha.hexdigest payload⟩,
      shares.zipIdx.map fun (share, i) => ⟨i, share, sha.hexdigest share⟩)

/-- The loop of `decode` that checks the shards and keeps them by index. -/
def collectShards (n : ℤ) :
    List ErasureShard → List ErasureShard → Except ErasureError (List ErasureShard)
  | byIndex, [] => pure byIndex
  | byIndex, s :: rest =>
      if s.index < 0 ∨ n ≤ s.index then throw (.indexOutOfRange s.index n)
      else if s.index ∈ byIndex.map ErasureShard.index then throw (.duplicateShard s.index)
      else if sha.hexdigest s.data ≠ s.sha256 then throw (.corruptShard s.index)
      else collectShards n (byIndex ++ [s]) rest

def decode (metadata : ErasureMetadata) (shards : List ErasureShard) :
    Except ErasureError Bytes := do
  if metadata.payloadBytes = 0 then pure []
  else
    validateParams metadata.k metadata.n
    let byIndex ← collectShards sha metadata.n [] shards
    if (byIndex.length : ℤ) < metadata.k then
      throw (.insufficientShards metadata.k byIndex.length)
    else
      let picked := (byIndex.insertionSort fun s t => s.index ≤ t.index).take metadata.k.toNat
      let blocks := z.decode metadata.k.toNat metadata.n.toNat
        (picked.map ErasureShard.data) (picked.map ErasureShard.index)
      let payload := blocks.flatten.take metadata.payloadBytes
      if sha.hexdigest payload ≠ metadata.payloadSha256 then
        throw (.payloadChecksum (sha.hexdigest payload) metadata.payloadSha256)
      else pure payload

end Code

/-! ## Blocks -/

theorem validateParams_ok {k n : ℕ} (hK : 0 < k) (hN : k ≤ n) (hLimit : n ≤ 256) :
    validateParams k n = .ok () := by
  unfold validateParams
  rw [if_neg (by omega), if_neg (by omega), if_neg (by omega)]
  rfl

theorem blocksOf_spec (payload : Bytes) {k : ℕ} (hK : 0 < k) :
    (blocksOf payload k).1.length = k ∧
      (∀ b ∈ (blocksOf payload k).1, b.length = (blocksOf payload k).2) ∧
      (blocksOf payload k).1.flatten.take payload.length = payload := by
  have hCover : payload.length ≤ (payload.length + k - 1) / k * k := le_ceil_mul hK
  have hPadded : (payload ++ List.replicate ((payload.length + k - 1) / k * k - payload.length)
      (0 : Fin (2 ^ 8))).length = k * ((payload.length + k - 1) / k) := by
    rw [List.length_append, List.length_replicate, Nat.mul_comm k]
    omega
  refine ⟨length_slices _ _ _, length_of_mem_slices hPadded, ?_⟩
  show (slices _ _ _).flatten.take payload.length = payload
  rw [flatten_slices_of_le hPadded.le, List.take_left]

/-! ## What `decode` accepts -/

section Decode

variable {sha : Sha256}

theorem collectShards_ok {n : ℤ} {byIndex shards found : List ErasureShard}
    (h : collectShards sha n byIndex shards = .ok found) :
    found = byIndex ++ shards ∧ ∀ s ∈ shards, sha.hexdigest s.data = s.sha256 := by
  induction shards generalizing byIndex with
  | nil =>
      obtain rfl : byIndex = found := Except.ok.inj h
      simp
  | cons s rest ih =>
      rw [collectShards] at h
      split at h
      · cases h
      · split at h
        · cases h
        · split at h
          · cases h
          · next hDigest =>
            rw [not_not] at hDigest
            obtain ⟨hFound, hRest⟩ := ih h
            refine ⟨by rw [hFound, List.append_assoc]; rfl, ?_⟩
            intro t ht
            rcases List.mem_cons.mp ht with rfl | ht
            · exact hDigest
            · exact hRest t ht

theorem collectShards_of_ascending {n : ℤ} {byIndex shards : List ErasureShard}
    (hOrder : ((byIndex ++ shards).map ErasureShard.index).Pairwise (· < ·))
    (hRange : ∀ s ∈ shards, 0 ≤ s.index ∧ s.index < n)
    (hDigest : ∀ s ∈ shards, sha.hexdigest s.data = s.sha256) :
    collectShards sha n byIndex shards = .ok (byIndex ++ shards) := by
  induction shards generalizing byIndex with
  | nil => simp [collectShards, pure, Except.pure]
  | cons s rest ih =>
      have hFirst := hRange s List.mem_cons_self
      have hFresh : s.index ∉ byIndex.map ErasureShard.index := by
        intro hMem
        rw [List.map_append, List.pairwise_append] at hOrder
        have hLt := hOrder.2.2 _ hMem s.index (by simp)
        omega
      rw [collectShards, if_neg (by omega), if_neg hFresh,
        if_neg (not_not.mpr (hDigest s List.mem_cons_self))]
      have hAppend : byIndex ++ s :: rest = (byIndex ++ [s]) ++ rest := by simp
      rw [hAppend] at hOrder ⊢
      exact ih hOrder (fun t ht => hRange t (List.mem_cons_of_mem _ ht))
        (fun t ht => hDigest t (List.mem_cons_of_mem _ ht))

variable {z : Zfec} {k n : ℕ} {payload : Bytes} {metadata : ErasureMetadata}
  {shards : List ErasureShard}

theorem of_decode_ok (h : decode sha z metadata shards = .ok payload)
    (hBytes : metadata.payloadBytes ≠ 0) :
    (∀ s ∈ shards, sha.hexdigest s.data = s.sha256) ∧ metadata.k ≤ shards.length := by
  rw [decode, if_neg hBytes] at h
  cases hParams : validateParams metadata.k metadata.n with
  | error e => simp [hParams, bind, Except.bind] at h
  | ok u =>
      cases hFound : collectShards sha metadata.n [] shards with
      | error e => simp [hParams, hFound, bind, Except.bind] at h
      | ok found =>
          obtain ⟨rfl, hDigest⟩ := collectShards_ok hFound
          refine ⟨hDigest, ?_⟩
          simp only [hParams, hFound, bind, Except.bind] at h
          by_contra hFew
          rw [if_pos (by omega)] at h
          cases h

theorem decode_of_shares (hMds : z.IsMds k n) (hK : 0 < k) (hN : k ≤ n) (hLimit : n ≤ 256)
    (hPayload : payload ≠ [])
    (hOrder : (shards.map ErasureShard.index).Pairwise (· < ·))
    (hShards : ∀ s ∈ shards, 0 ≤ s.index ∧ sha.hexdigest s.data = s.sha256 ∧
      (z.encode k n (blocksOf payload k).1)[s.index.toNat]? = some s.data)
    (hEnough : k ≤ shards.length) (shardBytes : ℕ) :
    decode sha z ⟨k, n, payload.length, shardBytes, sha.hexdigest payload⟩ shards =
      .ok payload := by
  obtain ⟨hCount, hSize, hFlatten⟩ := blocksOf_spec payload hK
  obtain ⟨hLength, hDecode⟩ := hMds _ _ hCount hSize
  have hBytes : payload.length ≠ 0 := by simpa using hPayload
  have hRange : ∀ s ∈ shards, 0 ≤ s.index ∧ s.index < (n : ℤ) := by
    intro s hs
    obtain ⟨hNonneg, -, hShare⟩ := hShards s hs
    obtain ⟨hLt, -⟩ := List.getElem?_eq_some_iff.mp hShare
    exact ⟨hNonneg, by omega⟩
  have hFound : collectShards sha n [] shards = .ok ([] ++ shards) :=
    collectShards_of_ascending (by simpa using hOrder) hRange fun s hs => (hShards s hs).2.1
  have hSorted : shards.insertionSort (fun s t => s.index ≤ t.index) = shards := by
    apply List.Pairwise.insertionSort_eq
    rw [List.pairwise_map] at hOrder
    exact hOrder.imp fun h => h.le
  have hPicked := hDecode ((shards.take k).map fun s => (s.index, s.data))
    (by simpa using hEnough)
    (by
      rw [List.map_map]
      exact (hOrder.sublist ((List.take_sublist k shards).map _)))
    (by
      intro p hp
      obtain ⟨s, hs, rfl⟩ := List.mem_map.mp hp
      obtain ⟨hNonneg, -, hShare⟩ := hShards s (List.mem_of_mem_take hs)
      exact ⟨hNonneg, hShare⟩)
  rw [List.map_map, List.map_map] at hPicked
  have hBlocks : z.decode k n ((shards.take k).map ErasureShard.data)
      ((shards.take k).map ErasureShard.index) = (blocksOf payload k).1 := hPicked
  rw [decode, if_neg hBytes, validateParams_ok hK hN hLimit]
  simp only [bind, Except.bind, hFound, List.nil_append, hSorted, Int.toNat_natCast, hBlocks,
    hFlatten]
  rw [if_neg (by omega), if_neg (by simp)]
  rfl

end Decode

end Prsm.Storage
