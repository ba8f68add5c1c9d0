import Prsm.Storage.BlobStore
import Prsm.Storage.Erasure

/-!
# `ShardEngine`

`split` stores the chunks of a content, or its erasure shards, as blobs and lists their
hashes in a manifest; `reassemble` reads the blobs of a manifest back and checks them.
-/

namespace Prsm.Storage

open Foundations
open Evm (Bytes)

inductive ShardingMode
  | replication
  | erasure

structure ErasureParams where
  k : ℤ
  n : ℤ
  payloadBytes : ℕ
  shardBytes : ℕ
  payloadSha256 : String

structure ShardManifest where
  contentHash : ContentHash
  shardHashes : List ContentHash
  totalSize : ℕ
  shardSize : ℕ
  algorithmId : AlgorithmID
  createdAt : ℚ
  replicationFactor : ℤ
  ownerNodeId : String
  visibility : String
  shardingMode : ShardingMode
  erasureParams : Option ErasureParams

inductive StorageError
  | contentNotFound (hash : String)
  | shardIntegrity (expected actual : String)
  | manifest (text : String)
  | erasure (error : ErasureError)
  | unsupportedAlgorithm (algorithm : AlgorithmID)
  | missingArgument (name : String)
  deriving DecidableEq

structure ShardEngine where
  shardThreshold : ℤ
  shardSize : ℕ
  shardSize_pos : 0 < shardSize

/-- The arguments of `split` other than the data, and the clock it reads. -/
structure SplitRequest where
  ownerNodeId : String
  replicationFactor : ℤ
  visibility : String
  shardingMode : ShardingMode
  erasureK : ℤ
  erasureN : ℤ
  now : ℚ

section Code

variable (hashes : Hashes) (z : Zfec)

/-- The one chunk of a short content, or its slices. -/
def ShardEngine.chunks (engine : ShardEngine) (data : Bytes) : List Bytes :=
  if data.length ≤ engine.shardThreshold then [data]
  else slices ((data.length + engine.shardSize - 1) / engine.shardSize) engine.shardSize data

/-- The replication path of `split`. -/
def ShardEngine.splitReplication (engine : ShardEngine) (files : Files) (data : Bytes)
    (request : SplitRequest) : Files × ShardManifest :=
  let chunks := engine.chunks data
  (storeAll hashes files chunks,
    { contentHash := hashes.of data
      shardHashes := chunks.map hashes.of
      totalSize := data.length
      shardSize := engine.shardSize
      algorithmId := .sha256
      createdAt := request.now
      replicationFactor := request.replicationFactor
      ownerNodeId := request.ownerNodeId
      visibility := request.visibility
      shardingMode := .replication
      erasureParams := none })

/-- The loop of `_split_erasure` over the shards. -/
def storeShards : Files → List ErasureShard → Files × Except StorageError (List ContentHash)
  | files, [] => (files, pure [])
  | files, s :: rest =>
      let files := storeBlob hashes files s.data
      let storedHash := hashes.of s.data
      if Settlement.hex storedHash.digest ≠ s.sha256 then
        (files, throw (.shardIntegrity s.sha256 (Settlement.hex storedHash.digest)))
      else
        let (files, shardHashes) := storeShards files rest
        (files, (storedHash :: ·) <$> shardHashes)

def splitErasure (files : Files) (data : Bytes) (request : SplitRequest) :
    Files × Except StorageError ShardManifest :=
  match encode hashes.sha256 z data request.erasureK request.erasureN with
  | .error error => (files, throw (.erasure error))
  | .ok (metadata, shards) =>
      let (files, stored) := storeShards hashes files shards
      (files, stored.map fun shardHashes =>
        { contentHash := hashes.of data
          shardHashes := shardHashes
          totalSize := data.length
          shardSize := metadata.shardBytes
          algorithmId := .sha256
          createdAt := request.now
          replicationFactor := request.replicationFactor
          ownerNodeId := request.ownerNodeId
          visibility := request.visibility
          shardingMode := .erasure
          erasureParams := some
            ⟨metadata.k, metadata.n, metadata.payloadBytes, metadata.shardBytes,
              metadata.payloadSha256⟩ })

def ShardEngine.split (engine : ShardEngine) (files : Files) (data : Bytes)
    (request : SplitRequest) : Files × Except StorageError ShardManifest :=
  match request.shardingMode with
  | .erasure => splitErasure hashes z files data request
  | .replication =>
      let (files, manifest) := engine.splitReplication hashes files data request
      (files, pure manifest)

/-- `retrieve`. -/
def retrieveBlob (files : Files) (hash : ContentHash) : Except StorageError Bytes :=
  match files.get? hash with
  | none => throw (.contentNotFound hash.hex)
  | some data => pure data

/-- The hash of the data under the algorithm of the expected hash must be that hash. -/
def checkHash (expected : ContentHash) (data : Bytes) : Except StorageError Unit :=
  match fromData hashes data expected.algorithmId with
  | none => throw (.unsupportedAlgorithm expected.algorithmId)
  | some actual =>
      if actual ≠ expected then throw (.shardIntegrity expected.hex actual.hex) else pure ()

/-- The loop of `reassemble` over the shards. -/
def collectParts (files : Files) : List ContentHash → Except StorageError (List Bytes)
  | [] => pure []
  | expected :: rest => do
      let raw ← retrieveBlob files expected
      checkHash hashes expected raw
      let parts ← collectParts files rest
      pure (raw :: parts)

/-- The shards that can still be read, by position. -/
def survivors (files : Files) (shardHashes : List ContentHash) : List ErasureShard :=
  shardHashes.zipIdx.filterMap fun (expected, index) =>
    (files.get? expected).map fun raw => ⟨index, raw, Settlement.hex expected.digest⟩

def reassembleErasure (files : Files) (manifest : ShardManifest) :
    Except StorageError Bytes :=
  match manifest.erasureParams with
  | none => throw (.shardIntegrity "erasure_params"
      "None (manifest marked ERASURE but has no params)")
  | some params =>
      match decode hashes.sha256 z
          ⟨params.k, params.n, params.payloadBytes, params.shardBytes, params.payloadSha256⟩
          (survivors files manifest.shardHashes) with
      | .error error => throw (.erasure error)
      | .ok recovered => do
          checkHash hashes manifest.contentHash recovered
          pure recovered

def reassemble (files : Files) (manifest : ShardManifest) : Except StorageError Bytes :=
  match manifest.shardingMode with
  | .erasure => reassembleErasure hashes z files manifest
  | .replication => do
      let parts ← collectParts hashes files manifest.shardHashes
      checkHash hashes manifest.contentHash parts.flatten
      pure parts.flatten

end Code

/-! ## Reading back -/

section Lemmas

variable {hashes : Hashes} {z : Zfec} {files : Files}

@[simp] theorem checkHash_of (data : Bytes) :
    checkHash hashes (hashes.of data) data = .ok () := by
  simp [checkHash, fromData, Hashes.of, pure, Except.pure]

@[simp] theorem flatten_chunks (engine : ShardEngine) (data : Bytes) :
    (engine.chunks data).flatten = data := by
  unfold ShardEngine.chunks
  split
  · simp
  · exact flatten_slices_of_le (le_ceil_mul engine.shardSize_pos)

theorem collectParts_of_present {chunks : List Bytes}
    (h : ∀ c ∈ chunks, files.get? (hashes.of c) = some c) :
    collectParts hashes files (chunks.map hashes.of) = .ok chunks := by
  induction chunks with
  | nil => rfl
  | cons c rest ih =>
      have hFirst := h c List.mem_cons_self
      have hRest := ih fun d hd => h d (List.mem_cons_of_mem _ hd)
      simp [collectParts, retrieveBlob, hFirst, hRest, bind, Except.bind, pure, Except.pure]

theorem storeShards_eq {shards : List ErasureShard}
    (h : ∀ s ∈ shards, s.sha256 = hashes.sha256.hexdigest s.data) :
    storeShards hashes files shards =
      (storeAll hashes files (shards.map ErasureShard.data),
        .ok (shards.map fun s => hashes.of s.data)) := by
  induction shards generalizing files with
  | nil => rfl
  | cons s rest ih =>
      have hDigest : Settlement.hex (hashes.of s.data).digest = s.sha256 :=
        (h s List.mem_cons_self).symm
      rw [storeShards, ih fun t ht => h t (List.mem_cons_of_mem _ ht)]
      simp [hDigest, storeAll, Functor.map, Except.map]

end Lemmas

end Prsm.Storage
