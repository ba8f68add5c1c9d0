import Prsm.Foundations.LruCache
import Prsm.Foundations.Machine
import Prsm.Storage.ShardEngine

/-!
# `ContentStore`

Contents are cut into shards, which are blobs; the manifest of a content is sealed and kept
in a cache under the content's hash.  Deleting a content deletes every blob its manifest
lists.
-/

namespace Prsm.Storage

open Foundations
open Evm (Bytes)

structure KeyShare where
  contentHash : ContentHash
  shareIndex : ℤ
  shareData : Bytes
  threshold : ℤ
  totalShares : ℤ
  algorithmId : ℤ

/-- The key manager with the manifests' JSON.  What `encrypt_manifest` draws at random is its
first argument. -/
structure KeyManager where
  encryptManifest : Bytes → ShardManifest → ContentHash → ℕ → ℕ → Bytes × List KeyShare
  decodeManifest : Bytes → List KeyShare → Except StorageError ShardManifest

structure ContentStore where
  dataDir : String
  nodeId : String
  shardEngine : ShardEngine
  configuredCacheMax : ℤ

def ContentStore.manifestCacheMax (store : ContentStore) : ℕ :=
  (max 1 store.configuredCacheMax).toNat

structure CacheEntry where
  ciphertext : Bytes
  keyShares : List KeyShare
  manifest : ShardManifest

structure StoreState where
  files : Files
  manifestCache : Dict String CacheEntry

structure StorageArtifacts where
  contentHash : ContentHash
  encryptedManifest : Bytes
  keyShares : List KeyShare
  shardPaths : List String
  manifest : ShardManifest

def selectThresholdParams (numShards : ℕ) : ℕ × ℕ :=
  if numShards < 10 then (3, 5) else if numShards < 100 then (5, 8) else (7, 12)

/-- `os.path.join` for a name that is not absolute. -/
def joinPath (base name : String) : String :=
  if base = "" ∨ base.toList.getLast? = some '/' then base ++ name else base ++ "/" ++ name

def pathFor (dataDir : String) (hash : ContentHash) : String :=
  joinPath (joinPath dataDir (String.ofList ((Settlement.hex hash.digest).toList.take 2)))
    hash.hex

section Code

variable (hashes : Hashes) (z : Zfec) (manager : KeyManager) (store : ContentStore)

/-- `_store_and_encrypt`, at the time `now`. -/
def storeAndEncrypt (files : Files) (data : Bytes) (ownerNodeId : String)
    (replicationFactor : ℤ) (visibility : String) (now : ℚ) (random : Bytes) :
    Files × Except StorageError CacheEntry :=
  let (files, split) := store.shardEngine.split hashes z files data
    { ownerNodeId := ownerNodeId
      replicationFactor := replicationFactor
      visibility := visibility
      shardingMode := .replication
      erasureK := 6
      erasureN := 10
      now := now }
  (files, split.map fun manifest =>
    let (threshold, numShares) := selectThresholdParams manifest.shardHashes.length
    let (ciphertext, keyShares) :=
      manager.encryptManifest random manifest manifest.contentHash threshold numShares
    ⟨ciphertext, keyShares, manifest⟩)

def storeLocalWithArtifacts (s : StoreState) (data : Bytes) (replicationFactor : ℤ) (now : ℚ)
    (random : Bytes) : StoreState × Except StorageError StorageArtifacts :=
  match storeAndEncrypt hashes z manager store s.files data store.nodeId replicationFactor
      "public" now random with
  | (files, .error error) => ({ s with files := files }, .error error)
  | (files, .ok entry) =>
      let contentHash := entry.manifest.contentHash
      (⟨files, s.manifestCache.put store.manifestCacheMax contentHash.hex entry⟩,
        .ok
          { contentHash := contentHash
            encryptedManifest := entry.ciphertext
            keyShares := entry.keyShares
            shardPaths := entry.manifest.shardHashes.map (pathFor store.dataDir)
            manifest := entry.manifest })

def storeLocal (s : StoreState) (data : Bytes) (replicationFactor : ℤ) (now : ℚ)
    (random : Bytes) : StoreState × Except StorageError ContentHash :=
  match storeAndEncrypt hashes z manager store s.files data store.nodeId replicationFactor
      "public" now random with
  | (files, .error error) => ({ s with files := files }, .error error)
  | (files, .ok entry) =>
      let contentHash := entry.manifest.contentHash
      (⟨files, s.manifestCache.put store.manifestCacheMax contentHash.hex entry⟩,
        .ok contentHash)

/-- `retrieve_local`, which marks the manifest as the one used last. -/
def retrieveLocal (s : StoreState) (contentHash : ContentHash) :
    StoreState × Except StorageError Bytes :=
  match s.manifestCache.touch contentHash.hex with
  | (cache, none) => ({ s with manifestCache := cache }, throw (.contentNotFound contentHash.hex))
  | (cache, some entry) =>
      ({ s with manifestCache := cache }, reassemble hashes z s.files entry.manifest)

/-- The loop of `retrieve_with_artifacts` over the shards.  The error it raises lacks an
argument, which is a `TypeError`. -/
def stageShards : Files → List (Bytes × ContentHash) → Files × Except StorageError Unit
  | files, [] => (files, pure ())
  | files, (blob, expected) :: rest =>
      let files := storeBlob hashes files blob
      if hashes.of blob ≠ expected then (files, throw (.missingArgument "actual"))
      else stageShards files rest

def retrieveWithArtifacts (s : StoreState) (encryptedManifest : Bytes)
    (keyShares : List KeyShare) (shardBlobs : List Bytes) :
    StoreState × Except StorageError Bytes :=
  match manager.decodeManifest encryptedManifest keyShares with
  | .error error => (s, throw error)
  | .ok manifest =>
      if shardBlobs.length ≠ manifest.shardHashes.length then
        (s, throw (.missingArgument "actual"))
      else
        match stageShards hashes s.files (shardBlobs.zip manifest.shardHashes) with
        | (files, .error error) => ({ s with files := files }, throw error)
        | (files, .ok ()) => ({ s with files := files }, reassemble hashes z files manifest)

def deleteLocal (s : StoreState) (contentHash : ContentHash) : StoreState :=
  match s.manifestCache.get? contentHash.hex with
  | none => s
  | some entry =>
      { files := entry.manifest.shardHashes.foldl Dict.erase s.files
        manifestCache := s.manifestCache.erase contentHash.hex }

end Code

inductive Call
  | storeLocal (data : Bytes) (replicationFactor : ℤ) (now : ℚ) (random : Bytes)
  | storeLocalWithArtifacts (data : Bytes) (replicationFactor : ℤ) (now : ℚ) (random : Bytes)
  | retrieveLocal (contentHash : ContentHash)
  | retrieveWithArtifacts (encryptedManifest : Bytes) (keyShares : List KeyShare)
      (shardBlobs : List Bytes)
  | deleteLocal (contentHash : ContentHash)

/-- The store, with the contents that were stored and not deleted since. -/
structure World where
  state : StoreState
  live : List Bytes

section Runs

variable (hashes : Hashes) (z : Zfec) (manager : KeyManager) (store : ContentStore)

def World.call (w : World) : Call → World
  | .storeLocal data replicationFactor now random =>
      ⟨(storeLocal hashes z manager store w.state data replicationFactor now random).1,
        data :: w.live⟩
  | .storeLocalWithArtifacts data replicationFactor now random =>
      ⟨(storeLocalWithArtifacts hashes z manager store w.state data replicationFactor now
        random).1, data :: w.live⟩
  | .retrieveLocal contentHash => ⟨(retrieveLocal hashes z w.state contentHash).1, w.live⟩
  | .retrieveWithArtifacts encryptedManifest keyShares shardBlobs =>
      ⟨(retrieveWithArtifacts hashes z manager w.state encryptedManifest keyShares
        shardBlobs).1, w.live⟩
  | .deleteLocal contentHash =>
      ⟨deleteLocal w.state contentHash,
        w.live.filter fun data => hashes.of data ≠ contentHash⟩

/-- Calls one after another. -/
def contentMachine : Machine World Call where
  step := fun w call => some (w.call hashes z manager store call)

/-- A new store over the files of its directory. -/
def World.init (files : Files) : World := ⟨⟨files, ∅⟩, []⟩

/-- Every content that is live is returned as it was stored. -/
def AllReturned (w : World) : Prop :=
  ∀ data ∈ w.live, (retrieveLocal hashes z w.state (hashes.of data)).2 = .ok data

/-- The strings a call gives to the hash: contents, chunks and shards. -/
def Call.hashed : Call → Set Bytes
  | .storeLocal data _ _ _ | .storeLocalWithArtifacts data _ _ _ =>
      {b | b = data ∨ b ∈ store.shardEngine.chunks data}
  | .retrieveWithArtifacts _ _ shardBlobs => {b | b ∈ shardBlobs}
  | _ => ∅

/-- The strings of the files and of all calls. -/
def hashedIn (files : Files) (calls : List Call) : Set Bytes :=
  {data | (∃ hash, files.get? hash = some data) ∨ ∃ call ∈ calls, data ∈ call.hashed store}

/-- The manifest of a stored content has room in the cache. -/
def WithinBound (w : World) : Call → Prop
  | .storeLocal data _ _ _ | .storeLocalWithArtifacts data _ _ _ =>
      w.state.manifestCache.HasRoom store.manifestCacheMax (hashes.of data).hex
  | _ => True

instance (w : World) : (call : Call) → Decidable (WithinBound hashes store w call)
  | .storeLocal data _ _ _ =>
      inferInstanceAs (Decidable (w.state.manifestCache.HasRoom _ (hashes.of data).hex))
  | .storeLocalWithArtifacts data _ _ _ =>
      inferInstanceAs (Decidable (w.state.manifestCache.HasRoom _ (hashes.of data).hex))
  | .retrieveLocal _ | .retrieveWithArtifacts _ _ _ | .deleteLocal _ => isTrue trivial

/-- A deleted content shares no blob with another content in the cache. -/
def SharesNoBlob (w : World) : Call → Prop
  | .deleteLocal contentHash =>
      ∀ entry, w.state.manifestCache.get? contentHash.hex = some entry →
        ∀ key other, key ≠ contentHash.hex → w.state.manifestCache.get? key = some other →
          ∀ shard ∈ entry.manifest.shardHashes, shard ∉ other.manifest.shardHashes
  | _ => True

end Runs

end Prsm.Storage
