import Prsm.Storage.ContentStore

/-!
# What a deletion takes with it

A blob belongs to every content that has it as a chunk, and is deleted with any of them.
Within the bound of the cache, all live contents are returned exactly as long as no deleted
content shares a blob with another one.
-/

namespace Prsm.Storage

open Foundations
open Evm (Bytes)

/-- The manifest of a content. -/
structure Describes (hashes : Hashes) (engine : ShardEngine) (manifest : ShardManifest)
    (data : Bytes) : Prop where
  hash : manifest.contentHash = hashes.of data
  shards : manifest.shardHashes = (engine.chunks data).map hashes.of
  mode : manifest.shardingMode = .replication

/-- The chunks of a content are all there. -/
def Present (hashes : Hashes) (engine : ShardEngine) (files : Files) (data : Bytes) : Prop :=
  ∀ c ∈ engine.chunks data, (files.get? (hashes.of c)).isSome

section Files

variable {hashes : Hashes} {z : Zfec} {engine : ShardEngine} {files : Files} {data : Bytes}
  {hashed : Set Bytes}

theorem get?_foldl_erase (shards : List ContentHash) (hash : ContentHash) :
    (shards.foldl Dict.erase files).get? hash =
      if hash ∈ shards then none else files.get? hash := by
  induction shards generalizing files with
  | nil => simp
  | cons shard rest ih =>
      rw [List.foldl_cons, ih, Dict.get?_erase]
      by_cases hRest : hash ∈ rest
      · simp [hRest]
      · by_cases hShard : hash = shard
        · simp [hShard]
        · simp [hRest, hShard]

theorem Sound.erase (h : Sound hashes hashed files) (shards : List ContentHash) :
    Sound hashes hashed (shards.foldl Dict.erase files) := by
  have hOld : ∀ hash data, (shards.foldl Dict.erase files).get? hash = some data →
      files.get? hash = some data := by
    intro hash data hFound
    rw [get?_foldl_erase] at hFound
    split at hFound
    · cases hFound
    · exact hFound
  exact ⟨fun hash data hFound => h.intact _ _ (hOld _ _ hFound),
    fun hash data hFound => h.mem _ _ (hOld _ _ hFound)⟩

theorem isSome_of_collectParts {expected : List ContentHash} {parts : List Bytes}
    (h : collectParts hashes files expected = .ok parts) :
    ∀ hash ∈ expected, (files.get? hash).isSome := by
  induction expected generalizing parts with
  | nil => simp
  | cons first rest ih =>
      rw [collectParts] at h
      cases hFile : files.get? first with
      | none => simp [retrieveBlob, hFile, bind, Except.bind, throw, throwThe,
          MonadExceptOf.throw] at h
      | some raw =>
          cases hCheck : checkHash hashes first raw with
          | error e => simp [retrieveBlob, hFile, hCheck, bind, Except.bind, pure,
              Except.pure] at h
          | ok u =>
              cases hRest : collectParts hashes files rest with
              | error e => simp [retrieveBlob, hFile, hCheck, hRest, bind, Except.bind, pure,
                  Except.pure] at h
              | ok others =>
                  intro hash hMem
                  rcases List.mem_cons.mp hMem with rfl | hMem
                  · simp [hFile]
                  · exact ih hRest hash hMem

theorem reassemble_content_iff {manifest : ShardManifest}
    (hManifest : Describes hashes engine manifest data) (hFiles : Sound hashes hashed files)
    (hInj : Set.InjOn hashes.sha256.digest hashed)
    (hChunks : ∀ c ∈ engine.chunks data, c ∈ hashed) :
    reassemble hashes z files manifest = .ok data ↔ Present hashes engine files data := by
  unfold reassemble
  rw [hManifest.mode, hManifest.hash, hManifest.shards]
  constructor
  · intro h c hc
    cases hParts : collectParts hashes files ((engine.chunks data).map hashes.of) with
    | error e => simp [hParts, bind, Except.bind] at h
    | ok parts => exact isSome_of_collectParts hParts _ (List.mem_map_of_mem hc)
  · intro h
    have hParts : collectParts hashes files ((engine.chunks data).map hashes.of) =
        .ok (engine.chunks data) :=
      collectParts_of_present fun c hc => hFiles.get?_eq hInj (hChunks c hc) (h c hc)
    simp [hParts, bind, Except.bind, pure, Except.pure]

theorem Present.storeAll (h : Present hashes engine files data) (blobs : List Bytes) :
    Present hashes engine (storeAll hashes files blobs) data := by
  intro c hc
  obtain ⟨found, hFound⟩ := Option.isSome_iff_exists.mp (h c hc)
  rw [get?_storeAll_of_some hFound]
  rfl

theorem present_storeAll_chunks :
    Present hashes engine (storeAll hashes files (engine.chunks data)) data :=
  fun _ hc => isSome_storeAll_of_mem hc

end Files

section Calls

variable (hashes : Hashes) (z : Zfec) (manager : KeyManager) (store : ContentStore)

/-- The state after a content was stored with the manifest of an entry. -/
def StoreState.stored (s : StoreState) (data : Bytes)
    (entry : CacheEntry) : StoreState :=
  ⟨storeAll hashes s.files (store.shardEngine.chunks data),
    s.manifestCache.put store.manifestCacheMax (hashes.of data).hex entry⟩

theorem storeLocal_spec (s : StoreState) (data : Bytes) (replicationFactor : ℤ) (now : ℚ)
    (random : Bytes) :
    ∃ entry, Describes hashes store.shardEngine entry.manifest data ∧
      storeLocal hashes z manager store s data replicationFactor now random =
        (s.stored hashes store data entry, .ok (hashes.of data)) :=
  ⟨_, ⟨rfl, rfl, rfl⟩, rfl⟩

theorem storeLocalWithArtifacts_spec (s : StoreState) (data : Bytes) (replicationFactor : ℤ)
    (now : ℚ) (random : Bytes) :
    ∃ entry, Describes hashes store.shardEngine entry.manifest data ∧
      (storeLocalWithArtifacts hashes z manager store s data replicationFactor now random).1 =
        s.stored hashes store data entry :=
  ⟨_, ⟨rfl, rfl, rfl⟩, rfl⟩

theorem stageShards_fst (files : Files) (pairs : List (Bytes × ContentHash)) :
    ∃ staged, staged <+: pairs.map Prod.fst ∧
      (stageShards hashes files pairs).1 = storeAll hashes files staged := by
  induction pairs generalizing files with
  | nil => exact ⟨[], List.nil_prefix, rfl⟩
  | cons pair rest ih =>
      obtain ⟨blob, expected⟩ := pair
      rw [stageShards]
      split
      · exact ⟨[blob], by simp, rfl⟩
      · obtain ⟨staged, hPrefix, hFiles⟩ := ih (storeBlob hashes files blob)
        exact ⟨blob :: staged, List.cons_prefix_cons.mpr ⟨rfl, hPrefix⟩, hFiles⟩

theorem retrieveWithArtifacts_fst (s : StoreState) (encryptedManifest : Bytes)
    (keyShares : List KeyShare) (shardBlobs : List Bytes) :
    ∃ staged, staged ⊆ shardBlobs ∧
      (retrieveWithArtifacts hashes z manager s encryptedManifest keyShares shardBlobs).1 =
        { s with files := storeAll hashes s.files staged } := by
  unfold retrieveWithArtifacts
  cases manager.decodeManifest encryptedManifest keyShares with
  | error e => exact ⟨[], List.nil_subset _, rfl⟩
  | ok manifest =>
      by_cases hLength : shardBlobs.length ≠ manifest.shardHashes.length
      · simp only [if_pos hLength]
        exact ⟨[], List.nil_subset _, rfl⟩
      · simp only [if_neg hLength]
        obtain ⟨staged, hPrefix, hFiles⟩ :=
          stageShards_fst hashes s.files (shardBlobs.zip manifest.shardHashes)
        have hGiven : staged ⊆ shardBlobs := by
          intro blob hBlob
          have hFirst := hPrefix.subset hBlob
          rwa [List.map_fst_zip (not_not.mp hLength).le] at hFirst
        refine ⟨staged, hGiven, ?_⟩
        rcases hStage : stageShards hashes s.files (shardBlobs.zip manifest.shardHashes) with
          ⟨files, error | u⟩ <;> rw [hStage] at hFiles <;> rw [← hFiles]

end Calls

/-! ## What holds between the calls -/

/-- The cache and the live contents agree, and the files are sound. -/
structure Coherent (hashes : Hashes) (store : ContentStore) (hashed : Set Bytes) (w : World) :
    Prop where
  sound : Sound hashes hashed w.state.files
  live_hashed : ∀ data ∈ w.live, data ∈ hashed ∧
    ∀ c ∈ store.shardEngine.chunks data, c ∈ hashed
  length_le : w.state.manifestCache.entries.length ≤ store.manifestCacheMax
  cached : ∀ key entry, w.state.manifestCache.get? key = some entry →
    ∃ data ∈ w.live, key = (hashes.of data).hex ∧
      Describes hashes store.shardEngine entry.manifest data
  listed : ∀ data ∈ w.live, (w.state.manifestCache.get? (hashes.of data).hex).isSome

section Invariant

variable {hashes : Hashes} {z : Zfec} {manager : KeyManager} {store : ContentStore}
  {hashed : Set Bytes} {w : World}

theorem key_injOn (hInj : Set.InjOn hashes.sha256.digest hashed) :
    Set.InjOn (fun data => (hashes.of data).hex) hashed := by
  intro a ha b hb hSame
  exact hInj ha hb (congrArg ContentHash.digest (ContentHash.hex_injective hSame))

theorem Coherent.entry (h : Coherent hashes store hashed w)
    (hInj : Set.InjOn hashes.sha256.digest hashed) {data : Bytes} (hLive : data ∈ w.live) :
    ∃ entry, w.state.manifestCache.get? (hashes.of data).hex = some entry ∧
      Describes hashes store.shardEngine entry.manifest data := by
  obtain ⟨entry, hEntry⟩ := Option.isSome_iff_exists.mp (h.listed data hLive)
  obtain ⟨other, hOther, hKey, hDescribes⟩ := h.cached _ _ hEntry
  have hSame := key_injOn hInj (h.live_hashed _ hLive).1 (h.live_hashed _ hOther).1 hKey
  exact ⟨entry, hEntry, hSame ▸ hDescribes⟩

theorem Coherent.allReturned_iff (h : Coherent hashes store hashed w)
    (hInj : Set.InjOn hashes.sha256.digest hashed) :
    AllReturned hashes z w ↔
      ∀ data ∈ w.live, Present hashes store.shardEngine w.state.files data := by
  apply forall₂_congr
  intro data hLive
  obtain ⟨entry, hEntry, hDescribes⟩ := h.entry hInj hLive
  rw [← reassemble_content_iff (z := z) hDescribes h.sound hInj (h.live_hashed _ hLive).2]
  have hTouch := Dict.touch_snd w.state.manifestCache (hashes.of data).hex
  rw [hEntry] at hTouch
  unfold retrieveLocal
  rcases hFound : w.state.manifestCache.touch (hashes.of data).hex with ⟨cache, found⟩
  rw [hFound] at hTouch
  obtain rfl : found = some entry := hTouch
  rfl

theorem Coherent.init {files : Files} (h : Sound hashes hashed files) :
    Coherent hashes store hashed (World.init files) where
  sound := h
  live_hashed := by simp [World.init]
  length_le := by simp [World.init]
  cached := by simp [World.init]
  listed := by simp [World.init]

theorem Coherent.stored (h : Coherent hashes store hashed w) {data : Bytes} {entry : CacheEntry}
    (hEntry : Describes hashes store.shardEngine entry.manifest data)
    (hRoom : w.state.manifestCache.HasRoom store.manifestCacheMax (hashes.of data).hex)
    (hData : data ∈ hashed) (hChunks : ∀ c ∈ store.shardEngine.chunks data, c ∈ hashed) :
    Coherent hashes store hashed ⟨w.state.stored hashes store data entry, data :: w.live⟩ where
  sound := h.sound.storeAll hChunks
  live_hashed := by
    intro other hOther
    rcases List.mem_cons.mp hOther with rfl | hOther
    · exact ⟨hData, hChunks⟩
    · exact h.live_hashed other hOther
  length_le := Dict.length_entries_put_le _ _ _ _
  cached := by
    intro key found hFound
    simp only [StoreState.stored, Dict.get?_put entry h.length_le hRoom] at hFound
    split at hFound
    · next hKey =>
      obtain rfl : entry = found := Option.some.inj hFound
      exact ⟨data, List.mem_cons_self, hKey, hEntry⟩
    · obtain ⟨other, hOther, hKey, hDescribes⟩ := h.cached _ _ hFound
      exact ⟨other, List.mem_cons_of_mem _ hOther, hKey, hDescribes⟩
  listed := by
    intro other hOther
    simp only [StoreState.stored, Dict.get?_put entry h.length_le hRoom]
    split
    · rfl
    · next hKey =>
      rcases List.mem_cons.mp hOther with rfl | hOther
      · exact absurd rfl hKey
      · exact h.listed other hOther

theorem Coherent.staged (h : Coherent hashes store hashed w) {blobs : List Bytes}
    (hBlobs : ∀ b ∈ blobs, b ∈ hashed) :
    Coherent hashes store hashed
      ⟨{ w.state with files := storeAll hashes w.state.files blobs }, w.live⟩ :=
  ⟨h.sound.storeAll hBlobs, h.live_hashed, h.length_le, h.cached, h.listed⟩

theorem Coherent.touched (h : Coherent hashes store hashed w) (key : String) :
    Coherent hashes store hashed
      ⟨{ w.state with manifestCache := (w.state.manifestCache.touch key).1 }, w.live⟩ where
  sound := h.sound
  live_hashed := h.live_hashed
  length_le := by
    rw [Dict.length_entries_touch]
    exact h.length_le
  cached := fun key' entry hEntry => h.cached key' entry (by simpa using hEntry)
  listed := fun data hLive => by simpa using h.listed data hLive

theorem retrieveLocal_fst (s : StoreState) (contentHash : ContentHash) :
    (retrieveLocal hashes z s contentHash).1 =
      { s with manifestCache := (s.manifestCache.touch contentHash.hex).1 } := by
  unfold retrieveLocal
  rcases s.manifestCache.touch contentHash.hex with ⟨cache, _ | entry⟩ <;> rfl

theorem Coherent.deleted (h : Coherent hashes store hashed w) (contentHash : ContentHash) :
    Coherent hashes store hashed
      (w.call hashes z manager store (.deleteLocal contentHash)) := by
  have hLive : ∀ data, data ∈ w.live.filter (fun data => hashes.of data ≠ contentHash) ↔
      data ∈ w.live ∧ hashes.of data ≠ contentHash := by
    intro data
    simp
  have hKept : ∀ key entry, w.state.manifestCache.get? key = some entry →
      key ≠ contentHash.hex →
        ∃ data ∈ w.live.filter (fun data => hashes.of data ≠ contentHash),
          key = (hashes.of data).hex ∧
            Describes hashes store.shardEngine entry.manifest data := by
    intro key entry hEntry hKey
    obtain ⟨data, hData, hSame, hDescribes⟩ := h.cached key entry hEntry
    refine ⟨data, (hLive data).mpr ⟨hData, ?_⟩, hSame, hDescribes⟩
    rintro rfl
    exact hKey hSame
  show Coherent hashes store hashed ⟨deleteLocal w.state contentHash, _⟩
  unfold deleteLocal
  cases hFound : w.state.manifestCache.get? contentHash.hex with
  | none =>
      refine ⟨h.sound, fun data hd => h.live_hashed data ((hLive data).mp hd).1, h.length_le,
        ?_, fun data hd => h.listed data ((hLive data).mp hd).1⟩
      intro key entry hEntry
      apply hKept key entry hEntry
      rintro rfl
      rw [hFound] at hEntry
      cases hEntry
  | some deleted =>
      refine ⟨h.sound.erase _, fun data hd => h.live_hashed data ((hLive data).mp hd).1,
        (Dict.length_entries_erase_le _ _).trans h.length_le, ?_, ?_⟩
      · intro key entry hEntry
        rw [Dict.get?_erase] at hEntry
        split at hEntry
        · cases hEntry
        · next hKey => exact hKept key entry hEntry hKey
      · intro data hd
        obtain ⟨hData, hOther⟩ := (hLive data).mp hd
        rw [Dict.get?_erase, if_neg fun hSame => hOther (ContentHash.hex_injective hSame)]
        exact h.listed data hData

theorem Coherent.deleted_iff (h : Coherent hashes store hashed w)
    (hInj : Set.InjOn hashes.sha256.digest hashed) (hReturned : AllReturned hashes z w)
    (contentHash : ContentHash) :
    AllReturned hashes z (w.call hashes z manager store (.deleteLocal contentHash)) ↔
      SharesNoBlob w (.deleteLocal contentHash) := by
  have hNext : Coherent hashes store hashed
      (w.call hashes z manager store (.deleteLocal contentHash)) := h.deleted contentHash
  rw [hNext.allReturned_iff hInj]
  rw [h.allReturned_iff hInj] at hReturned
  show (∀ data ∈ w.live.filter (fun data => hashes.of data ≠ contentHash),
    Present hashes store.shardEngine (deleteLocal w.state contentHash).files data) ↔ _
  unfold deleteLocal
  cases hFound : w.state.manifestCache.get? contentHash.hex with
  | none =>
      constructor
      · intro _ entry hEntry
        rw [hFound] at hEntry
        cases hEntry
      · intro _ data hd
        exact hReturned data (List.mem_filter.mp hd).1
  | some deleted =>
      constructor
      · intro hPresent entry hEntry key other hKey hOther shard hShard hShared
        obtain rfl : deleted = entry := Option.some.inj (hFound.symm.trans hEntry)
        obtain ⟨data, hData, hSame, hDescribes⟩ := h.cached key other hOther
        rw [hDescribes.shards] at hShared
        obtain ⟨c, hc, rfl⟩ := List.mem_map.mp hShared
        have hLive : data ∈ w.live.filter (fun data => hashes.of data ≠ contentHash) := by
          rw [List.mem_filter, decide_eq_true_iff]
          refine ⟨hData, ?_⟩
          rintro rfl
          exact hKey hSame
        have hStill := hPresent data hLive c hc
        rw [get?_foldl_erase, if_pos hShard] at hStill
        cases hStill
      · intro hNone data hd c hc
        rw [List.mem_filter, decide_eq_true_iff] at hd
        obtain ⟨hData, hOther⟩ := hd
        obtain ⟨entry, hEntry, hDescribes⟩ := h.entry hInj hData
        have hUnshared : hashes.of c ∉ deleted.manifest.shardHashes := by
          intro hShard
          apply hNone deleted hFound _ entry
            (fun hSame => hOther (ContentHash.hex_injective hSame)) hEntry _ hShard
          rw [hDescribes.shards]
          exact List.mem_map_of_mem hc
        rw [get?_foldl_erase, if_neg hUnshared]
        exact hReturned data hData c hc

end Invariant

section Runs

variable {hashes : Hashes} {z : Zfec} {manager : KeyManager} {store : ContentStore}
  {hashed : Set Bytes}

theorem call_spec (hInj : Set.InjOn hashes.sha256.digest hashed) {w : World} {call : Call}
    (h : Coherent hashes store hashed w) (hRoom : WithinBound hashes store w call)
    (hStrings : call.hashed store ⊆ hashed) :
    Coherent hashes store hashed (w.call hashes z manager store call) ∧
      (AllReturned hashes z w →
        (AllReturned hashes z (w.call hashes z manager store call) ↔ SharesNoBlob w call)) := by
  have hStored : ∀ data entry, Describes hashes store.shardEngine entry.manifest data →
      w.state.manifestCache.HasRoom store.manifestCacheMax (hashes.of data).hex →
      data ∈ hashed → (∀ c ∈ store.shardEngine.chunks data, c ∈ hashed) →
      Coherent hashes store hashed ⟨w.state.stored hashes store data entry, data :: w.live⟩ ∧
        (AllReturned hashes z w →
          AllReturned hashes z ⟨w.state.stored hashes store data entry, data :: w.live⟩) := by
    intro data entry hEntry hHas hData hChunks
    have hNext := h.stored hEntry hHas hData hChunks
    refine ⟨hNext, ?_⟩
    rw [hNext.allReturned_iff hInj, h.allReturned_iff hInj]
    intro hPresent other hOther
    rcases List.mem_cons.mp hOther with rfl | hOther
    · exact present_storeAll_chunks
    · exact (hPresent other hOther).storeAll _
  cases call with
  | storeLocal data replicationFactor now random =>
      obtain ⟨entry, hEntry, hCall⟩ :=
        storeLocal_spec hashes z manager store w.state data replicationFactor now random
      obtain ⟨hNext, hReturned⟩ := hStored data entry hEntry hRoom (hStrings (Or.inl rfl))
        fun c hc => hStrings (Or.inr hc)
      rw [World.call, hCall]
      exact ⟨hNext, fun h => iff_of_true (hReturned h) trivial⟩
  | storeLocalWithArtifacts data replicationFactor now random =>
      obtain ⟨entry, hEntry, hCall⟩ := storeLocalWithArtifacts_spec hashes z manager store
        w.state data replicationFactor now random
      obtain ⟨hNext, hReturned⟩ := hStored data entry hEntry hRoom (hStrings (Or.inl rfl))
        fun c hc => hStrings (Or.inr hc)
      rw [World.call, hCall]
      exact ⟨hNext, fun h => iff_of_true (hReturned h) trivial⟩
  | retrieveLocal contentHash =>
      have hNext := h.touched contentHash.hex
      rw [World.call, retrieveLocal_fst, hNext.allReturned_iff hInj, h.allReturned_iff hInj]
      exact ⟨hNext, fun hPresent => iff_of_true hPresent trivial⟩
  | retrieveWithArtifacts encryptedManifest keyShares shardBlobs =>
      obtain ⟨staged, hGiven, hCall⟩ := retrieveWithArtifacts_fst hashes z manager w.state
        encryptedManifest keyShares shardBlobs
      have hNext := h.staged fun b hb => hStrings (hGiven hb)
      rw [World.call, hCall, hNext.allReturned_iff hInj, h.allReturned_iff hInj]
      exact ⟨hNext, fun hPresent =>
        iff_of_true (fun data hLive => (hPresent data hLive).storeAll staged) trivial⟩
  | deleteLocal contentHash =>
      exact ⟨h.deleted contentHash, fun hReturned => h.deleted_iff hInj hReturned contentHash⟩

/-- In a run within the bound of the cache, all live contents are returned at all times
exactly if no deleted content shares a blob with another cached one. -/
theorem allReturned_iff_sharesNoBlob {files : Files} {calls : List Call}
    (hIntact : Intact hashes files)
    (hInj : Set.InjOn hashes.sha256.digest (hashedIn store files calls))
    (hBound : (contentMachine hashes z manager store).EveryStep (WithinBound hashes store)
      (World.init files) calls) :
    (contentMachine hashes z manager store).EveryState (AllReturned hashes z)
        (World.init files) calls ↔
      (contentMachine hashes z manager store).EveryStep SharesNoBlob (World.init files) calls := by
  have hStart : Coherent hashes store (hashedIn store files calls) (World.init files) :=
    Coherent.init ⟨hIntact, fun hash data h => Or.inl ⟨hash, h⟩⟩
  have hSpec : ∀ w call, Coherent hashes store (hashedIn store files calls) w →
      WithinBound hashes store w call ∧ call ∈ calls →
        Coherent hashes store (hashedIn store files calls) (w.call hashes z manager store call) ∧
          (AllReturned hashes z w →
            (AllReturned hashes z (w.call hashes z manager store call) ↔
              SharesNoBlob w call)) := fun w call h hWithin =>
    call_spec hInj h hWithin.1 fun data hData => Or.inr ⟨call, hWithin.2, hData⟩
  apply Machine.everyState_iff_everyStep_within _
    (Coherent hashes store (hashedIn store files calls)) _ _ _ _ _ hStart _
    (hBound.and (Machine.everyStep_mem _ _ _))
  · intro w call w' h hWithin hStep
    rw [← Option.some.inj hStep]
    exact (hSpec w call h hWithin).1
  · intro w call w' h hWithin hReturned hStep
    rw [← Option.some.inj hStep]
    exact (hSpec w call h hWithin).2 hReturned
  · intro data hLive
    cases hLive

end Runs

/-! ## Two contents with a chunk in common -/

namespace Sample

def hashes : Hashes where
  sha256 := Sha256.ofTable [([7], 1), ([8], 2), ([9], 3), ([7, 8], 4), ([7, 9], 5)]
  sha3_256 := fun data => data

def zfec : Zfec where
  encode := fun _ _ blocks => blocks
  decode := fun _ _ shares _ => shares

def manager : KeyManager where
  encryptManifest := fun random _ _ _ _ => (random, [])
  decodeManifest := fun _ _ => throw (.manifest "")

/-- Chunks of one byte. -/
def store : ContentStore where
  dataDir := "/var/prsm/storage"
  nodeId := "node-1"
  shardEngine := ⟨1, 1, Nat.one_pos⟩
  configuredCacheMax := 4096

def calls : List Call :=
  [.storeLocal [7, 8] 3 0 [], .storeLocal [7, 9] 3 1 [], .deleteLocal (hashes.of [7, 8])]

theorem hashedIn_calls :
    hashedIn store ∅ calls ⊆ {data | data ∈ [[7, 8], [7], [8], [7, 9], [9]]} := by
  rintro data (⟨hash, hFile⟩ | ⟨call, hCall, hData⟩)
  · cases hFile
  · have hChunks : store.shardEngine.chunks [7, 8] = [[7], [8]] ∧
        store.shardEngine.chunks [7, 9] = [[7], [9]] := by decide
    simp only [calls, List.mem_cons, List.not_mem_nil, or_false] at hCall
    rcases hCall with rfl | rfl | rfl
    · rcases hData with rfl | hData
      · simp
      · rw [hChunks.1] at hData
        simp only [List.mem_cons, List.not_mem_nil, or_false] at hData
        rcases hData with rfl | rfl <;> simp
    · rcases hData with rfl | hData
      · simp
      · rw [hChunks.2] at hData
        simp only [List.mem_cons, List.not_mem_nil, or_false] at hData
        rcases hData with rfl | rfl <;> simp
    · cases hData

theorem injOn_calls : Set.InjOn hashes.sha256.digest (hashedIn store ∅ calls) := by
  have hTable : ∀ a ∈ [[7, 8], [7], [8], [7, 9], [9]], ∀ b ∈ [[7, 8], [7], [8], [7, 9], [9]],
      hashes.sha256.digest a = hashes.sha256.digest b → a = b := by decide +kernel
  exact fun a ha b hb => hTable a (hashedIn_calls ha) b (hashedIn_calls hb)

/-- The two contents, and the deletion of one. -/
theorem allReturned_calls_iff :
    (contentMachine hashes zfec manager store).EveryState (AllReturned hashes zfec)
        (World.init ∅) calls ↔
      (contentMachine hashes zfec manager store).EveryStep SharesNoBlob (World.init ∅)
        calls :=
  allReturned_iff_sharesNoBlob (fun _ _ h => by cases h) injOn_calls (by decide +kernel)

/-- Deleting the first content takes the chunk of the second one, which was never deleted and
is not returned any more. -/
theorem delete_takes_shared_blob :
    (contentMachine hashes zfec manager store).EveryStep (WithinBound hashes store)
        (World.init ∅) calls ∧
      Set.InjOn hashes.sha256.digest (hashedIn store ∅ calls) ∧
      let w := (contentMachine hashes zfec manager store).run (World.init ∅) calls
      w.live = [[7, 9]] ∧
        (retrieveLocal hashes zfec w.state (hashes.of [7, 9])).2 =
          .error (.contentNotFound (hashes.of [7]).hex) := by
  refine ⟨by decide +kernel, injOn_calls, ?_⟩
  decide +kernel

end Sample

end Prsm.Storage
