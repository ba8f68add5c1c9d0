import Prsm.ChainRpc.Messages
import Prsm.Storage.Sha256

/-!
# Payloads sent in chunks

`ShardChunker` cuts a payload into chunks, and `ShardAssembler` puts them together again: in
order, each one checked against its digest and the whole against the manifest, and never more
bytes than the manifest declares or the receiver allows.
-/

namespace Prsm.ChainRpc

open Foundations
open Evm (Bytes)
open Storage (Sha256)

structure ShardChunk where
  shardId : String
  sequence : ℤ
  data : Bytes
  chunkSha256 : String

inductive StreamingError
  | exceedsCap (payloadBytes cap : ℤ)
  | shardIdMismatch (chunk manifest : String)
  | chunkOutOfOrder (expected : ℕ) (got : ℤ)
  | chunkChecksumMismatch (sequence : ℤ)
  | exceedsLimit (limit : ℤ)
  | incompleteStream (got : ℕ) (expected : ℤ)
  | payloadLengthMismatch (got : ℕ) (expected : ℤ)
  | payloadChecksumMismatch
  deriving DecidableEq

/-- `_max_reassembly_bytes`, with the number that is configured, if it is one. -/
def maxReassemblyBytes (configured : Option ℤ) : ℤ :=
  match configured with
  | some v => if 0 < v then v else 2 ^ 30
  | none => 2 ^ 30

/-! ## `ShardChunker` -/

def totalChunks (chunkBytes payloadBytes : ℕ) : ℕ :=
  if payloadBytes = 0 then 0 else (payloadBytes + chunkBytes - 1) / chunkBytes

/-- The bytes of a chunk. -/
def chunkData (chunkBytes : ℕ) (payload : Bytes) (seq : ℕ) : Bytes :=
  (payload.drop (seq * chunkBytes)).take chunkBytes

def chunkOf (sha : Sha256) (chunkBytes : ℕ) (shardId : String) (payload : Bytes) (seq : ℕ) :
    ShardChunk :=
  let data := chunkData chunkBytes payload seq
  ⟨shardId, seq, data, sha.hexdigest data⟩

/-- A chunker whose chunk size is not positive cannot be made. -/
def chunk (sha : Sha256) (chunkBytes : ℤ) (shardId : String) (payload : Bytes) :
    Option (ShardManifest × List ShardChunk) :=
  if chunkBytes ≤ 0 then none
  else
    let total := totalChunks chunkBytes.toNat payload.length
    some (⟨shardId, sha.hexdigest payload, payload.length, total, chunkBytes⟩,
      (List.range total).map (chunkOf sha chunkBytes.toNat shardId payload))

/-! ## `ShardAssembler` -/

/-- An assembler that has not been finalised. -/
structure ShardAssembler where
  manifest : ShardManifest
  maxBytes : ℤ
  receivedBytes : ℕ
  buffer : List Bytes
  nextSequence : ℕ

namespace ShardAssembler

def opened (cap : ℤ) (manifest : ShardManifest) : Except StreamingError ShardAssembler := do
  require (manifest.payloadBytes ≤ cap) (.exceedsCap manifest.payloadBytes cap)
  return ⟨manifest, cap, 0, [], 0⟩

variable (sha : Sha256) (a : ShardAssembler)

/-- What the assembler may buffer. -/
def limit : ℤ := min a.manifest.payloadBytes a.maxBytes

def feed (chunk : ShardChunk) : Except StreamingError ShardAssembler := do
  require (chunk.shardId = a.manifest.shardId)
    (.shardIdMismatch chunk.shardId a.manifest.shardId)
  require (chunk.sequence = a.nextSequence) (.chunkOutOfOrder a.nextSequence chunk.sequence)
  require (sha.hexdigest chunk.data = chunk.chunkSha256) (.chunkChecksumMismatch chunk.sequence)
  require ((a.receivedBytes + chunk.data.length : ℕ) ≤ a.limit) (.exceedsLimit a.limit)
  return { a with
    receivedBytes := a.receivedBytes + chunk.data.length
    buffer := a.buffer ++ [chunk.data]
    nextSequence := a.nextSequence + 1 }

def feedAll (a : ShardAssembler) (chunks : List ShardChunk) :
    Except StreamingError ShardAssembler :=
  chunks.foldlM (feed sha) a

def finalize : Except StreamingError Bytes := do
  require ((a.nextSequence : ℤ) = a.manifest.totalChunks)
    (.incompleteStream a.nextSequence a.manifest.totalChunks)
  let payload := a.buffer.flatten
  require ((payload.length : ℤ) = a.manifest.payloadBytes)
    (.payloadLengthMismatch payload.length a.manifest.payloadBytes)
  require (sha.hexdigest payload = a.manifest.payloadSha256) .payloadChecksumMismatch
  return payload

def reassemble (cap : ℤ) (manifest : ShardManifest) (chunks : List ShardChunk) :
    Except StreamingError Bytes := do
  let a ← opened cap manifest
  let a ← feedAll sha a chunks
  a.finalize sha

end ShardAssembler

/-! ## What an assembler holds -/

namespace ShardAssembler

variable {sha : Sha256} {a a' : ShardAssembler} {cap : ℤ} {manifest : ShardManifest}
  {chunks : List ShardChunk}

theorem opened_eq_ok_iff :
    opened cap manifest = .ok a ↔ manifest.payloadBytes ≤ cap ∧ a = ⟨manifest, cap, 0, [], 0⟩ := by
  simp only [opened, bind_eq_ok_iff, require_eq_ok_iff, pure_eq_ok_iff]
  constructor
  · rintro ⟨-, hCap, rfl⟩
    exact ⟨hCap, rfl⟩
  · rintro ⟨hCap, rfl⟩
    exact ⟨(), hCap, rfl⟩

/-- The assembler after a chunk. -/
def fed (a : ShardAssembler) (data : Bytes) : ShardAssembler :=
  { a with
    receivedBytes := a.receivedBytes + data.length
    buffer := a.buffer ++ [data]
    nextSequence := a.nextSequence + 1 }

theorem feed_eq_ok_iff {chunk : ShardChunk} :
    a.feed sha chunk = .ok a' ↔
      chunk.shardId = a.manifest.shardId ∧ chunk.sequence = a.nextSequence ∧
        sha.hexdigest chunk.data = chunk.chunkSha256 ∧
        ((a.receivedBytes + chunk.data.length : ℕ) : ℤ) ≤ a.limit ∧ a' = a.fed chunk.data := by
  simp only [feed, bind_eq_ok_iff, require_eq_ok_iff, pure_eq_ok_iff]
  constructor
  · rintro ⟨-, hId, -, hSequence, -, hDigest, -, hLimit, rfl⟩
    exact ⟨hId, hSequence, hDigest, hLimit, rfl⟩
  · rintro ⟨hId, hSequence, hDigest, hLimit, rfl⟩
    exact ⟨(), hId, (), hSequence, (), hDigest, (), hLimit, rfl⟩

theorem feedAll_cons {chunk : ShardChunk} :
    feedAll sha a (chunk :: chunks) = .ok a' ↔
      ∃ b, a.feed sha chunk = .ok b ∧ feedAll sha b chunks = .ok a' := by
  rw [feedAll, List.foldlM_cons, bind_eq_ok_iff]
  rfl

/-- The assembler has counted what it buffers, and that is within the limit. -/
structure Bounded (a : ShardAssembler) : Prop where
  received : a.receivedBytes = a.buffer.flatten.length
  within : a.buffer = [] ∨ (a.receivedBytes : ℤ) ≤ a.limit

theorem bounded_opened (h : opened cap manifest = .ok a) : a.Bounded := by
  obtain ⟨-, rfl⟩ := opened_eq_ok_iff.mp h
  exact ⟨rfl, Or.inl rfl⟩

theorem Bounded.feed {chunk : ShardChunk} (h : a.Bounded) (hFed : a.feed sha chunk = .ok a') :
    a'.Bounded ∧ a'.manifest = a.manifest ∧ a'.maxBytes = a.maxBytes := by
  obtain ⟨-, -, -, hLimit, rfl⟩ := feed_eq_ok_iff.mp hFed
  refine ⟨⟨?_, Or.inr hLimit⟩, rfl, rfl⟩
  simp [fed, h.received]

theorem Bounded.feedAll (h : a.Bounded) (hFed : feedAll sha a chunks = .ok a') :
    a'.Bounded ∧ a'.manifest = a.manifest ∧ a'.maxBytes = a.maxBytes := by
  induction chunks generalizing a with
  | nil =>
      obtain rfl := Except.ok.inj hFed
      exact ⟨h, rfl, rfl⟩
  | cons chunk chunks ih =>
      obtain ⟨b, hFirst, hRest⟩ := feedAll_cons.mp hFed
      obtain ⟨hBounded, hManifest, hMax⟩ := h.feed hFirst
      obtain ⟨hLast, hManifest', hMax'⟩ := ih hBounded hRest
      exact ⟨hLast, hManifest'.trans hManifest, hMax'.trans hMax⟩

theorem finalize_eq_ok_iff {payload : Bytes} :
    a.finalize sha = .ok payload ↔
      (a.nextSequence : ℤ) = a.manifest.totalChunks ∧
        (a.buffer.flatten.length : ℤ) = a.manifest.payloadBytes ∧
        sha.hexdigest a.buffer.flatten = a.manifest.payloadSha256 ∧ payload = a.buffer.flatten := by
  simp only [finalize, bind_eq_ok_iff, require_eq_ok_iff, pure_eq_ok_iff]
  constructor
  · rintro ⟨-, hCount, -, hLength, -, hDigest, rfl⟩
    exact ⟨hCount, hLength, hDigest, rfl⟩
  · rintro ⟨hCount, hLength, hDigest, rfl⟩
    exact ⟨(), hCount, (), hLength, (), hDigest, rfl⟩

/-- The assembler after several chunks. -/
def fedAll (a : ShardAssembler) (chunks : List ShardChunk) : ShardAssembler :=
  { a with
    receivedBytes := a.receivedBytes + (chunks.map (·.data)).flatten.length
    buffer := a.buffer ++ chunks.map (·.data)
    nextSequence := a.nextSequence + chunks.length }

/-- The chunks are those of the manifest's shard, in sequence from a number on, and each has
its digest. -/
def InSequence (sha : Sha256) (shardId : String) (first : ℕ) (chunks : List ShardChunk) : Prop :=
  ∀ (i : ℕ) (c : ShardChunk), chunks[i]? = some c →
    c.shardId = shardId ∧ c.sequence = ((first + i : ℕ) : ℤ) ∧
      sha.hexdigest c.data = c.chunkSha256

theorem inSequence_cons {shardId : String} {first : ℕ} {c : ShardChunk} :
    InSequence sha shardId first (c :: chunks) ↔
      (c.shardId = shardId ∧ c.sequence = first ∧ sha.hexdigest c.data = c.chunkSha256) ∧
        InSequence sha shardId (first + 1) chunks := by
  constructor
  · intro h
    refine ⟨h 0 c rfl, fun i d hd => ?_⟩
    rw [Nat.add_assoc, Nat.add_comm 1]
    exact h (i + 1) d hd
  · rintro ⟨hFirst, hRest⟩ i d hd
    cases i with
    | zero =>
        obtain rfl := Option.some.inj hd
        exact hFirst
    | succ i =>
        have h := hRest i d hd
        rwa [Nat.add_assoc, Nat.add_comm 1] at h

theorem feedAll_eq_ok_iff :
    feedAll sha a chunks = .ok a' ↔
      InSequence sha a.manifest.shardId a.nextSequence chunks ∧
        (chunks = [] ∨ ((a.fedAll chunks).receivedBytes : ℤ) ≤ a.limit) ∧
        a' = a.fedAll chunks := by
  induction chunks generalizing a with
  | nil =>
      have hNone : a.fedAll [] = a := by simp [fedAll]
      rw [hNone]
      constructor
      · intro h
        exact ⟨by simp [InSequence], Or.inl rfl, (Except.ok.inj h).symm⟩
      · rintro ⟨-, -, rfl⟩
        rfl
  | cons c rest ih =>
      have hAll : (a.fed c.data).fedAll rest = a.fedAll (c :: rest) := by
        simp [fed, fedAll, Nat.add_assoc, Nat.add_comm 1]
      rw [feedAll_cons, inSequence_cons]
      constructor
      · rintro ⟨b, hFirst, hRest⟩
        obtain ⟨hId, hSequence, hDigest, hLimit, rfl⟩ := feed_eq_ok_iff.mp hFirst
        obtain ⟨hNext, hWithin, rfl⟩ := ih.mp hRest
        refine ⟨⟨⟨hId, hSequence, hDigest⟩, hNext⟩, Or.inr ?_, hAll⟩
        rw [← hAll]
        rcases hWithin with rfl | hWithin
        · simpa [fed, fedAll] using hLimit
        · exact hWithin
      · rintro ⟨⟨⟨hId, hSequence, hDigest⟩, hNext⟩, hWithin, rfl⟩
        replace hWithin := hWithin.resolve_left (List.cons_ne_nil _ _)
        have hLimit : ((a.receivedBytes + c.data.length : ℕ) : ℤ) ≤ a.limit := by
          refine le_trans ?_ hWithin
          simp only [fedAll, List.map_cons, List.flatten_cons, List.length_append]
          omega
        refine ⟨a.fed c.data, feed_eq_ok_iff.mpr ⟨hId, hSequence, hDigest, hLimit, rfl⟩,
          ih.mpr ⟨hNext, Or.inr ?_, hAll.symm⟩⟩
        rw [hAll]
        exact hWithin

/-- The chunks are those the manifest declares. -/
structure Declares (sha : Sha256) (manifest : ShardManifest) (chunks : List ShardChunk) :
    Prop where
  inSequence : InSequence sha manifest.shardId 0 chunks
  count : (chunks.length : ℤ) = manifest.totalChunks
  length : ((chunks.map (·.data)).flatten.length : ℤ) = manifest.payloadBytes
  digest : sha.hexdigest (chunks.map (·.data)).flatten = manifest.payloadSha256

theorem reassemble_eq_ok_iff {payload : Bytes} :
    reassemble sha cap manifest chunks = .ok payload ↔
      manifest.payloadBytes ≤ cap ∧ Declares sha manifest chunks ∧
        payload = (chunks.map (·.data)).flatten := by
  simp only [reassemble, bind_eq_ok_iff]
  constructor
  · rintro ⟨a, hOpened, b, hFed, hFinal⟩
    obtain ⟨hCap, rfl⟩ := opened_eq_ok_iff.mp hOpened
    obtain ⟨hSequence, -, rfl⟩ := feedAll_eq_ok_iff.mp hFed
    obtain ⟨hCount, hLength, hDigest, hPayload⟩ := finalize_eq_ok_iff.mp hFinal
    simp only [fedAll, List.nil_append, Nat.zero_add] at hCount hLength hDigest hPayload
    exact ⟨hCap, ⟨hSequence, hCount, hLength, hDigest⟩, hPayload⟩
  · rintro ⟨hCap, hDeclared, rfl⟩
    refine ⟨_, opened_eq_ok_iff.mpr ⟨hCap, rfl⟩, _,
      feedAll_eq_ok_iff.mpr ⟨hDeclared.inSequence, Or.inr ?_, rfl⟩,
      finalize_eq_ok_iff.mpr ?_⟩
    · have hLength := hDeclared.length
      simp only [fedAll, limit, Nat.zero_add]
      omega
    · simp only [fedAll, List.nil_append, Nat.zero_add]
      exact ⟨hDeclared.count, hDeclared.length, hDeclared.digest, trivial⟩

end ShardAssembler

/-! ## Chunks that are put together again -/

section RoundTrip

variable {sha : Sha256} {chunkBytes : ℕ} {shardId : String} {payload : Bytes}

theorem flatten_chunkData (chunkBytes : ℕ) (payload : Bytes) (n : ℕ) :
    ((List.range n).map (chunkData chunkBytes payload)).flatten =
      payload.take (n * chunkBytes) := by
  induction n with
  | zero => simp
  | succ n ih =>
      rw [List.range_succ, List.map_append, List.flatten_append, ih, Nat.succ_mul,
        List.take_add]
      simp [chunkData]

theorem length_le_totalChunks (hPos : 0 < chunkBytes) (payloadBytes : ℕ) :
    payloadBytes ≤ totalChunks chunkBytes payloadBytes * chunkBytes := by
  unfold totalChunks
  split
  · omega
  · have hDiv := Nat.lt_div_mul_add (a := payloadBytes + chunkBytes - 1) hPos
    omega

theorem map_data_chunkOf (sha : Sha256) (n : ℕ) :
    ((List.range n).map (chunkOf sha chunkBytes shardId payload)).map (·.data) =
      (List.range n).map (chunkData chunkBytes payload) := by
  rw [List.map_map]
  rfl

theorem declares_chunk {chunkBytes : ℤ} {manifest : ShardManifest} {chunks : List ShardChunk}
    (h : chunk sha chunkBytes shardId payload = some (manifest, chunks)) :
    ShardAssembler.Declares sha manifest chunks ∧ manifest.payloadBytes = payload.length ∧
      (chunks.map (·.data)).flatten = payload := by
  unfold chunk at h
  split at h
  case isTrue => cases h
  case isFalse hPos =>
    obtain ⟨rfl, rfl⟩ := Prod.mk.inj (Option.some.inj h)
    have hPayload : (((List.range (totalChunks chunkBytes.toNat payload.length)).map
        (chunkOf sha chunkBytes.toNat shardId payload)).map (·.data)).flatten = payload := by
      rw [map_data_chunkOf, flatten_chunkData]
      exact List.take_of_length_le (length_le_totalChunks (by omega) payload.length)
    refine ⟨⟨?_, by simp, by rw [hPayload], by rw [hPayload]⟩, rfl, hPayload⟩
    intro i c hc
    rw [List.getElem?_map, Option.map_eq_some_iff] at hc
    obtain ⟨j, hj, rfl⟩ := hc
    obtain ⟨-, rfl⟩ := List.getElem?_eq_some_iff.mp hj
    simp [chunkOf]

end RoundTrip

end Prsm.ChainRpc
