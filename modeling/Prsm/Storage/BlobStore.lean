import Prsm.Foundations.Dict
import Prsm.Storage.Sha256

/-!
# Content hashes and `BlobStore`

A blob store is a directory of files, each named by the content hash of what was stored.
`store` writes nothing where the file is there already.
-/

namespace Prsm.Storage

open Foundations
open Evm (Bytes)

inductive AlgorithmID
  | sha256
  | sha3_256
  | blake3
  deriving DecidableEq

structure ContentHash where
  algorithmId : AlgorithmID
  digest : Bytes
  deriving DecidableEq

/-- The text that starts with the byte of the algorithm. -/
def ContentHash.hex (hash : ContentHash) : String :=
  (match hash.algorithmId with
    | .sha256 => "01"
    | .sha3_256 => "02"
    | .blake3 => "03") ++ Settlement.hex hash.digest

theorem ContentHash.hex_injective : Function.Injective ContentHash.hex := by
  rintro ⟨a, digest⟩ ⟨b, digest'⟩ h
  have hLists := congrArg String.toList h
  simp only [ContentHash.hex, String.toList_append] at hLists
  obtain ⟨hAlgorithm, hDigest⟩ := List.append_inj hLists (by cases a <;> cases b <;> rfl)
  rw [Storage.hex_injective (String.toList_inj.mp hDigest)]
  cases a <;> cases b <;> first | rfl | exact absurd hAlgorithm (by decide)

structure Hashes where
  sha256 : Sha256
  sha3_256 : Bytes → Bytes

/-- `ContentHash.from_data(data, AlgorithmID.SHA256)`. -/
def Hashes.of (hashes : Hashes) (data : Bytes) : ContentHash :=
  ⟨.sha256, hashes.sha256.digest data⟩

/-- `ContentHash.from_data`, which raises for an algorithm that is not supported. -/
def fromData (hashes : Hashes) (data : Bytes) : AlgorithmID → Option ContentHash
  | .sha256 => some (hashes.of data)
  | .sha3_256 => some ⟨.sha3_256, hashes.sha3_256 data⟩
  | .blake3 => none

/-- The files, by the content hashes that name them. -/
@[reducible] def Files : Type := Dict ContentHash Bytes

section Store

variable (hashes : Hashes)

/-- `store`: the hash is `hashes.of data`. -/
def storeBlob (files : Files) (data : Bytes) : Files :=
  match files.get? (hashes.of data) with
  | some _ => files
  | none => files.set (hashes.of data) data

def storeAll (files : Files) (blobs : List Bytes) : Files :=
  blobs.foldl (storeBlob hashes) files

/-- Every file holds what its name is the hash of. -/
def Intact (files : Files) : Prop :=
  ∀ hash data, files.get? hash = some data → hash = hashes.of data

end Store

section Lemmas

variable {hashes : Hashes} {files : Files} {data : Bytes} {hash : ContentHash}
  {hashed : Set Bytes}

theorem get?_storeBlob :
    (storeBlob hashes files data).get? hash =
      if hash = hashes.of data then some ((files.get? (hashes.of data)).getD data)
      else files.get? hash := by
  unfold storeBlob
  by_cases hSame : hash = hashes.of data
  · subst hSame
    cases hFile : files.get? (hashes.of data) <;> simp [hFile]
  · rw [if_neg hSame]
    cases files.get? (hashes.of data) with
    | none => exact (Dict.get?_set files (hashes.of data) hash data).trans (if_neg hSame)
    | some old => rfl

theorem Intact.storeBlob (h : Intact hashes files) (data : Bytes) :
    Intact hashes (storeBlob hashes files data) := by
  intro hash found hFound
  rw [get?_storeBlob] at hFound
  split at hFound
  · next hSame =>
    cases hFile : files.get? (hashes.of data) with
    | none =>
        rw [hFile] at hFound
        rw [hSame, ← Option.some.inj hFound]
        rfl
    | some old =>
        rw [hFile] at hFound
        obtain rfl : old = found := Option.some.inj hFound
        rw [hSame]
        exact h _ _ hFile
  · exact h _ _ hFound

theorem get?_storeAll_of_some {blobs : List Bytes} (h : files.get? hash = some data) :
    (storeAll hashes files blobs).get? hash = some data := by
  induction blobs generalizing files with
  | nil => exact h
  | cons blob rest ih =>
      apply ih
      rw [get?_storeBlob]
      split
      · next hSame => rw [← hSame, h, Option.getD_some]
      · exact h

theorem isSome_storeAll_of_mem {blobs : List Bytes} (h : data ∈ blobs) :
    ((storeAll hashes files blobs).get? (hashes.of data)).isSome := by
  induction blobs generalizing files with
  | nil => cases h
  | cons blob rest ih =>
      rcases List.mem_cons.mp h with rfl | hRest
      · have hFound : (storeBlob hashes files data).get? (hashes.of data) =
            some ((files.get? (hashes.of data)).getD data) := by
          rw [get?_storeBlob, if_pos rfl]
        have hKept : (storeAll hashes (storeBlob hashes files data) rest).get?
            (hashes.of data) = some ((files.get? (hashes.of data)).getD data) :=
          get?_storeAll_of_some hFound
        exact Option.isSome_iff_exists.mpr ⟨_, hKept⟩
      · exact ih hRest

/-- Intact files that hold hashed strings. -/
structure Sound (hashes : Hashes) (hashed : Set Bytes) (files : Files) : Prop where
  intact : Intact hashes files
  mem : ∀ hash data, files.get? hash = some data → data ∈ hashed

theorem Sound.storeBlob (h : Sound hashes hashed files) (hData : data ∈ hashed) :
    Sound hashes hashed (storeBlob hashes files data) where
  intact := h.intact.storeBlob data
  mem := by
    intro hash found hFound
    rw [get?_storeBlob] at hFound
    split at hFound
    · cases hFile : files.get? (hashes.of data) with
      | none =>
          rw [hFile] at hFound
          exact Option.some.inj hFound ▸ hData
      | some old =>
          rw [hFile] at hFound
          exact Option.some.inj hFound ▸ h.mem _ _ hFile
    · exact h.mem _ _ hFound

theorem Sound.storeAll (h : Sound hashes hashed files) {blobs : List Bytes}
    (hBlobs : ∀ b ∈ blobs, b ∈ hashed) : Sound hashes hashed (storeAll hashes files blobs) := by
  induction blobs generalizing files with
  | nil => exact h
  | cons b rest ih =>
      exact ih (h.storeBlob (hBlobs b List.mem_cons_self))
        fun c hc => hBlobs c (List.mem_cons_of_mem _ hc)

theorem Sound.get?_eq (h : Sound hashes hashed files)
    (hInj : Set.InjOn hashes.sha256.digest hashed) (hData : data ∈ hashed)
    (hSome : (files.get? (hashes.of data)).isSome) :
    files.get? (hashes.of data) = some data := by
  obtain ⟨found, hFound⟩ := Option.isSome_iff_exists.mp hSome
  have hSame := congrArg ContentHash.digest (h.intact _ _ hFound)
  rw [hFound, hInj hData (h.mem _ _ hFound) hSame]

end Lemmas

end Prsm.Storage
