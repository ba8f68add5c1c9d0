import Prsm.Foundations.HashLevels
import Prsm.Settlement.AddressText

/-!
# SHA-256

Nothing is assumed of the hash function but the length of its digests.  Results that need
it ask that no two of the strings hashed have one digest.
-/

namespace Prsm.Storage

open Foundations
open Evm (Bytes)
open Settlement (utf8 hex fromhex_hex length_hexChars)

/-- A hash function with digests of 32 bytes: `hashlib.sha256(…).digest()`. -/
structure Sha256 where
  digest : Bytes → Bytes
  length_digest : ∀ data, (digest data).length = 32

/-- `hashlib.sha256(…).hexdigest()`. -/
def Sha256.hexdigest (sha : Sha256) (data : Bytes) : String :=
  hex (sha.digest data)

theorem length_hexdigest (sha : Sha256) (data : Bytes) : (sha.hexdigest data).length = 64 := by
  rw [Sha256.hexdigest, hex, String.length_ofList, length_hexChars, sha.length_digest]

theorem hex_injective : Function.Injective hex := by
  intro a b h
  have hRead := congrArg Settlement.fromhex h
  simpa [fromhex_hex] using hRead

theorem injOn_hexdigest {sha : Sha256} {hashed : Set Bytes}
    (h : Set.InjOn sha.digest hashed) : Set.InjOn sha.hexdigest hashed :=
  fun _ ha _ hb hSame => h ha hb (hex_injective hSame)

theorem framing_bytes (sha : Sha256) :
    Framing sha.digest (fun a b => a ++ b) (fun d => d.length = 32) where
  digest := sha.length_digest
  left := fun ha hb h => List.append_inj h (by rw [ha, hb])
  right := fun ha hb h => (List.append_inj' h (by rw [ha, hb])).symm

theorem framing_text (sha : Sha256) :
    Framing sha.hexdigest (fun a b => utf8 (a ++ b)) (fun d => d.length = 64) where
  digest := length_hexdigest sha
  left := by
    intro a b s t ha hb h
    have hLists := congrArg String.toList (Settlement.utf8_injective h)
    rw [String.toList_append, String.toList_append] at hLists
    obtain ⟨hFront, hBack⟩ := List.append_inj hLists
      (by rw [String.length_toList, String.length_toList, ha, hb])
    exact ⟨String.toList_inj.mp hFront, String.toList_inj.mp hBack⟩
  right := by
    intro a b s t ha hb h
    have hLists := congrArg String.toList (Settlement.utf8_injective h)
    rw [String.toList_append, String.toList_append] at hLists
    obtain ⟨hFront, hBack⟩ := List.append_inj' hLists
      (by rw [String.length_toList, String.length_toList, ha, hb])
    exact ⟨String.toList_inj.mp hBack, String.toList_inj.mp hFront⟩

/-! ## Hash functions given by a table -/

/-- The 32 bytes of a number. -/
def digestBytes (n : ℕ) : Bytes :=
  (List.range 32).map fun i => Fin.ofNat _ (n / 256 ^ (31 - i))

/-- The hash function with the digests of a table. -/
def Sha256.ofTable (table : List (Bytes × ℕ)) : Sha256 where
  digest := fun data => digestBytes ((table.lookup data).getD 0)
  length_digest := by simp [digestBytes]

end Prsm.Storage
