import Prsm.Evm.Platform

/-!
# A word and an array of words in the contract ABI

`abi.encode(bytes32, bytes32[])` puts the array behind the head and its offset
into the head.  The decoder follows the offset it finds, so what it accepts is
more than what the encoder writes; on what the encoder writes it is the inverse.
-/

namespace Prsm.Evm

/-- The number that big-endian bytes show. -/
def bigEndian (bytes : Bytes) : Nat :=
  bytes.foldl (fun acc byte => acc * 256 + byte.val) 0

/-- The word at a byte offset. -/
def wordAt (data : Bytes) (offset : Nat) : Option Bytes32 :=
  if offset + 32 ≤ data.length then
    some (Fin.ofNat _ (bigEndian ((data.drop offset).take 32)))
  else none

/-- Consecutive words from a byte offset on. -/
def wordsAt (data : Bytes) : Nat → Nat → Option (List Bytes32)
  | _, 0 => some []
  | offset, count + 1 => do
      let x ← wordAt data offset
      let xs ← wordsAt data (offset + 32) count
      some (x :: xs)

/-- `abi.encode` of a `bytes32` and a `bytes32[]`. -/
def encodeWordAndArray (x : Bytes32) (xs : List Bytes32) : Bytes :=
  abiEncode (x.val :: 64 :: xs.length :: xs.map Fin.val)

/-- `abi.decode` to a `bytes32` and a `bytes32[]`.  Offsets and lengths from
`2 ^ 64` on are rejected, and so is an array that does not fit the data. -/
def decodeWordAndArray (data : Bytes) : Option (Bytes32 × List Bytes32) := do
  let x ← wordAt data 0
  let offset ← wordAt data 32
  guard (offset.val < 2 ^ 64)
  let length ← wordAt data offset.val
  guard (length.val < 2 ^ 64)
  guard (offset.val + 32 + 32 * length.val ≤ data.length)
  let xs ← wordsAt data (offset.val + 32) length.val
  some (x, xs)

/-! ## Words in an encoding -/

theorem bigEndian_append (bytes : Bytes) (byte : Uint 8) :
    bigEndian (bytes ++ [byte]) = bigEndian bytes * 256 + byte.val := by
  rw [bigEndian, List.foldl_append]
  rfl

theorem bigEndian_digits (n x : Nat) :
    bigEndian ((List.range n).map fun i => Fin.ofNat (2 ^ 8) (x / 256 ^ (n - 1 - i)))
      = x % 256 ^ n := by
  induction n generalizing x with
  | zero => simp [bigEndian, Nat.mod_one]
  | succ n ih =>
      have hFront : (List.range n).map (fun i => Fin.ofNat (2 ^ 8) (x / 256 ^ (n + 1 - 1 - i)))
          = (List.range n).map fun i => Fin.ofNat (2 ^ 8) (x / 256 / 256 ^ (n - 1 - i)) := by
        refine List.map_congr_left fun i hi => ?_
        have hi : i < n := List.mem_range.mp hi
        rw [Nat.div_div_eq_div_mul, ← Nat.pow_succ', Nat.succ_eq_add_one,
          show n - 1 - i + 1 = n + 1 - 1 - i by omega]
      rw [List.range_succ, List.map_append, List.map_singleton, bigEndian_append, hFront, ih,
        show n + 1 - 1 - n = 0 by omega, Nat.pow_zero, Nat.div_one]
      show x / 256 % 256 ^ n * 256 + x % 256 = _
      rw [Nat.pow_succ', Nat.mod_mul]
      omega

theorem bigEndian_abiWord {x : Nat} (hx : x < 2 ^ 256) : bigEndian (abiWord x) = x := by
  have hWidth : (256 : Nat) ^ 32 = 2 ^ 256 := by norm_num
  have hDigits := bigEndian_digits 32 x
  rw [hWidth, Nat.mod_eq_of_lt hx] at hDigits
  exact hDigits

@[simp] theorem length_abiEncode (components : List Nat) :
    (abiEncode components).length = 32 * components.length := by
  induction components with
  | nil => rfl
  | cons x rest ih =>
      rw [abiEncode, List.flatMap_cons, List.length_append, length_abiWord]
      rw [abiEncode] at ih
      rw [ih, List.length_cons]
      omega

theorem drop_abiEncode (before after : List Nat) :
    (abiEncode (before ++ after)).drop (32 * before.length) = abiEncode after := by
  have hSplit : abiEncode (before ++ after) = abiEncode before ++ abiEncode after :=
    List.flatMap_append
  rw [← length_abiEncode before, hSplit, List.drop_left]

theorem wordAt_abiEncode (before after : List Nat) (x : Bytes32) :
    wordAt (abiEncode (before ++ x.val :: after)) (32 * before.length) = some x := by
  have hLength := length_abiEncode (before ++ x.val :: after)
  rw [List.length_append, List.length_cons] at hLength
  rw [wordAt, if_pos (by omega), drop_abiEncode, abiEncode, List.flatMap_cons,
    List.take_left' (length_abiWord _), bigEndian_abiWord x.isLt]
  exact congrArg some (Fin.ext (Nat.mod_eq_of_lt x.isLt))

theorem wordsAt_abiEncode (before : List Nat) (xs : List Bytes32) :
    wordsAt (abiEncode (before ++ xs.map Fin.val)) (32 * before.length) xs.length = some xs := by
  induction xs generalizing before with
  | nil => rfl
  | cons x xs ih =>
      have hRest := ih (before ++ [x.val])
      rw [List.append_assoc, List.length_append, List.length_singleton, Nat.mul_add] at hRest
      rw [List.length_cons, wordsAt, List.map_cons, wordAt_abiEncode]
      exact Option.bind_eq_some_iff.mpr ⟨x, rfl, Option.bind_eq_some_iff.mpr ⟨xs, hRest, rfl⟩⟩

theorem decode_encodeWordAndArray (x : Bytes32) {xs : List Bytes32} (hLength : xs.length < 2 ^ 64) :
    decodeWordAndArray (encodeWordAndArray x xs) = some (x, xs) := by
  have hWidth : (2 : Nat) ^ 64 < 2 ^ 256 := Nat.pow_lt_pow_right (by decide) (by decide)
  have hSize : (encodeWordAndArray x xs).length = 96 + 32 * xs.length := by
    rw [encodeWordAndArray, length_abiEncode]
    simp
    omega
  have hOffset : wordAt (encodeWordAndArray x xs) 32 = some ⟨64, by norm_num⟩ :=
    wordAt_abiEncode [x.val] (xs.length :: xs.map Fin.val) ⟨64, by norm_num⟩
  have hCount : wordAt (encodeWordAndArray x xs) 64 = some ⟨xs.length, by omega⟩ :=
    wordAt_abiEncode [x.val, 64] (xs.map Fin.val) ⟨xs.length, by omega⟩
  have hWords : wordsAt (encodeWordAndArray x xs) 96 xs.length = some xs :=
    wordsAt_abiEncode [x.val, 64, xs.length] xs
  have hHead : wordAt (encodeWordAndArray x xs) 0 = some x := wordAt_abiEncode [] _ x
  rw [decodeWordAndArray, hHead, hOffset]
  simp only [Option.bind_eq_bind, Option.bind_some, hCount, hWords, hSize, guard, hLength]
  simp

end Prsm.Evm
