import Mathlib
import Prsm.Evm.Abi
import Prsm.Settlement.Receipt

/-!
# Hexadecimal text and addresses

The settlement code takes addresses as text and normalises them with
`to_checksum_address`.  That function is outside the repository; an
`AddressCodec` says which address a text denotes and how an address is written
in checksummed form, with the law that the checksummed form of an address
denotes that address.
-/

namespace Prsm.Settlement

open Evm

/-! ## Hexadecimal digits -/

def hexDigit (n : Nat) : Char :=
  if n < 10 then Char.ofNat (48 + n) else Char.ofNat (87 + n)

/-- Two lower-case digits for each byte. -/
def hexChars (bytes : Bytes) : List Char :=
  bytes.flatMap fun byte => [hexDigit (byte.val / 16), hexDigit (byte.val % 16)]

def hex (bytes : Bytes) : String := String.ofList (hexChars bytes)

theorem hexDigit_spec : ∀ n < 16,
    hexValue (hexDigit n) = some n ∧ isAsciiSpace (hexDigit n) = false := by
  decide

theorem fromhexChars_hexChars (bytes : Bytes) : fromhexChars (hexChars bytes) = some bytes := by
  induction bytes with
  | nil => rfl
  | cons byte rest ih =>
      have hByte : byte.val < 256 := byte.isLt
      obtain ⟨hHigh, hNoSpace⟩ := hexDigit_spec (byte.val / 16) (by omega)
      obtain ⟨hLow, -⟩ := hexDigit_spec (byte.val % 16) (by omega)
      have hWhole : Fin.ofNat (2 ^ 8) (byte.val / 16 * 16 + byte.val % 16) = byte := by
        refine Fin.ext ?_
        show (byte.val / 16 * 16 + byte.val % 16) % 256 = byte.val
        omega
      show fromhexChars (_ :: _ :: hexChars rest) = _
      rw [fromhexChars, hNoSpace, hHigh, hLow, ih]
      exact congrArg (fun b => some (b :: rest)) hWhole

theorem isHexChar_of_mem_hexChars {bytes : Bytes} {c : Char} (h : c ∈ hexChars bytes) :
    (c.isDigit || c.isLower) = true := by
  have hDigit : ∀ n < 16, ((hexDigit n).isDigit || (hexDigit n).isLower) = true := by decide
  obtain ⟨byte, -, hPair⟩ := List.mem_flatMap.mp h
  have hByte := byte.isLt
  simp only [List.mem_cons, List.not_mem_nil, or_false] at hPair
  rcases hPair with rfl | rfl
  · exact hDigit _ (by omega)
  · exact hDigit _ (by omega)

theorem length_hexChars (bytes : Bytes) : (hexChars bytes).length = 2 * bytes.length := by
  induction bytes with
  | nil => rfl
  | cons byte rest ih =>
      show (hexChars rest).length + 1 + 1 = 2 * (rest.length + 1)
      omega

theorem fromhex_hex (bytes : Bytes) : fromhex (hex bytes) = some bytes := by
  rw [fromhex, hex, String.toList_ofList, fromhexChars_hexChars]

/-! ## Addresses as text -/

/-- `to_checksum_address`, split into reading and writing. -/
structure AddressCodec where
  /-- The address that a text denotes, `none` where the function raises. -/
  parse : String → Option Address
  /-- The checksummed form. -/
  checksum : Address → String
  /-- The checksummed form of an address denotes it. -/
  parse_checksum : ∀ address, parse (checksum address) = some address

def AddressCodec.toChecksumAddress (codec : AddressCodec) (text : String) : Option String :=
  (codec.parse text).map codec.checksum

theorem AddressCodec.checksum_injective (codec : AddressCodec) :
    Function.Injective codec.checksum := fun a b h => by
  have hParsed := congrArg codec.parse h
  rw [codec.parse_checksum, codec.parse_checksum] at hParsed
  exact Option.some.inj hParsed

def addressBytes (address : Address) : Bytes :=
  (List.range 20).map fun i => Fin.ofNat _ (address.val / 256 ^ (20 - 1 - i))

def hexAddress (address : Address) : String :=
  String.ofList ('0' :: 'x' :: hexChars (addressBytes address))

def parseHexAddress (text : String) : Option Address :=
  match text.toList with
  | '0' :: 'x' :: digits =>
      (fromhexChars digits).bind fun bytes =>
        if bytes.length = 20 then some (Fin.ofNat _ (bigEndian bytes)) else none
  | _ => none

theorem parseHexAddress_hexAddress (address : Address) :
    parseHexAddress (hexAddress address) = some address := by
  have hWidth : (256 : Nat) ^ 20 = 2 ^ 160 := by norm_num
  have hDigits : bigEndian (addressBytes address) = address.val := by
    have hMod := bigEndian_digits 20 address.val
    rw [hWidth, Nat.mod_eq_of_lt address.isLt] at hMod
    exact hMod
  have hLength : (addressBytes address).length = 20 := by simp [addressBytes]
  rw [parseHexAddress, hexAddress, String.toList_ofList]
  show (fromhexChars (hexChars (addressBytes address))).bind _ = _
  rw [fromhexChars_hexChars, Option.bind_some, if_pos hLength, hDigits]
  exact congrArg some (Fin.ext (Nat.mod_eq_of_lt address.isLt))

/-- Addresses in lower-case digits.  It agrees with the checksummed form on
addresses without letters. -/
def hexCodec : AddressCodec where
  parse := parseHexAddress
  checksum := hexAddress
  parse_checksum := parseHexAddress_hexAddress

/-! ## Case -/

/-- `to_checksum_address` beside `is_address` and `str.lower`. -/
structure AddressLibrary extends AddressCodec where
  isAddress : String → Bool
  lower : String → String
  /-- What passes for an address can be written in checksummed form. -/
  parse_of_isAddress : ∀ text, isAddress text = true → (parse text).isSome
  /-- An address in lower case denotes the address. -/
  parse_lower : ∀ address, parse (lower (checksum address)) = some address

/-- `addr.lower()` of a checksummed address. -/
def AddressLibrary.lowerChecksum (lib : AddressLibrary) (address : Address) : String :=
  lib.lower (lib.checksum address)

theorem AddressLibrary.lowerChecksum_injective (lib : AddressLibrary) :
    Function.Injective lib.lowerChecksum := fun a b h => by
  have hParsed := congrArg lib.parse h
  rw [AddressLibrary.lowerChecksum, AddressLibrary.lowerChecksum, lib.parse_lower,
    lib.parse_lower] at hParsed
  exact Option.some.inj hParsed

def asciiLower (s : String) : String := String.ofList (s.toList.map Char.toLower)

theorem toLower_toLower (c : Char) : c.toLower.toLower = c.toLower := by
  by_cases hUpper : c.val ≥ 'A'.val ∧ c.val ≤ 'Z'.val
  · have hVal : c.toLower.val = c.val + 32 := by
      rw [Char.toLower, dif_pos hUpper]
      rfl
    have hNotUpper : ¬ (c.toLower.val ≥ 'A'.val ∧ c.toLower.val ≤ 'Z'.val) := by
      rw [hVal]
      rintro ⟨-, hAgain⟩
      have hLow : 65 ≤ c.val.toNat := UInt32.le_iff_toNat_le.mp hUpper.1
      have hHigh : c.val.toNat ≤ 90 := UInt32.le_iff_toNat_le.mp hUpper.2
      have hSum : (c.val + 32).toNat ≤ 90 := UInt32.le_iff_toNat_le.mp hAgain
      rw [UInt32.toNat_add] at hSum
      change (c.val.toNat + 32) % 2 ^ 32 ≤ 90 at hSum
      omega
    rw [Char.toLower, dif_neg hNotUpper]
  · have hSame : c.toLower = c := by rw [Char.toLower, dif_neg hUpper]
    rw [hSame, hSame]

theorem asciiLower_asciiLower (s : String) : asciiLower (asciiLower s) = asciiLower s := by
  rw [asciiLower, asciiLower, String.toList_ofList, List.map_map]
  exact congrArg String.ofList (List.map_congr_left fun c _ => toLower_toLower c)

theorem asciiLower_eq_toLower (s : String) : asciiLower s = s.toLower := by
  rw [asciiLower, String.toLower, ← String.toList_inj, String.toList_map, String.toList_ofList]

theorem toLower_hexAddress (address : Address) :
    (hexAddress address).toLower = hexAddress address := by
  have hDigit : ∀ n < 16, (hexDigit n).toLower = hexDigit n := by decide
  have hChars : ∀ c ∈ hexChars (addressBytes address), c.toLower = c := by
    intro c hc
    obtain ⟨byte, -, hc⟩ := List.mem_flatMap.mp hc
    have hByte : byte.val < 256 := byte.isLt
    rcases List.mem_pair.mp hc with rfl | rfl
    · exact hDigit _ (by omega)
    · exact hDigit _ (by omega)
  rw [String.toLower, ← String.toList_inj, String.toList_map, hexAddress, String.toList_ofList]
  show Char.toLower '0' :: Char.toLower 'x' :: (hexChars (addressBytes address)).map Char.toLower = _
  rw [List.map_congr_left hChars, List.map_id']
  rfl

theorem hexCodec_parse_toLower (address : Address) :
    hexCodec.parse (hexCodec.checksum address).toLower = some address := by
  show hexCodec.parse (hexAddress address).toLower = some address
  rw [toLower_hexAddress]
  exact hexCodec.parse_checksum address

theorem hexCodec_parse_of_isSome (text : String) (h : (hexCodec.parse text).isSome = true) :
    (hexCodec.parse text).isSome :=
  h

def hexLibrary : AddressLibrary where
  toAddressCodec := hexCodec
  isAddress := fun text => (hexCodec.parse text).isSome
  lower := String.toLower
  parse_of_isAddress := hexCodec_parse_of_isSome
  parse_lower := hexCodec_parse_toLower

theorem hexCodec_parse_asciiLower (address : Address) :
    hexCodec.parse (asciiLower (hexCodec.checksum address)) = some address := by
  rw [asciiLower_eq_toLower]
  exact hexCodec_parse_toLower address

def asciiLibrary : AddressLibrary where
  toAddressCodec := hexCodec
  isAddress := fun text => (hexCodec.parse text).isSome
  lower := asciiLower
  parse_of_isAddress := hexCodec_parse_of_isSome
  parse_lower := hexCodec_parse_asciiLower

end Prsm.Settlement
