import Prsm.Settlement.AddressText

/-!
# Fields of a signed payload

A payload is a JSON object.  A field that should hold 32 bytes is normalised by
`_to_bytes32`, an integer field by `int`, and the typed-data encoder reads the
normalised values.  Several spellings of a field therefore give one signed
message.

A payload record here holds an integer field as what `int` makes of it, with
`none` where the field is absent or `int` raises, and a string field as a
string, with `none` where it is absent or not a string.
-/

namespace Prsm.PaymentAuth

open Evm Settlement

/-- A field that should hold bytes. -/
inductive HexField
  | bytes (raw : Bytes)
  | text (s : String)
  /-- Another type, or no such field. -/
  | other
  deriving DecidableEq

/-- `value[2:] if value.startswith("0x") else value`. -/
def drop0x : List Char → List Char
  | '0' :: 'x' :: rest => rest
  | chars => chars

/-- The bytes of a field with the given width. -/
def HexField.read (width : Nat) (normalize : List Char → List Char) : HexField → Option Bytes
  | .bytes raw => if raw.length = width then some raw else none
  | .text s =>
      (fromhexChars (normalize s.toList)).bind fun raw =>
        if raw.length = width then some raw else none
  | .other => none

/-- `_to_bytes32`, with `none` where it raises. -/
def toBytes32 : HexField → Option Bytes := HexField.read 32 drop0x

/-! ## Surrounding space -/

def isSpace (c : Char) : Bool :=
  c.toNat ∈ [0x20, 0x85, 0xa0, 0x1680, 0x2028, 0x2029, 0x202f, 0x205f, 0x3000] ∨
    (0x09 ≤ c.toNat ∧ c.toNat ≤ 0x0d) ∨ (0x1c ≤ c.toNat ∧ c.toNat ≤ 0x1f) ∨
    (0x2000 ≤ c.toNat ∧ c.toNat ≤ 0x200a)

def strip (chars : List Char) : List Char :=
  ((chars.dropWhile isSpace).reverse.dropWhile isSpace).reverse

/-- The 65 bytes of a signature.  `none` is `InvalidSignatureFormat`. -/
def signatureBytes : HexField → Option Bytes :=
  HexField.read 65 fun chars => drop0x (strip chars)

/-! ## The signing library -/

/-- The typed-data encoder and `Account.recover_message`, for one type of
message.  The signature binds the message, so recovery reads nothing else. -/
structure SigningLibrary (Message : Type) where
  /-- The address that the encoder reads in an address field. -/
  encodeAddress : String → Option Address
  /-- The signer, from the chain id, the message and the signature. -/
  recover : Int → Message → Bytes → Option String

/-- The ways in which signature recovery raises. -/
inductive RecoverError
  | invalidSignatureFormat
  | invalidPayload

/-- The common body of the functions that recover a signer: the signature is
parsed first, then the message is built. -/
def recoverSigner {Message : Type} (signing : SigningLibrary Message) (chainId : Int)
    (message : Option Message) (signature : HexField) : Except RecoverError String :=
  match signatureBytes signature with
  | none => .error .invalidSignatureFormat
  | some sigBytes =>
      match message.bind fun message => signing.recover chainId message sigBytes with
      | none => .error .invalidPayload
      | some signer => .ok signer

theorem recoverSigner_eq_ok {Message : Type} {signing : SigningLibrary Message} {chainId : Int}
    {message : Option Message} {signature : HexField} {signer : String}
    (h : recoverSigner signing chainId message signature = .ok signer) :
    ∃ sigBytes m, signatureBytes signature = some sigBytes ∧ message = some m ∧
      signing.recover chainId m sigBytes = some signer := by
  rw [recoverSigner] at h
  split at h
  · cases h
  case h_2 sigBytes hBytes =>
    split at h
    · cases h
    case h_2 found hFound =>
      obtain ⟨m, hMessage, hRecover⟩ := Option.bind_eq_some_iff.mp hFound
      cases h
      exact ⟨sigBytes, m, hBytes, hMessage, hRecover⟩

end Prsm.PaymentAuth
