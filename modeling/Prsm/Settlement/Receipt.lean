import Prsm.Registry.State

/-!
# Receipts off chain and their canonical leaf

A provider's signed receipt is a record of strings and integers.
`batchedReceiptToLeaf` turns it into the leaf that the Merkle tree commits and
the registry compares, or fails where the source raises: on an output hash that
is not 32 bytes of hexadecimal, on malformed base64, and on an integer that does
not fit its field.

The 32-byte strings of a leaf are `Bytes32`, read as big-endian numbers, so that byte order is the
order of numbers.
-/

namespace Prsm.Settlement

open Evm

structure ShardExecutionReceipt where
  jobId : String
  shardIndex : Int
  providerId : String
  providerPubkeyB64 : String
  outputHash : String
  executedAtUnix : Int
  signature : String
  /-- The attestation object in serialised form.  Nothing here reads it. -/
  teeAttestation : Option String
  deriving DecidableEq

structure BatchedReceipt where
  receipt : ShardExecutionReceipt
  requesterAddress : String
  providerAddress : String
  valueFtns : Int
  localEscrowId : String
  tierSlashRateBps : Int
  consensusGroupId : Bytes32
  deriving DecidableEq

/-! ## Decoders of the standard library -/

/-- `str.encode("utf-8")`. -/
def utf8 (s : String) : Bytes :=
  s.toUTF8.data.toList.map fun byte => Fin.ofNat _ byte.toNat

theorem utf8_injective : Function.Injective utf8 := by
  intro s t h
  have hByte : Function.Injective fun byte : UInt8 => (Fin.ofNat 256 byte.toNat : Fin 256) := by
    intro b b' hSame
    have hVal := congrArg Fin.val hSame
    simp only [Fin.val_ofNat] at hVal
    rw [Nat.mod_eq_of_lt b.toNat_lt, Nat.mod_eq_of_lt b'.toNat_lt] at hVal
    exact UInt8.toNat_inj.mp hVal
  have hList := List.map_injective_iff.mpr hByte h
  exact String.toByteArray_inj.mp (ByteArray.ext (Array.toList_inj.mp hList))

theorem utf8_append (s t : String) : utf8 (s ++ t) = utf8 s ++ utf8 t := by
  simp [utf8, String.toUTF8]

def hexValue (c : Char) : Option Nat :=
  if '0' ≤ c ∧ c ≤ '9' then some (c.toNat - '0'.toNat)
  else if 'a' ≤ c ∧ c ≤ 'f' then some (c.toNat - 'a'.toNat + 10)
  else if 'A' ≤ c ∧ c ≤ 'F' then some (c.toNat - 'A'.toNat + 10)
  else none

/-- Spaces that `bytes.fromhex` skips between bytes. -/
def isAsciiSpace (c : Char) : Bool :=
  c = ' ' ∨ (9 ≤ c.toNat ∧ c.toNat ≤ 13)

def fromhexChars : List Char → Option Bytes
  | [] => some []
  | [c] => if isAsciiSpace c then some [] else none
  | c :: d :: rest =>
      if isAsciiSpace c then fromhexChars (d :: rest)
      else do
        let high ← hexValue c
        let low ← hexValue d
        let tail ← fromhexChars rest
        some (Fin.ofNat _ (high * 16 + low) :: tail)

def fromhex (s : String) : Option Bytes := fromhexChars s.toList

def base64Value (c : Char) : Option Nat :=
  if 'A' ≤ c ∧ c ≤ 'Z' then some (c.toNat - 'A'.toNat)
  else if 'a' ≤ c ∧ c ≤ 'z' then some (c.toNat - 'a'.toNat + 26)
  else if '0' ≤ c ∧ c ≤ '9' then some (c.toNat - '0'.toNat + 52)
  else if c = '+' then some 62
  else if c = '/' then some 63
  else none

/-- The loop of `b64decode` without validation: `quadPos` sextets of the current
group have been read, `left` holds the bits not yet emitted, and `pads` the
padding seen.  Characters outside the alphabet are skipped, complete padding
ends the input, and an incomplete group at the end is an error. -/
def b64decodeChars : List Char → Nat → Nat → Nat → Option Bytes
  | [], quadPos, _, _ => if quadPos = 0 then some [] else none
  | c :: rest, quadPos, left, pads =>
      if c = '=' then
        if 2 ≤ quadPos then
          if 4 ≤ quadPos + (pads + 1) then some []
          else b64decodeChars rest quadPos left (pads + 1)
        else b64decodeChars rest quadPos left pads
      else
        match base64Value c, quadPos with
        | none, _ => b64decodeChars rest quadPos left pads
        | some sextet, 0 => b64decodeChars rest 1 sextet 0
        | some sextet, 1 =>
            (b64decodeChars rest 2 (sextet % 16) 0).map
              (Fin.ofNat _ (left * 4 + sextet / 16) :: ·)
        | some sextet, 2 =>
            (b64decodeChars rest 3 (sextet % 4) 0).map
              (Fin.ofNat _ (left * 16 + sextet / 4) :: ·)
        | some sextet, _ =>
            (b64decodeChars rest 0 0 0).map (Fin.ofNat _ (left * 64 + sextet) :: ·)

/-- `b64decode` of a string, which must be ASCII. -/
def b64decode (s : String) : Option Bytes :=
  if s.toList.all (fun c => c.toNat < 128) then b64decodeChars s.toList 0 0 0 else none

/-! ## The leaf -/

/-- The big-endian number of a byte string. -/
def toWord (bytes : Bytes) : Bytes32 :=
  Fin.ofNat _ (bytes.foldl (fun acc byte => acc * 256 + byte.val) 0)

/-- `_check_uint`: the integer, if it fits the field. -/
def checkUint (bits : Nat) (value : Int) : Option (Uint bits) :=
  if h : 0 ≤ value ∧ value < 2 ^ bits then
    some ⟨value.toNat, by
      have hLt : (value.toNat : Int) < ((2 ^ bits : Nat) : Int) := by
        rw [Int.toNat_of_nonneg h.1]
        exact_mod_cast h.2
      exact_mod_cast hLt⟩
  else none

/-- The bytes that the provider signed. -/
def signingPayload (r : ShardExecutionReceipt) : Bytes :=
  utf8 (r.jobId ++ "||" ++ toString r.shardIndex ++ "||" ++ r.outputHash ++ "||" ++
    toString r.executedAtUnix)

/-- `batched_receipt_to_leaf`, with `none` where it raises. -/
def batchedReceiptToLeaf (keccak256 : Keccak) (br : BatchedReceipt) :
    Option Registry.ReceiptLeaf := do
  let r := br.receipt
  let outputHash ← fromhex r.outputHash
  guard (outputHash.length = 32)
  let pubkey ← b64decode r.providerPubkeyB64
  let signature ← b64decode r.signature
  let shardIndex ← checkUint 32 r.shardIndex
  let executedAtUnix ← checkUint 64 r.executedAtUnix
  let valueFtns ← checkUint 128 br.valueFtns
  some
    { jobIdHash := keccak256 (utf8 r.jobId)
      shardIndex := shardIndex
      providerIdHash := keccak256 (utf8 r.providerId)
      providerPubkeyHash := keccak256 pubkey
      outputHash := toWord outputHash
      executedAtUnix := executedAtUnix
      valueFtns := valueFtns
      signatureHash := keccak256 signature
      signingMessageHash := keccak256 (signingPayload r) }

end Prsm.Settlement
