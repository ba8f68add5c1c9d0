import Prsm.Foundations.JsonText
import Prsm.Settlement.AddressText

/-!
# Bytes on the wire

Numbers of a fixed width, fields behind their length, base64 that is validated, and how many
bytes the text of a JSON value takes.
-/

namespace Prsm.Wire

open Foundations
open Evm (Bytes)
open Settlement (base64Value)

/-! ## Numbers of a fixed width -/

/-- The last `width` bytes of a number, the most significant first. -/
def bigEndian : ℕ → ℕ → Bytes
  | 0, _ => []
  | width + 1, n => bigEndian width (n / 256) ++ [Fin.ofNat _ n]

@[simp] theorem length_bigEndian (width n : ℕ) : (bigEndian width n).length = width := by
  induction width generalizing n with
  | zero => rfl
  | succ width ih => simp [bigEndian, ih]

theorem bigEndian_injective {width n m : ℕ} (hn : n < 256 ^ width) (hm : m < 256 ^ width)
    (h : bigEndian width n = bigEndian width m) : n = m := by
  induction width generalizing n m with
  | zero =>
      rw [pow_zero] at hn hm
      omega
  | succ width ih =>
      obtain ⟨hHigh, hLow⟩ := List.append_inj h (by simp)
      rw [pow_succ] at hn hm
      have hSame := ih (by omega) (by omega) hHigh
      have hByte : n % 2 ^ 8 = m % 2 ^ 8 := by
        have hVal := congrArg Fin.val (List.cons.inj hLow).1
        simpa only [Fin.val_ofNat] using hVal
      omega

/-- `n.to_bytes(width, "big")`, which raises where the number does not fit. -/
def toBytesBig (width : ℕ) (n : ℤ) : Option Bytes :=
  if 0 ≤ n ∧ n < 256 ^ width then some (bigEndian width n.toNat) else none

theorem toBytesBig_eq_some {width : ℕ} {n : ℤ} {bytes : Bytes} :
    toBytesBig width n = some bytes ↔
      (0 ≤ n ∧ n < 256 ^ width) ∧ bytes = bigEndian width n.toNat := by
  unfold toBytesBig
  split_ifs with h
  · simp [h, eq_comm]
  · simp [h]

theorem prefixed_append_inj {width : ℕ} {a b x y : Bytes} (ha : a.length < 256 ^ width)
    (hb : b.length < 256 ^ width)
    (h : bigEndian width a.length ++ (a ++ x) = bigEndian width b.length ++ (b ++ y)) :
    a = b ∧ x = y := by
  obtain ⟨hPrefix, hRest⟩ := List.append_inj h (by simp)
  exact List.append_inj hRest (bigEndian_injective ha hb hPrefix)

/-! ## Base64 -/

def sextetChar (n : ℕ) : Char :=
  if n < 26 then Char.ofNat (65 + n)
  else if n < 52 then Char.ofNat (71 + n)
  else if n < 62 then Char.ofNat (n - 4)
  else if n = 62 then '+'
  else '/'

def b64encodeChars : Bytes → List Char
  | [] => []
  | [x] => [sextetChar (x.val / 4), sextetChar (x.val % 4 * 16), '=', '=']
  | [x, y] =>
      [sextetChar (x.val / 4), sextetChar (x.val % 4 * 16 + y.val / 16),
        sextetChar (y.val % 16 * 4), '=']
  | x :: y :: z :: rest =>
      sextetChar (x.val / 4) :: sextetChar (x.val % 4 * 16 + y.val / 16) ::
        sextetChar (y.val % 16 * 4 + z.val / 64) :: sextetChar (z.val % 64) ::
        b64encodeChars rest

def b64encode (bytes : Bytes) : String := String.ofList (b64encodeChars bytes)

/-- Groups of four characters; only the last one may be padded. -/
def b64decodeStrict : List Char → Option Bytes
  | [] => some []
  | a :: b :: c :: d :: rest =>
      if d = '=' ∧ rest = [] then do
        let a ← base64Value a
        let b ← base64Value b
        if c = '=' then some [Fin.ofNat _ (a * 4 + b / 16)]
        else do
          let c ← base64Value c
          some [Fin.ofNat _ (a * 4 + b / 16), Fin.ofNat _ (b % 16 * 16 + c / 4)]
      else do
        let a ← base64Value a
        let b ← base64Value b
        let c ← base64Value c
        let d ← base64Value d
        let more ← b64decodeStrict rest
        some (Fin.ofNat _ (a * 4 + b / 16) :: Fin.ofNat _ (b % 16 * 16 + c / 4) ::
          Fin.ofNat _ (c % 4 * 64 + d) :: more)
  | _ => none

/-- `base64.b64decode(…, validate=True)`, which raises `ValueError` where it fails. -/
def b64decode (s : String) : Option Bytes := b64decodeStrict s.toList

end Prsm.Wire
