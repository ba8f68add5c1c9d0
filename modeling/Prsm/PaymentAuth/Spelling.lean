import Mathlib.Data.List.DropRight
import Prsm.PaymentAuth.Fields

/-!
# Spellings of a nonce

A signature binds the 32 bytes of a nonce.  `bytes32Of` reads them from a text,
which may carry a `0x` prefix, digits in either case and space between digits.
`budgetKey` is the canonical spelling that the delegation budget is kept under:
every text that spells the same bytes has the same key.
-/

namespace Prsm.PaymentAuth

open Evm Settlement

/-- A field that should hold a string. -/
inductive StrField
  | missing
  | text (s : String)
  /-- A value of another type, with what `str(value or "")` makes of it. -/
  | other (shown : String)

namespace StrField

/-- `str(payload.get(field) or "")`. -/
def shown : StrField → String
  | .missing => ""
  | .text s => s
  | .other s => s

/-- The string, where the field holds one. -/
def text? : StrField → Option String
  | .text s => some s
  | _ => none

end StrField

/-- The 32 bytes that a text spells. -/
def bytes32Of (s : String) : Option Bytes := toBytes32 (.text s)

/-- The spelling with prefix and lower-case digits. -/
def canonicalKey (raw : Bytes) : String := String.ofList ('0' :: 'x' :: hexChars raw)

/-- `_key` of the delegation budget. -/
def budgetKey (lower : String → String) (nonce : String) : String :=
  let s := String.ofList (strip nonce.toList)
  match bytes32Of s with
  | some raw => canonicalKey raw
  | none => lower s

theorem val_of_checkUint {bits : Nat} {value : Int} {n : Uint bits}
    (h : checkUint bits value = some n) : (n.val : Int) = value := by
  unfold checkUint at h
  split at h
  case isTrue hRange =>
    cases h
    exact Int.toNat_of_nonneg hRange.1
  · cases h

/-! ## Space around the digits -/

variable {raw : Bytes} {c : Char} {chars : List Char}

theorem bytes32Of_eq_some_iff {s : String} :
    bytes32Of s = some raw ↔ fromhexChars (drop0x s.toList) = some raw ∧ raw.length = 32 := by
  rw [bytes32Of, toBytes32, HexField.read, Option.bind_eq_some_iff]
  constructor
  · rintro ⟨raw', hRaw, h⟩
    split at h
    case isTrue hLength =>
      cases h
      exact ⟨hRaw, hLength⟩
    · cases h
  · rintro ⟨hRaw, hLength⟩
    exact ⟨raw, hRaw, if_pos hLength⟩

theorem hexValue_of_isSpace (h : isSpace c = true) : hexValue c = none := by
  have hNat : c.toNat < 0x21 ∨ 0x80 ≤ c.toNat := by
    simp only [isSpace, List.mem_cons, List.not_mem_nil, or_false, decide_eq_true_eq] at h
    omega
  have hLe : ∀ d : Char, (d ≤ c ↔ d.toNat ≤ c.toNat) ∧ (c ≤ d ↔ c.toNat ≤ d.toNat) :=
    fun d => ⟨Iff.rfl, Iff.rfl⟩
  have h0 : '0'.toNat = 0x30 := rfl
  have h9 : '9'.toNat = 0x39 := rfl
  have ha : 'a'.toNat = 0x61 := rfl
  have hf : 'f'.toNat = 0x66 := rfl
  have hA : 'A'.toNat = 0x41 := rfl
  have hF : 'F'.toNat = 0x46 := rfl
  rw [hexValue, if_neg, if_neg, if_neg]
  · rw [(hLe 'A').1, (hLe 'F').2]
    omega
  · rw [(hLe 'a').1, (hLe 'f').2]
    omega
  · rw [(hLe '0').1, (hLe '9').2]
    omega

theorem fromhexChars_cons_space
    (hSpace : isSpace c = true) (h : fromhexChars (c :: chars) = some raw) :
    fromhexChars chars = some raw := by
  cases chars with
  | nil =>
      rw [fromhexChars] at h
      split at h
      · exact h
      · cases h
  | cons d rest =>
      rw [fromhexChars] at h
      split at h
      · exact h
      · rw [hexValue_of_isSpace hSpace] at h
        cases h

theorem fromhexChars_append_space (hSpace : isSpace c = true)
    (h : fromhexChars (chars ++ [c]) = some raw) : fromhexChars chars = some raw := by
  induction chars using fromhexChars.induct generalizing raw with
  | case1 => exact fromhexChars_cons_space hSpace h
  | case2 x hx =>
      rw [List.singleton_append, fromhexChars, if_pos hx] at h
      rw [fromhexChars, if_pos hx]
      rw [fromhexChars] at h
      split at h
      · exact h
      · cases h
  | case3 x hx =>
      rw [List.singleton_append, fromhexChars, if_neg hx, hexValue_of_isSpace hSpace] at h
      obtain ⟨_, -, h⟩ := Option.bind_eq_some_iff.mp h
      cases h
  | case4 x y rest hx ih =>
      rw [List.cons_append, List.cons_append, fromhexChars, if_pos hx] at h
      rw [fromhexChars, if_pos hx]
      exact ih h
  | case5 x y rest hx ih =>
      rw [List.cons_append, List.cons_append, fromhexChars, if_neg hx] at h
      rw [fromhexChars, if_neg hx]
      obtain ⟨high, hHigh, h⟩ := Option.bind_eq_some_iff.mp h
      obtain ⟨low, hLow, h⟩ := Option.bind_eq_some_iff.mp h
      obtain ⟨tail, hTail, h⟩ := Option.bind_eq_some_iff.mp h
      rw [hHigh, hLow]
      simp only [Option.bind_eq_bind, Option.bind_some, ih hTail]
      exact h

theorem fromhexChars_dropWhile_space
    (h : fromhexChars chars = some raw) : fromhexChars (chars.dropWhile isSpace) = some raw := by
  induction chars with
  | nil => exact h
  | cons c rest ih =>
      by_cases hSpace : isSpace c = true
      · rw [List.dropWhile_cons_of_pos hSpace]
        exact ih (fromhexChars_cons_space hSpace h)
      · rw [List.dropWhile_cons_of_neg hSpace]
        exact h

theorem fromhexChars_rdropWhile_space
    (h : fromhexChars chars = some raw) : fromhexChars (chars.rdropWhile isSpace) = some raw := by
  induction chars using List.reverseRecOn with
  | nil => exact h
  | append_singleton rest c ih =>
      rw [List.rdropWhile_concat]
      split
      case isTrue hSpace => exact ih (fromhexChars_append_space hSpace h)
      case isFalse => exact h

theorem strip_eq (chars : List Char) :
    strip chars = (chars.dropWhile isSpace).rdropWhile isSpace := rfl

theorem strip_prefixed (rest : List Char) :
    strip ('0' :: 'x' :: rest) = '0' :: 'x' :: rest.rdropWhile isSpace := by
  have hLead : ('0' :: 'x' :: rest).dropWhile isSpace = '0' :: 'x' :: rest :=
    List.dropWhile_cons_of_neg (by decide)
  rw [strip_eq, hLead]
  induction rest using List.reverseRecOn with
  | nil => decide
  | append_singleton rest c ih =>
      have hConcat : '0' :: 'x' :: (rest ++ [c]) = ('0' :: 'x' :: rest) ++ [c] := rfl
      rw [hConcat, List.rdropWhile_concat, List.rdropWhile_concat]
      split
      · exact ih (List.dropWhile_cons_of_neg (by decide))
      · rfl

theorem drop0x_of_fromhexChars
    (h : fromhexChars chars = some raw) : drop0x chars = chars := by
  unfold drop0x
  split
  · rw [fromhexChars, if_neg (by decide)] at h
    obtain ⟨_, -, h⟩ := Option.bind_eq_some_iff.mp h
    obtain ⟨_, hDigit, -⟩ := Option.bind_eq_some_iff.mp h
    have hX : hexValue 'x' = none := by decide
    rw [hX] at hDigit
    cases hDigit
  · rfl

theorem fromhexChars_drop0x_strip
    (h : fromhexChars (drop0x chars) = some raw) :
    fromhexChars (drop0x (strip chars)) = some raw := by
  unfold drop0x at h
  split at h
  case h_1 rest =>
    rw [strip_prefixed]
    exact fromhexChars_rdropWhile_space h
  case h_2 =>
    have hStrip : fromhexChars (strip chars) = some raw :=
      fromhexChars_rdropWhile_space (fromhexChars_dropWhile_space h)
    rw [drop0x_of_fromhexChars hStrip]
    exact hStrip

/-! ## The canonical spelling -/

theorem bytes32Of_canonicalKey (h : raw.length = 32) :
    bytes32Of (canonicalKey raw) = some raw := by
  rw [bytes32Of_eq_some_iff, canonicalKey, String.toList_ofList]
  exact ⟨fromhexChars_hexChars raw, h⟩

theorem canonicalKey_injective {other : Bytes} (h : canonicalKey raw = canonicalKey other) :
    raw = other := by
  have hChars := String.ofList_injective h
  have hRead := fromhexChars_hexChars raw
  rw [(List.cons.inj (List.cons.inj hChars).2).2, fromhexChars_hexChars] at hRead
  exact (Option.some.inj hRead).symm

theorem budgetKey_of_bytes32Of {lower : String → String} {nonce : String}
    (h : bytes32Of nonce = some raw) : budgetKey lower nonce = canonicalKey raw := by
  have hStrip : bytes32Of (String.ofList (strip nonce.toList)) = some raw := by
    rw [bytes32Of_eq_some_iff] at h ⊢
    rw [String.toList_ofList]
    exact ⟨fromhexChars_drop0x_strip h.1, h.2⟩
  simp only [budgetKey, hStrip]

theorem budgetKey_canonicalKey {lower : String → String} (h : raw.length = 32) :
    budgetKey lower (canonicalKey raw) = canonicalKey raw :=
  budgetKey_of_bytes32Of (bytes32Of_canonicalKey h)

end Prsm.PaymentAuth
