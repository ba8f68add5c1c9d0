import Prsm.Foundations.Doubles
import Prsm.Foundations.JsonText
import Prsm.Settlement.AddressText

/-!
# Decoding an untrusted message in Python

The exceptions of a decoder, the conversions that raise them, and `json`.  Nothing is assumed
of `json.loads` but what `RoundTrips` says, that it reads what `json.dumps` writes.
-/

namespace Prsm.Wire

open Foundations
open Foundations.Json (ReadsBack Printable readValue)
open Evm (Bytes)
open Settlement (utf8)

/-- What `json.loads` raises. -/
inductive LoadError
  | jsonDecodeError
  | unicodeDecodeError
  | recursionError

/-- An exception: one of the protocol's own, or another one. -/
inductive Raised (ε : Type)
  | protocol (error : ε)
  | attributeError
  | typeError
  | valueError
  | overflowError
  | unicodeDecodeError
  | recursionError
  deriving DecidableEq

@[reducible] def Decoder (ε α : Type) : Type := Except (Raised ε) α

/-- What the decoders use of the language: `json.loads`, `int` of a text, and the number that
`float` makes of a double. -/
structure Python where
  loads : Bytes → Except LoadError Json
  intOfText : String → Option ℤ
  floatOf : ℚ → PyFloat
  value_floatOf : ∀ q, (floatOf q).value = some q

theorem map_eq_ok {ε α β : Type} {f : α → β} {x : Decoder ε α} {b : β} :
    f <$> x = .ok b ↔ ∃ a, x = .ok a ∧ f a = b := by
  cases x with
  | error e =>
      show (Except.error e : Decoder ε β) = .ok b ↔ _
      simp
  | ok a =>
      show (Except.ok (f a) : Decoder ε β) = .ok b ↔ _
      simp

section Conversions

variable {ε : Type} (py : Python)

/-- The integer part. -/
def truncate (q : ℚ) : ℤ := if 0 ≤ q then ⌊q⌋ else ⌈q⌉

/-- `int(x)` of a floating-point number. -/
def intOfFloat (x : PyFloat) : Decoder ε ℤ :=
  match x.value with
  | some q => .ok (truncate q)
  | none => if x.text = "nan" then .error .valueError else .error .overflowError

/-- `int(x)`. -/
def toInt : Json → Decoder ε ℤ
  | .bool b => .ok (if b then 1 else 0)
  | .int n => .ok n
  | .float x => intOfFloat x
  | .str s =>
      match py.intOfText s with
      | some n => .ok n
      | none => .error .valueError
  | _ => .error .typeError

/-- `float(n)` of an integer. -/
def floatOfInt (n : ℤ) : Decoder ε PyFloat :=
  match double n with
  | some q => .ok (py.floatOf q)
  | none => .error .overflowError

theorem floatOfInt_of_double {n : ℤ} {q : ℚ} (h : double n = some q) :
    (floatOfInt py n : Decoder ε PyFloat) = .ok (py.floatOf q) := by
  -- `delta`, since the equation of the definition would evaluate the bound of `double`
  delta floatOfInt
  generalize double (n : ℚ) = d at h
  subst h
  rfl

theorem floatOfInt_of_overflow {n : ℤ} (h : double n = none) :
    (floatOfInt py n : Decoder ε PyFloat) = .error .overflowError := by
  delta floatOfInt
  generalize double (n : ℚ) = d at h
  subst h
  rfl

/-- Whether `isinstance(x, (int, float))`. -/
def isNumeric : Json → Bool
  | .bool _ | .int _ | .float _ => true
  | _ => false

/-- `float(x)` of a number. -/
def toFloat : Json → Decoder ε PyFloat
  | .bool b => floatOfInt py (if b then 1 else 0)
  | .int n => floatOfInt py n
  | .float x => .ok x
  | _ => .error .typeError

end Conversions

/-! ## Failing closed -/

section FailsClosed

variable {ε α β : Type}

/-- No exception but the protocol's own. -/
def FailsClosed (x : Decoder ε α) : Prop :=
  ∀ e, x = .error e → ∃ error, e = .protocol error

@[simp] theorem failsClosed_ok (a : α) : FailsClosed (.ok a : Decoder ε α) := by
  intro e h
  cases h

@[simp] theorem failsClosed_pure (a : α) : FailsClosed (pure a : Decoder ε α) :=
  failsClosed_ok a

@[simp] theorem failsClosed_error (e : Raised ε) :
    FailsClosed (.error e : Decoder ε α) ↔ ∃ error, e = .protocol error := by
  constructor
  · intro h
    exact h e rfl
  · intro h e' hSame
    cases hSame
    exact h
variable {x : Decoder ε α} {f : α → Decoder ε β}

theorem failsClosed_iff :
    FailsClosed x ↔ (∃ a, x = .ok a) ∨ ∃ error, x = .error (.protocol error) := by
  cases x with
  | error e => simp
  | ok a => simp

theorem failsClosed_bind :
    FailsClosed (x >>= f) ↔ FailsClosed x ∧ ∀ a, x = .ok a → FailsClosed (f a) := by
  cases x with
  | error e =>
      show FailsClosed (.error e : Decoder ε β) ↔ _
      simp
  | ok a =>
      show FailsClosed (f a) ↔ _
      simp

/-- The exception that is raised, if there is one. -/
def raised (x : Decoder ε α) : Option (Raised ε) :=
  match x with
  | .ok _ => none
  | .error e => some e

theorem not_failsClosed {e : Raised ε} (h : raised x = some e)
    (he : ∀ error, e ≠ .protocol error) :
    ¬((∃ a, x = .ok a) ∨ ∃ error, x = .error (.protocol error)) := by
  cases x with
  | ok a => cases h
  | error e' =>
      obtain rfl : e' = e := Option.some.inj h
      simpa using he

/-! ## The outline of a decoder -/

/-- A step of a decoder: a check, which fails with an exception of the protocol, or a
conversion, which fails with another one. -/
inductive Step
  | check (passes : Bool)
  | convert (succeeds : Bool)

/-- Every conversion that fails stands behind a check that fails. -/
def Shielded (steps : List Step) : Prop :=
  ∀ i : ℕ, steps[i]? = some (Step.convert false) → ∃ j < i, steps[j]? = some (Step.check false)

def Step.passes : Step → Bool
  | check b => b
  | convert b => b

theorem shielded_nil : Shielded [] := by simp [Shielded]

variable {b : Bool} {rest steps : List Step}

theorem shielded_check :
    Shielded (.check b :: rest) ↔ (b = true → Shielded rest) := by
  constructor
  · rintro h rfl i hi
    obtain ⟨j, hj, hFail⟩ := h (i + 1) hi
    cases j with
    | zero => simp at hFail
    | succ j => exact ⟨j, by omega, hFail⟩
  · intro h i hi
    cases i with
    | zero => simp at hi
    | succ i =>
        cases b with
        | false => exact ⟨0, by omega, rfl⟩
        | true =>
            obtain ⟨j, hj, hFail⟩ := h rfl i hi
            exact ⟨j + 1, by omega, hFail⟩

theorem shielded_convert :
    Shielded (.convert b :: rest) ↔ b = true ∧ Shielded rest := by
  constructor
  · intro h
    constructor
    · by_contra hb
      obtain ⟨j, hj, -⟩ := h 0 (by simp [hb])
      omega
    · intro i hi
      obtain ⟨j, hj, hFail⟩ := h (i + 1) hi
      cases j with
      | zero => simp at hFail
      | succ j => exact ⟨j, by omega, hFail⟩
  · rintro ⟨rfl, h⟩ i hi
    cases i with
    | zero => simp at hi
    | succ i =>
        obtain ⟨j, hj, hFail⟩ := h i hi
        exact ⟨j + 1, by omega, hFail⟩

theorem shielded_append_check :
    Shielded (steps ++ .check b :: rest) ↔
      Shielded steps ∧ ((∀ s ∈ steps, s.passes = true) → b = true → Shielded rest) := by
  induction steps with
  | nil => simp [shielded_nil, shielded_check]
  | cons s steps ih =>
      cases s with
      | check c =>
          rw [List.cons_append, shielded_check, shielded_check, ih]
          cases c <;> simp [Step.passes]
      | convert c =>
          rw [List.cons_append, shielded_convert, shielded_convert, ih]
          cases c <;> simp [Step.passes]

/-- The steps of a decoder: they say when it fails closed, and all pass where it succeeds. -/
structure Outlines (steps : List Step) (x : Decoder ε α) : Prop where
  closed : FailsClosed x ↔ Shielded steps
  passed : ∀ a, x = .ok a → ∀ s ∈ steps, s.passes = true

theorem Outlines.of_failsClosed (h : FailsClosed x) : Outlines [] x where
  closed := by simp [h, shielded_nil]
  passed := by simp

theorem Outlines.map (h : Outlines steps x) (g : α → β) :
    Outlines steps (g <$> x) := by
  cases x with
  | error e =>
      constructor
      · rw [← h.closed]
        show FailsClosed (.error e : Decoder ε β) ↔ FailsClosed (.error e : Decoder ε α)
        simp
      · intro b hb
        cases hb
  | ok a =>
      constructor
      · rw [← h.closed]
        show FailsClosed (.ok (g a) : Decoder ε β) ↔ FailsClosed (.ok a : Decoder ε α)
        simp
      · intro b _
        exact h.passed a rfl

theorem Outlines.check
    (hx : FailsClosed x) (hf : ∀ a, x = .ok a → Outlines rest (f a)) :
    Outlines (.check x.isOk :: rest) (x >>= f) := by
  cases x with
  | error e =>
      obtain ⟨error, rfl⟩ := hx e rfl
      constructor
      · rw [failsClosed_bind, shielded_check]
        simp [Except.isOk, Except.toBool]
      · intro b hb
        cases hb
  | ok a =>
      have hRest := hf a rfl
      constructor
      · rw [failsClosed_bind, shielded_check, ← hRest.closed]
        simp [Except.isOk, Except.toBool]
      · intro b hb s hs
        rcases List.mem_cons.mp hs with rfl | hMem
        · rfl
        · exact hRest.passed b hb s hMem

theorem Outlines.convert
    (hx : ∀ error, x ≠ .error (.protocol error)) (hb : x.isOk = b)
    (hf : ∀ a, x = .ok a → Outlines rest (f a)) :
    Outlines (.convert b :: rest) (x >>= f) := by
  subst hb
  cases x with
  | error e =>
      constructor
      · rw [failsClosed_bind, shielded_convert]
        have hStray : ¬∃ error, e = .protocol error := by
          rintro ⟨error, rfl⟩
          exact hx error rfl
        simp [Except.isOk, Except.toBool, hStray]
      · intro c hc
        cases hc
  | ok a =>
      have hRest := hf a rfl
      constructor
      · rw [failsClosed_bind, shielded_convert, ← hRest.closed]
        simp [Except.isOk, Except.toBool]
      · intro c hc s hs
        rcases List.mem_cons.mp hs with rfl | hMem
        · rfl
        · exact hRest.passed c hc s hMem

theorem Outlines.last
    (hx : Outlines steps x) (hf : ∀ a, FailsClosed (f a)) : Outlines steps (x >>= f) where
  closed := by
    rw [failsClosed_bind, hx.closed]
    exact ⟨fun h => h.1, fun h => ⟨h, fun a _ => hf a⟩⟩
  passed := by
    intro b hb
    cases x with
    | error e => cases hb
    | ok a => exact hx.passed a rfl

theorem Outlines.nested {inner : List Step}
    (hx : Outlines inner x) (hf : ∀ a, x = .ok a → Outlines rest (f a)) :
    Outlines (inner ++ .check x.isOk :: rest) (x >>= f) := by
  cases x with
  | error e =>
      constructor
      · rw [failsClosed_bind, shielded_append_check, ← hx.closed]
        simp [Except.isOk, Except.toBool]
      · intro c hc
        cases hc
  | ok a =>
      have hRest := hf a rfl
      have hInner := hx.passed a rfl
      constructor
      · rw [failsClosed_bind, shielded_append_check, ← hx.closed, ← hRest.closed]
        constructor
        · rintro ⟨hFirst, hThen⟩
          exact ⟨hFirst, fun _ _ => hThen a rfl⟩
        · rintro ⟨hFirst, hThen⟩
          refine ⟨hFirst, fun a' ha' => ?_⟩
          cases ha'
          exact hThen hInner rfl
      · intro c hc s hs
        rcases List.mem_append.mp hs with hMem | hMem
        · exact hInner s hMem
        · rcases List.mem_cons.mp hMem with rfl | hMem
          · rfl
          · exact hRest.passed c hc s hMem

end FailsClosed

/-! ## Writing and reading -/

/-- What is written is read, with its keys in order, and what `float` gives is such a number. -/
structure Python.RoundTrips (py : Python) (read : String → Option PyFloat) : Prop where
  loads_text : ∀ v, Printable read 4 v → py.loads (utf8 v.text) = .ok v.canonical
  readsBack_floatOf : ∀ q, double q = some q → ReadsBack read (py.floatOf q)

/-! ## A reader of what is written -/

namespace Sample

/-- The text of a number: that of Python for the integers below `10 ^ 16`. -/
def numberText (q : ℚ) : String :=
  if q.den = 1 then toString q.num ++ ".0" else toString q.num ++ ".e" ++ toString (q.den : ℤ)

theorem numberText_chars (q : ℚ) :
    ∃ rest, (numberText q).toList = (toString q.num).toList ++ '.' :: rest ∧
      (q.den = 1 ∧ rest = ['0'] ∨ q.den ≠ 1 ∧ rest = 'e' :: (toString (q.den : ℤ)).toList) := by
  unfold numberText
  split_ifs with hDen
  · exact ⟨['0'], by simp, Or.inl ⟨hDen, rfl⟩⟩
  · exact ⟨'e' :: (toString (q.den : ℤ)).toList, by simp, Or.inr ⟨hDen, rfl⟩⟩

theorem numberText_word (q : ℚ) : ∀ c ∈ (numberText q).toList, Json.isWordChar c = true := by
  obtain ⟨rest, hText, hRest⟩ := numberText_chars q
  have hInt : ∀ n : ℤ, ∀ c ∈ (toString n).toList, Json.isWordChar c = true := fun n c hc =>
    Json.isWordChar_of_isIntegerChar (PyValue.isIntegerChar_toString n c hc)
  intro c hc
  rw [hText, List.mem_append, List.mem_cons] at hc
  rcases hc with hNum | rfl | hMem
  · exact hInt q.num c hNum
  · rfl
  · rcases hRest with ⟨-, rfl⟩ | ⟨-, rfl⟩
    · obtain rfl : c = '0' := by simpa using hMem
      rfl
    · rcases List.mem_cons.mp hMem with rfl | hDen
      · rfl
      · exact hInt _ c hDen

theorem numberText_marked (q : ℚ) :
    (numberText q).toList.any (fun c => c = '.' || c = 'e' || c = 'n') = true := by
  obtain ⟨rest, hText, -⟩ := numberText_chars q
  rw [hText]
  simp

theorem numberText_plain (q : ℚ) : (numberText q).toList.all (fun c => c ≠ '|') = true := by
  rw [List.all_eq_true]
  intro c hc
  have hWord := numberText_word q c hc
  rw [decide_eq_true_eq]
  rintro rfl
  exact absurd hWord (by decide)

def floatOf (q : ℚ) : PyFloat where
  text := numberText q
  value := some q
  marked := numberText_marked q
  plain := numberText_plain q

def readFloat (s : String) : Option PyFloat :=
  let whole := s.toList.takeWhile fun c => c ≠ '.'
  match s.toList.dropWhile fun c => c ≠ '.' with
  | ['.', '0'] => some (floatOf (Json.readInt whole))
  | '.' :: 'e' :: den => some (floatOf (Json.readInt whole / Json.readInt den))
  | _ => none

theorem readFloat_numberText (q : ℚ) : readFloat (numberText q) = some (floatOf q) := by
  obtain ⟨rest, hText, hRest⟩ := numberText_chars q
  have hNoDot : ∀ c ∈ (toString q.num).toList, decide (c ≠ '.') = true := by
    intro c hc
    have hInteger := PyValue.isIntegerChar_toString q.num c hc
    rw [decide_eq_true_eq]
    rintro rfl
    exact absurd hInteger (by decide)
  have hTake : (numberText q).toList.takeWhile (fun c => c ≠ '.') = (toString q.num).toList := by
    rw [hText, List.takeWhile_append_of_pos hNoDot]
    simp
  have hDrop : (numberText q).toList.dropWhile (fun c => c ≠ '.') = '.' :: rest := by
    rw [hText, List.dropWhile_append_of_pos hNoDot]
    simp
  simp only [readFloat, hTake, hDrop, Json.readInt_toString]
  rcases hRest with ⟨hDen, rfl⟩ | ⟨-, rfl⟩
  · have hWhole : (q.num : ℚ) = q := Rat.coe_int_num_of_den_eq_one hDen
    simp [hWhole]
  · simp only [Json.readInt_toString]
    have hQuotient : (q.num : ℚ) / ((q.den : ℤ) : ℚ) = q := by
      exact_mod_cast Rat.num_div_den q
    rw [hQuotient]

def decodeUtf8 (bytes : Bytes) : Option String :=
  String.fromUTF8? ⟨(bytes.map fun b => UInt8.ofNat b.val).toArray⟩

theorem decodeUtf8_utf8 (s : String) : decodeUtf8 (utf8 s) = some s := by
  have hBytes : (⟨((utf8 s).map fun b => UInt8.ofNat b.val).toArray⟩ : ByteArray) = s.toUTF8 := by
    refine ByteArray.ext (Array.toList_inj.mp ?_)
    have hByte : ∀ b : UInt8, UInt8.ofNat (Fin.ofNat (2 ^ 8) b.toNat).val = b := by
      intro b
      rw [Fin.val_ofNat, Nat.mod_eq_of_lt b.toNat_lt]
      simp
    show (utf8 s).map (fun b => UInt8.ofNat b.val) = s.toUTF8.data.toList
    rw [utf8, List.map_map]
    exact (List.map_congr_left fun b _ => hByte b).trans (List.map_id _)
  have hValid : s.toUTF8.IsValidUTF8 := s.isValidUTF8
  rw [decodeUtf8, hBytes, String.fromUTF8?, dif_pos hValid]
  rfl

def loads (payload : Bytes) : Except LoadError Json :=
  match decodeUtf8 payload with
  | none => .error .unicodeDecodeError
  | some s =>
      match readValue readFloat 4 s.toList with
      | some (v, []) => .ok v
      | _ => .error .jsonDecodeError

def python : Python where
  loads := loads
  intOfText := fun s => if s.toList.all Char.isDigit then s.toInt? else none
  floatOf := floatOf
  value_floatOf := fun _ => rfl

theorem roundTrips : python.RoundTrips readFloat where
  loads_text := by
    intro v hv
    show loads (utf8 v.text) = .ok v.canonical
    simp only [loads, decodeUtf8_utf8, Json.readValue_text hv]
  readsBack_floatOf := by
    intro q _
    obtain ⟨rest, hChars, -⟩ := numberText_chars q
    refine ⟨readFloat_numberText q, numberText_word q, ?_⟩
    intro hMem
    have hDot : '.' ∈ (numberText q).toList := by
      rw [hChars]
      simp
    change numberText q ∈ ["null", "true", "false"] at hMem
    rcases List.mem_cons.mp hMem with h | hMem
    · rw [h] at hDot
      exact absurd hDot (by decide)
    rcases List.mem_cons.mp hMem with h | hMem
    · rw [h] at hDot
      exact absurd hDot (by decide)
    · rw [List.mem_singleton.mp hMem] at hDot
      exact absurd hDot (by decide)

end Sample

end Prsm.Wire
