import Prsm.Foundations.PyValue

/-!
# The text of JSON can be read back

`text` is what `json.dumps(…, sort_keys=True)` writes: the keys of every object in order, and a
space after each comma and colon.  `readValue` reads such a text, and what it reads is the
value with its keys in order.  Floating-point numbers are read by a function of their text,
and the result is about values all of whose numbers it reads back.
-/

namespace Prsm.Foundations

/-! ## Sequences -/

/-- Items separated by a comma and a space, and the character that ends them. -/
def sequenceChars (close : Char) : List (List Char) → List Char
  | [] => [close]
  | [x] => x ++ [close]
  | x :: y :: rest => x ++ ',' :: ' ' :: sequenceChars close (y :: rest)

/-- The items of a sequence that is not empty; the first argument bounds their number. -/
def readSequence {α : Type} (close : Char) (item : List Char → Option (α × List Char)) :
    ℕ → List Char → Option (List α × List Char)
  | 0, _ => none
  | n + 1, cs =>
      match item cs with
      | some (x, ',' :: ' ' :: rest) =>
          (readSequence close item n rest).map fun r => (x :: r.1, r.2)
      | some (x, c :: rest) => if c = close then some ([x], rest) else none
      | _ => none

theorem length_le_sequenceChars (close : Char) (items : List (List Char)) :
    items.length ≤ (sequenceChars close items).length := by
  induction items with
  | nil => simp
  | cons x rest ih =>
      cases rest with
      | nil => simp [sequenceChars]
      | cons y rest =>
          simp only [sequenceChars, List.length_append, List.length_cons] at ih ⊢
          omega

theorem readSequence_sequenceChars {α : Type} {close : Char} (hClose : close ≠ ',')
    (item : List Char → Option (α × List Char)) (write : α → List Char)
    {items : List α} (hItems : items ≠ [])
    (hRead : ∀ x ∈ items, ∀ c rest, c = ',' ∨ c = close →
      item (write x ++ c :: rest) = some (x, c :: rest))
    {n : ℕ} (hn : items.length ≤ n) (rest : List Char) :
    readSequence close item n (sequenceChars close (items.map write) ++ rest) =
      some (items, rest) := by
  induction items generalizing n with
  | nil => exact absurd rfl hItems
  | cons x items ih =>
      obtain ⟨m, rfl⟩ : ∃ m, n = m + 1 := ⟨n - 1, by simp at hn; omega⟩
      cases items with
      | nil =>
          have hFirst := hRead x (by simp) close rest (Or.inr rfl)
          have hText : sequenceChars close ([x].map write) ++ rest = write x ++ close :: rest := by
            simp [sequenceChars]
          rw [hText, readSequence, hFirst]
          simp [hClose]
      | cons y items =>
          have hFirst := hRead x (by simp) ','
            (' ' :: (sequenceChars close ((y :: items).map write) ++ rest)) (Or.inl rfl)
          have hText : sequenceChars close ((x :: y :: items).map write) ++ rest =
              write x ++ ',' :: ' ' :: (sequenceChars close ((y :: items).map write) ++ rest) := by
            simp [sequenceChars]
          have hRest := ih (by simp) (fun z hz => hRead z (by simp [hz]))
            (n := m) (by simp at hn ⊢; omega)
          rw [hText, readSequence, hFirst]
          show (readSequence close item m _).map _ = _
          rw [hRest]
          rfl

/-! ## Strings -/

def hexUnit (c : Char) : Option ℕ :=
  if c.isDigit then some (c.toNat - 48)
  else if 97 ≤ c.toNat ∧ c.toNat ≤ 102 then some (c.toNat - 87)
  else none

/-- The code unit of four hexadecimal digits. -/
def readUnit : List Char → Option (ℕ × List Char)
  | a :: b :: c :: d :: rest => do
      let a ← hexUnit a
      let b ← hexUnit b
      let c ← hexUnit c
      let d ← hexUnit d
      some (((a * 16 + b) * 16 + c) * 16 + d, rest)
  | _ => none

/-- A character, which may be escaped. -/
def readChar : List Char → Option (Char × List Char)
  | '\\' :: 'n' :: rest => some ('\n', rest)
  | '\\' :: 'r' :: rest => some ('\r', rest)
  | '\\' :: 't' :: rest => some ('\t', rest)
  | '\\' :: 'b' :: rest => some (Char.ofNat 8, rest)
  | '\\' :: 'f' :: rest => some (Char.ofNat 12, rest)
  | '\\' :: 'u' :: digits =>
      match readUnit digits with
      | some (high, rest) =>
          if 0xd800 ≤ high ∧ high < 0xdc00 then
            match rest with
            | '\\' :: 'u' :: more =>
                (readUnit more).map fun low =>
                  (Char.ofNat (0x10000 + (high - 0xd800) * 0x400 + (low.1 - 0xdc00)), low.2)
            | _ => none
          else some (Char.ofNat high, rest)
      | none => none
  | '\\' :: c :: rest => some (c, rest)
  | c :: rest => some (c, rest)
  | [] => none

/-- The characters up to the closing quotation mark. -/
def readChars : ℕ → List Char → Option (List Char × List Char)
  | 0, _ => none
  | n + 1, cs =>
      if cs.head? = some '"' then some ([], cs.tail)
      else
        match readChar cs with
        | some (c, rest) => (readChars n rest).map fun r => (c :: r.1, r.2)
        | none => none

theorem hexUnit_digitChar : ∀ n < 16, hexUnit (Nat.digitChar n) = some n := by decide

theorem toDigits_sixteen {n : ℕ} (h : 16 ≤ n) :
    Nat.toDigits 16 n = Nat.toDigits 16 (n / 16) ++ [Nat.digitChar (n % 16)] :=
  Nat.toDigits_of_base_le (by decide) h

theorem unicodeEscape_chars {unit : ℕ} (h : unit < 0x10000) :
    (unicodeEscape unit).toList = '\\' :: 'u' ::
      [Nat.digitChar (unit / 4096), Nat.digitChar (unit / 256 % 16),
        Nat.digitChar (unit / 16 % 16), Nat.digitChar (unit % 16)] := by
  have hZero : Nat.digitChar 0 = '0' := rfl
  have hHead : "\\u".toList = ['\\', 'u'] := rfl
  simp only [unicodeEscape, String.toList_append, String.toList_ofList, hHead, List.cons_append,
    List.nil_append, List.cons.injEq, true_and]
  have h4 : unit / 16 / 16 = unit / 256 := Nat.div_div_eq_div_mul _ _ _
  have h5 : unit / 256 / 16 = unit / 4096 := Nat.div_div_eq_div_mul _ _ _
  -- by the number of digits
  rcases Nat.lt_or_ge unit 16 with h1 | h1
  · rw [Nat.toDigits_of_lt_base h1]
    have hs : unit / 4096 = 0 ∧ unit / 256 % 16 = 0 ∧ unit / 16 % 16 = 0 ∧ unit % 16 = unit := by
      omega
    simp [hs, hZero, List.replicate]
  rcases Nat.lt_or_ge unit 256 with h2 | h2
  · have hs : unit / 4096 = 0 ∧ unit / 256 % 16 = 0 ∧ unit / 16 % 16 = unit / 16 := by omega
    rw [toDigits_sixteen h1, Nat.toDigits_of_lt_base (n := unit / 16) (by omega)]
    simp [hs, hZero, List.replicate]
  rcases Nat.lt_or_ge unit 4096 with h3 | h3
  · have hs : unit / 4096 = 0 ∧ unit / 256 % 16 = unit / 256 := by omega
    rw [toDigits_sixteen h1, toDigits_sixteen (n := unit / 16) (by omega), h4,
      Nat.toDigits_of_lt_base (n := unit / 256) (by omega)]
    simp [hs, hZero]
  · rw [toDigits_sixteen h1, toDigits_sixteen (n := unit / 16) (by omega), h4,
      toDigits_sixteen (n := unit / 256) (by omega), h5,
      Nat.toDigits_of_lt_base (n := unit / 4096) (by omega)]
    simp

theorem readUnit_digits {unit : ℕ} (h : unit < 0x10000) (rest : List Char) :
    readUnit (Nat.digitChar (unit / 4096) :: Nat.digitChar (unit / 256 % 16) ::
      Nat.digitChar (unit / 16 % 16) :: Nat.digitChar (unit % 16) :: rest) =
        some (unit, rest) := by
  have h1 := hexUnit_digitChar (unit / 4096) (by omega)
  have h2 := hexUnit_digitChar (unit / 256 % 16) (by omega)
  have h3 := hexUnit_digitChar (unit / 16 % 16) (by omega)
  have h4 := hexUnit_digitChar (unit % 16) (by omega)
  have hSum : ((unit / 4096 * 16 + unit / 256 % 16) * 16 + unit / 16 % 16) * 16 + unit % 16 =
      unit := by omega
  simp [readUnit, h1, h2, h3, h4, hSum]

theorem readChar_unit {c : Char} (h : c.toNat < 0x10000) (rest : List Char) :
    readChar ((unicodeEscape c.toNat).toList ++ rest) = some (c, rest) := by
  have hValid : ¬(0xd800 ≤ c.toNat ∧ c.toNat < 0xdc00) := by
    rcases c.valid with hLow | hHigh
    · have : c.toNat < 0xd800 := hLow
      omega
    · have : 0xdfff < c.toNat := hHigh.1
      omega
  rw [unicodeEscape_chars h]
  simp only [List.cons_append, List.nil_append, readChar, readUnit_digits h, hValid, if_false,
    Char.ofNat_toNat]

theorem readChar_pair {c : Char} (h : 0x10000 ≤ c.toNat) (rest : List Char) :
    readChar ((unicodeEscape (0xd800 + (c.toNat - 0x10000) / 0x400) ++
      unicodeEscape (0xdc00 + (c.toNat - 0x10000) % 0x400)).toList ++ rest) = some (c, rest) := by
  have hMax : c.toNat < 0x110000 := by
    rcases c.valid with hLow | hHigh
    · have : c.toNat < 0xd800 := hLow
      omega
    · exact hHigh.2
  have hHigh : 0xd800 + (c.toNat - 0x10000) / 0x400 < 0xdc00 := by omega
  have hSum : 0x10000 + (0xd800 + (c.toNat - 0x10000) / 0x400 - 0xd800) * 0x400 +
      (0xdc00 + (c.toNat - 0x10000) % 0x400 - 0xdc00) = c.toNat := by omega
  rw [String.toList_append, unicodeEscape_chars (by omega), unicodeEscape_chars (by omega)]
  simp only [List.cons_append, List.nil_append, readChar]
  rw [readUnit_digits (by omega)]
  simp only [Nat.le_add_right, hHigh, and_self, if_true]
  rw [readUnit_digits (by omega)]
  simp only [Option.map_some, hSum, Char.ofNat_toNat]

theorem readChar_jsonChar (c : Char) (rest : List Char) :
    readChar ((jsonChar c).toList ++ rest) = some (c, rest) := by
  unfold jsonChar
  split_ifs with h1 h2 h3 h4 h5 h6 h7 h8 h9
  · subst h1; rfl
  · subst h2; rfl
  · subst h3; rfl
  · subst h4; rfl
  · subst h5; rfl
  · have hc : c = Char.ofNat 8 := by rw [← h6, Char.ofNat_toNat]
    subst hc; rfl
  · have hc : c = Char.ofNat 12 := by rw [← h7, Char.ofNat_toNat]
    subst hc; rfl
  · have hText : c.toString.toList = [c] := by simp [Char.toString]
    rw [hText]
    show readChar (c :: rest) = _
    rw [readChar.eq_def]
    split <;> simp_all
  · exact readChar_unit h9 rest
  · exact readChar_pair (by omega) rest

theorem unicodeEscape_cons (unit : ℕ) :
    ∃ digits, (unicodeEscape unit).toList = '\\' :: 'u' :: digits := by
  have hHead : "\\u".toList = ['\\', 'u'] := rfl
  simp only [unicodeEscape, String.toList_append, hHead, List.cons_append, List.nil_append]
  exact ⟨_, rfl⟩

theorem jsonChar_cons (c : Char) : ∃ d rest, (jsonChar c).toList = d :: rest ∧ d ≠ '"' := by
  unfold jsonChar
  split_ifs with h1 h2 h3 h4 h5 h6 h7 h8 h9
  · exact ⟨'\\', ['"'], rfl, by decide⟩
  · exact ⟨'\\', ['\\'], rfl, by decide⟩
  · exact ⟨'\\', ['n'], rfl, by decide⟩
  · exact ⟨'\\', ['r'], rfl, by decide⟩
  · exact ⟨'\\', ['t'], rfl, by decide⟩
  · exact ⟨'\\', ['b'], rfl, by decide⟩
  · exact ⟨'\\', ['f'], rfl, by decide⟩
  · exact ⟨c, [], by simp [Char.toString], h1⟩
  · obtain ⟨digits, hDigits⟩ := unicodeEscape_cons c.toNat
    exact ⟨'\\', 'u' :: digits, hDigits, by decide⟩
  · obtain ⟨digits, hDigits⟩ := unicodeEscape_cons (0xd800 + (c.toNat - 0x10000) / 0x400)
    rw [String.toList_append, hDigits]
    exact ⟨'\\', _, rfl, by decide⟩

theorem readChars_append (s : List Char) {n : ℕ} (hn : s.length < n) (rest : List Char) :
    readChars n (s.flatMap (fun c => (jsonChar c).toList) ++ '"' :: rest) = some (s, rest) := by
  induction s generalizing n with
  | nil =>
      obtain ⟨m, rfl⟩ : ∃ m, n = m + 1 := ⟨n - 1, by simp at hn; omega⟩
      simp [readChars]
  | cons c s ih =>
      obtain ⟨m, rfl⟩ : ∃ m, n = m + 1 := ⟨n - 1, by simp at hn; omega⟩
      have hText : (c :: s).flatMap (fun c => (jsonChar c).toList) ++ '"' :: rest =
          (jsonChar c).toList ++ (s.flatMap (fun c => (jsonChar c).toList) ++ '"' :: rest) := by
        simp
      have hRest := ih (n := m) (by simp at hn; omega)
      have hHead : ((jsonChar c).toList ++
          (s.flatMap (fun c => (jsonChar c).toList) ++ '"' :: rest)).head? ≠ some '"' := by
        obtain ⟨d, more, hd, hNe⟩ := jsonChar_cons c
        simp [hd, hNe]
      rw [hText, readChars, if_neg hHead, readChar_jsonChar]
      simp [hRest]

theorem jsonString_chars (s : String) :
    (jsonString s).toList = '"' :: (s.toList.flatMap (fun c => (jsonChar c).toList) ++ ['"']) := by
  have hQuote : "\"".toList = ['"'] := rfl
  simp only [jsonString, String.toList_append, hQuote, String.toList_join, List.flatMap_map,
    List.cons_append, List.nil_append]

theorem length_le_jsonString (s : String) :
    s.toList.length ≤ (s.toList.flatMap (fun c => (jsonChar c).toList)).length := by
  induction s.toList with
  | nil => simp
  | cons c rest ih =>
      obtain ⟨d, more, hd, -⟩ := jsonChar_cons c
      simp only [List.flatMap_cons, List.length_append, List.length_cons, hd] at ih ⊢
      omega

namespace Json

/-! ## Writing -/

mutual

/-- The value with the keys of its objects in order. -/
def canonical : Json → Json
  | array items => array (canonicalItems items)
  | object fields => object ((canonicalFields fields).insertionSort fun x y => x.1 ≤ y.1)
  | x => x

def canonicalItems : List Json → List Json
  | [] => []
  | x :: rest => canonical x :: canonicalItems rest

def canonicalFields : List (String × Json) → List (String × Json)
  | [] => []
  | (key, value) :: rest => (key, canonical value) :: canonicalFields rest

end

mutual

/-- The text of a value, with the keys in the order they have. -/
def chars : Json → List Char
  | null => "null".toList
  | bool b => (if b then "true" else "false").toList
  | int n => (toString n).toList
  | float x => (floatText x).toList
  | str s => (jsonString s).toList
  | array items => '[' :: sequenceChars ']' (itemChars items)
  | object fields => '\x7b' :: sequenceChars '\x7d' (fieldChars fields)

def itemChars : List Json → List (List Char)
  | [] => []
  | x :: rest => chars x :: itemChars rest

def fieldChars : List (String × Json) → List (List Char)
  | [] => []
  | (key, value) :: rest =>
      ((jsonString key).toList ++ ':' :: ' ' :: chars value) :: fieldChars rest

end

/-- `json.dumps(…, sort_keys=True)`. -/
def text (v : Json) : String := String.ofList (chars (canonical v))

def fieldText (f : String × Json) : List Char :=
  (jsonString f.1).toList ++ ':' :: ' ' :: chars f.2

theorem itemChars_eq (items : List Json) : itemChars items = items.map chars := by
  induction items with
  | nil => rfl
  | cons x rest ih => simp [itemChars, ih]

theorem fieldChars_eq (fields : List (String × Json)) :
    fieldChars fields = fields.map fieldText := by
  induction fields with
  | nil => rfl
  | cons f rest ih => simp [fieldChars, fieldText, ih]

theorem canonicalItems_eq (items : List Json) : canonicalItems items = items.map canonical := by
  induction items with
  | nil => rfl
  | cons x rest ih => simp [canonicalItems, ih]

theorem canonicalFields_eq (fields : List (String × Json)) :
    canonicalFields fields = fields.map fun f => (f.1, canonical f.2) := by
  induction fields with
  | nil => rfl
  | cons f rest ih => simp [canonicalFields, ih]

/-! ## Reading -/

section Reading

variable (read : String → Option PyFloat)

/-- The characters of numbers and literals. -/
def isWordChar (c : Char) : Bool :=
  c.isAlphanum || c = '-' || c = '+' || c = '.'

def readInt : List Char → ℤ
  | '-' :: digits => -(Nat.ofDigitChars 10 digits 0 : ℤ)
  | digits => Nat.ofDigitChars 10 digits 0

def readWord (word : List Char) : Option Json :=
  if word = [] then none
  else if word = "null".toList then some null
  else if word = "true".toList then some (bool true)
  else if word = "false".toList then some (bool false)
  else if word.all PyValue.isIntegerChar then some (int (readInt word))
  else (read (String.ofList word)).map float

/-- A value that is neither an array nor an object. -/
def readFlat : List Char → Option (Json × List Char)
  | '"' :: rest =>
      (readChars (rest.length + 1) rest).map fun r => (str (String.ofList r.1), r.2)
  | cs => (readWord read (cs.takeWhile isWordChar)).map fun v => (v, cs.dropWhile isWordChar)

def readField (value : List Char → Option (Json × List Char)) :
    List Char → Option ((String × Json) × List Char)
  | '"' :: rest =>
      match readChars (rest.length + 1) rest with
      | some (key, ':' :: ' ' :: more) =>
          (value more).map fun r => ((String.ofList key, r.1), r.2)
      | _ => none
  | _ => none

/-- Reads a value nested no deeper than the number, and gives what comes after it. -/
def readValue : ℕ → List Char → Option (Json × List Char)
  | _ + 1, '[' :: ']' :: rest => some (array [], rest)
  | n + 1, '[' :: rest =>
      (readSequence ']' (readValue n) (rest.length + 1) rest).map fun r => (array r.1, r.2)
  | _ + 1, '\x7b' :: '\x7d' :: rest => some (object [], rest)
  | n + 1, '\x7b' :: rest =>
      (readSequence '\x7d' (readField (readValue n)) (rest.length + 1) rest).map fun r =>
        (object r.1, r.2)
  | _, cs => readFlat read cs

/-- The number is read back from its text. -/
structure ReadsBack (x : PyFloat) : Prop where
  read_text : read (floatText x) = some x
  word : ∀ c ∈ (floatText x).toList, isWordChar c = true
  notLiteral : floatText x ∉ ["null", "true", "false"]

/-- A value that can be written and read: nested no deeper than the number, with numbers that
are read back and objects whose keys are distinct. -/
def Printable : ℕ → Json → Prop
  | _, float x => ReadsBack read x
  | n + 1, array items => ∀ x ∈ items, Printable n x
  | n + 1, object fields =>
      (fields.map Prod.fst).Nodup ∧ ∀ f ∈ fields, Printable n f.2
  | 0, array _ | 0, object _ => False
  | _, _ => True

end Reading

section ReadBack

variable {read : String → Option PyFloat}

theorem isWordChar_of_isIntegerChar {c : Char} (h : PyValue.isIntegerChar c = true) :
    isWordChar c = true := by
  simp only [PyValue.isIntegerChar, Bool.or_eq_true, decide_eq_true_eq] at h
  rcases h with hDigit | rfl
  · simp [isWordChar, Char.isAlphanum, hDigit]
  · rfl

theorem readInt_toString (n : ℤ) : readInt (toString n).toList = n := by
  rw [Int.toString_eq_repr, Int.repr_eq_if]
  split_ifs with h
  · -- no digit is a minus sign
    have hDigits : n.toNat.repr.toList = Nat.toDigits 10 n.toNat := Nat.toList_repr
    have hNat : readInt (Nat.toDigits 10 n.toNat) =
        (Nat.ofDigitChars 10 (Nat.toDigits 10 n.toNat) 0 : ℤ) := by
      unfold readInt
      split
      · next digits hMinus =>
          have hMem : '-' ∈ Nat.toDigits 10 n.toNat := by
            rw [hMinus]
            simp
          have hDigit := Nat.isDigit_of_mem_toDigits (by decide) (by decide) hMem
          exact absurd hDigit (by decide)
      · rfl
    rw [hDigits, hNat, Nat.ofDigitChars_ten_toDigits]
    omega
  · have hMinus : ("-" ++ (-n).toNat.repr).toList = '-' :: Nat.toDigits 10 (-n).toNat := by
      rw [String.toList_append, Nat.toList_repr]
      rfl
    rw [hMinus]
    show -(Nat.ofDigitChars 10 (Nat.toDigits 10 (-n).toNat) 0 : ℤ) = n
    rw [Nat.ofDigitChars_ten_toDigits]
    omega

theorem toString_ne_nil (n : ℤ) : (toString n).toList ≠ [] := by
  rw [Int.toString_eq_repr, Int.repr_eq_if]
  split_ifs
  · rw [Nat.toList_repr]
    exact Nat.toDigits_ne_nil
  · simp

theorem readWord_int (n : ℤ) : readWord read (toString n).toList = some (int n) := by
  have hChars := PyValue.isIntegerChar_toString n
  have hNot : ∀ word : List Char, (∃ c ∈ word, PyValue.isIntegerChar c = false) →
      (toString n).toList ≠ word := by
    rintro word ⟨c, hMem, hc⟩ hSame
    rw [← hSame] at hMem
    simp [hChars c hMem] at hc
  rw [readWord, if_neg (toString_ne_nil n), if_neg (hNot _ ⟨'n', by decide, by decide⟩),
    if_neg (hNot _ ⟨'t', by decide, by decide⟩), if_neg (hNot _ ⟨'f', by decide, by decide⟩),
    if_pos (List.all_eq_true.mpr hChars), readInt_toString]

theorem exists_mark (x : PyFloat) :
    ∃ c ∈ (floatText x).toList, PyValue.isIntegerChar c = false := by
  unfold floatText
  split_ifs
  · obtain ⟨c, hMem, hc⟩ := List.any_eq_true.mp x.marked
    simp only [Bool.or_eq_true, decide_eq_true_eq] at hc
    rcases hc with (rfl | rfl) | rfl <;> exact ⟨_, hMem, by decide⟩
  · exact ⟨'I', by decide, by decide⟩
  · exact ⟨'I', by decide, by decide⟩
  · exact ⟨'N', by decide, by decide⟩

theorem readWord_float {x : PyFloat} (h : ReadsBack read x) :
    readWord read (floatText x).toList = some (float x) := by
  obtain ⟨c, hMem, hc⟩ := exists_mark x
  have hNil : (floatText x).toList ≠ [] := List.ne_nil_of_mem hMem
  have hAll : ¬(floatText x).toList.all PyValue.isIntegerChar = true := by
    intro hAll
    simp [List.all_eq_true.mp hAll c hMem] at hc
  have hLiteral : ∀ s ∈ ["null", "true", "false"], (floatText x).toList ≠ s.toList := by
    intro s hs hSame
    rw [String.toList_inj] at hSame
    exact h.notLiteral (hSame ▸ hs)
  rw [readWord, if_neg hNil, if_neg (hLiteral "null" (by simp)), if_neg (hLiteral "true" (by simp)),
    if_neg (hLiteral "false" (by simp)), if_neg hAll, String.ofList_toList, h.read_text]
  rfl

/-- What comes after a number or a literal does not go on with it. -/
def Ends (rest : List Char) : Prop := ∀ c ∈ rest.head?, isWordChar c = false

variable {rest : List Char} {v : Json} {n : ℕ} {fields : List (String × Json)}

theorem readFlat_word {word : List Char}
    (hChars : ∀ c ∈ word, isWordChar c = true) (hRead : readWord read word = some v)
    (hEnds : Ends rest) : readFlat read (word ++ rest) = some (v, rest) := by
  have hTake : (word ++ rest).takeWhile isWordChar = word := by
    rw [List.takeWhile_append_of_pos hChars]
    cases rest with
    | nil => simp
    | cons c rest => simp [hEnds c (by simp)]
  have hDrop : (word ++ rest).dropWhile isWordChar = rest := by
    rw [List.dropWhile_append_of_pos hChars]
    cases rest with
    | nil => simp
    | cons c rest => simp [hEnds c (by simp)]
  have hWord : readFlat read (word ++ rest) =
      (readWord read ((word ++ rest).takeWhile isWordChar)).map
        fun v => (v, (word ++ rest).dropWhile isWordChar) := by
    unfold readFlat
    split
    · next more hQuote =>
        cases word with
        | nil => simp [readWord] at hRead
        | cons c word =>
            have hc := hChars c (by simp)
            obtain ⟨rfl, -⟩ := List.cons.inj hQuote
            exact absurd hc (by decide)
    · rfl
  rw [hWord, hTake, hDrop, hRead]
  rfl

theorem readFlat_string (s : String) (rest : List Char) :
    readFlat read ((jsonString s).toList ++ rest) = some (str s, rest) := by
  have hLength := length_le_jsonString s
  rw [jsonString_chars]
  simp only [List.cons_append, List.append_assoc, List.nil_append, readFlat]
  rw [readChars_append s.toList (by simp only [List.length_append, List.length_cons]; omega)]
  simp

theorem readField_fieldText {value : List Char → Option (Json × List Char)}
    {f : String × Json}
    (h : value (chars f.2 ++ rest) = some (f.2, rest)) :
    readField value (fieldText f ++ rest) = some (f, rest) := by
  have hLength := length_le_jsonString f.1
  rw [fieldText, jsonString_chars]
  simp only [List.cons_append, List.append_assoc, List.nil_append, readField]
  rw [readChars_append f.1.toList (by simp only [List.length_append, List.length_cons]; omega)]
  simp [h]

theorem chars_cons (h : Printable read n v) :
    ∃ c cs, chars v = c :: cs ∧ c ≠ ']' ∧ c ≠ '\x7d' := by
  have hWord : ∀ word : List Char, word ≠ [] → (∀ c ∈ word, isWordChar c = true) →
      ∃ c cs, word = c :: cs ∧ c ≠ ']' ∧ c ≠ '\x7d' := by
    intro word hNil hChars
    obtain ⟨c, cs, rfl⟩ := List.exists_cons_of_ne_nil hNil
    have hc := hChars c (by simp)
    refine ⟨c, cs, rfl, ?_, ?_⟩
    · rintro rfl
      exact absurd hc (by decide)
    · rintro rfl
      exact absurd hc (by decide)
  cases v with
  | null => exact ⟨'n', _, rfl, by decide, by decide⟩
  | bool b => cases b <;> exact ⟨_, _, rfl, by decide, by decide⟩
  | int n =>
      exact hWord _ (toString_ne_nil n) fun c hc =>
        isWordChar_of_isIntegerChar (PyValue.isIntegerChar_toString n c hc)
  | float x =>
      have hBack : ReadsBack read x := by cases n <;> exact h
      obtain ⟨c, hMem, -⟩ := exists_mark x
      exact hWord _ (List.ne_nil_of_mem hMem) hBack.word
  | str s => exact ⟨'"', _, jsonString_chars s, by decide, by decide⟩
  | array items => exact ⟨'[', _, rfl, by decide, by decide⟩
  | object fields => exact ⟨'\x7b', _, rfl, by decide, by decide⟩

theorem sequenceChars_cons (close : Char) {x : List Char} (rest : List (List Char)) {c : Char}
    {cs : List Char} (h : x = c :: cs) :
    ∃ more, sequenceChars close (x :: rest) = c :: more := by
  subst h
  cases rest with
  | nil => exact ⟨_, rfl⟩
  | cons y rest => exact ⟨_, rfl⟩

theorem ends_comma_or {close : Char} (hClose : close = ']' ∨ close = '\x7d') {c : Char}
    {rest : List Char} (hc : c = ',' ∨ c = close) : Ends (c :: rest) := by
  intro d hd
  obtain rfl : c = d := by simpa using hd
  rcases hc with rfl | rfl
  · rfl
  · rcases hClose with rfl | rfl <;> rfl

theorem readValue_flat (n : ℕ) {cs : List Char} (h : ∀ c ∈ cs.head?, c ≠ '[' ∧ c ≠ '\x7b') :
    readValue read n cs = readFlat read cs := by
  unfold readValue
  split
  case h_5 => rfl
  all_goals exact absurd rfl (by first | exact (h '[' rfl).1 | exact (h '\x7b' rfl).2)

theorem readValue_word (n : ℕ) {word : List Char}
    (hChars : ∀ c ∈ word, isWordChar c = true) (hRead : readWord read word = some v)
    (hEnds : Ends rest) : readValue read n (word ++ rest) = some (v, rest) := by
  rw [readValue_flat n ?_, readFlat_word hChars hRead hEnds]
  intro c hc
  cases word with
  | nil => simp [readWord] at hRead
  | cons d word =>
      obtain rfl : d = c := by simpa using hc
      have hd := hChars d (by simp)
      constructor
      · rintro rfl
        exact absurd hd (by decide)
      · rintro rfl
        exact absurd hd (by decide)

theorem readValue_leaf (h : Printable read n v)
    (hArray : ∀ items, v ≠ array items) (hObject : ∀ fields, v ≠ object fields)
    (hEnds : Ends rest) :
    readValue read n (chars v ++ rest) = some (v, rest) := by
  cases v with
  | null => exact readValue_word n (List.all_eq_true.mp rfl) rfl hEnds
  | bool b => cases b <;> exact readValue_word n (List.all_eq_true.mp rfl) rfl hEnds
  | int n =>
      exact readValue_word _ (fun c hc => isWordChar_of_isIntegerChar
        (PyValue.isIntegerChar_toString n c hc)) (readWord_int n) hEnds
  | float x =>
      have hBack : ReadsBack read x := by cases n <;> exact h
      exact readValue_word n hBack.word (readWord_float hBack) hEnds
  | str s =>
      rw [readValue_flat n ?_]
      · exact readFlat_string s rest
      · intro c hc
        rw [chars, jsonString_chars] at hc
        obtain rfl : '"' = c := by simpa using hc
        decide
  | array items => exact absurd rfl (hArray items)
  | object fields => exact absurd rfl (hObject fields)

theorem readValue_array (n : ℕ) {items : List Json} (hPrintable : ∀ x ∈ items, Printable read n x)
    (ih : ∀ x ∈ items, ∀ rest, Ends rest → readValue read n (chars x ++ rest) = some (x, rest))
    (rest : List Char) :
    readValue read (n + 1) (chars (array items) ++ rest) = some (array items, rest) := by
  rw [chars, itemChars_eq]
  cases items with
  | nil => rfl
  | cons x items =>
      obtain ⟨c, cs, hc, hNe, -⟩ := chars_cons (hPrintable x (by simp))
      obtain ⟨more, hMore⟩ := sequenceChars_cons ']' (items.map chars) hc
      have hSequence := readSequence_sequenceChars (by decide) (readValue read n) chars
        (List.cons_ne_nil x items)
        (fun y hy c rest hc => ih y hy _ (ends_comma_or (Or.inl rfl) hc))
        (n := (sequenceChars ']' ((x :: items).map chars) ++ rest).length + 1)
        (by
          have hLength := length_le_sequenceChars ']' ((x :: items).map chars)
          simp only [List.length_append, List.length_map] at hLength ⊢
          omega) rest
      rw [List.map_cons, hMore] at hSequence ⊢
      show readValue read (n + 1) ('[' :: c :: (more ++ rest)) = _
      rw [readValue]
      · rw [List.cons_append] at hSequence
        rw [hSequence]
        rfl
      · rintro other hSame
        exact hNe (List.cons.inj hSame).1

theorem readValue_object (n : ℕ)
    (ih : ∀ f ∈ fields, ∀ rest, Ends rest →
      readValue read n (chars f.2 ++ rest) = some (f.2, rest))
    (rest : List Char) :
    readValue read (n + 1) (chars (object fields) ++ rest) = some (object fields, rest) := by
  rw [chars, fieldChars_eq]
  cases fields with
  | nil => rfl
  | cons f fields =>
      have hc : fieldText f = '"' :: (fieldText f).tail := by
        rw [fieldText, jsonString_chars]
        rfl
      obtain ⟨more, hMore⟩ :=
        sequenceChars_cons '\x7d' (fields.map fieldText) hc
      have hSequence := readSequence_sequenceChars (by decide) (readField (readValue read n))
        fieldText (List.cons_ne_nil f fields)
        (fun g hg c rest hc => readField_fieldText (ih g hg _ (ends_comma_or (Or.inr rfl) hc)))
        (n := (sequenceChars '\x7d' ((f :: fields).map fieldText) ++ rest).length + 1)
        (by
          have hLength := length_le_sequenceChars '\x7d' ((f :: fields).map fieldText)
          simp only [List.length_append, List.length_map] at hLength ⊢
          omega) rest
      rw [List.map_cons, hMore] at hSequence ⊢
      show readValue read (n + 1) ('\x7b' :: '"' :: (more ++ rest)) = _
      rw [readValue]
      · rw [List.cons_append] at hSequence
        rw [hSequence]
        rfl
      · rintro other hSame
        exact absurd (List.cons.inj hSame).1 (by decide)

theorem readValue_chars (h : Printable read n v)
    (hEnds : Ends rest) : readValue read n (chars v ++ rest) = some (v, rest) := by
  induction n generalizing v rest with
  | zero =>
      cases v with
      | array items => exact h.elim
      | object fields => exact h.elim
      | _ => exact readValue_leaf h (by simp) (by simp) hEnds
  | succ n ih =>
      cases v with
      | array items => exact readValue_array n h (fun x hx rest hEnds => ih (h x hx) hEnds) rest
      | object fields =>
          exact readValue_object n (fun f hf rest hEnds => ih (h.2 f hf) hEnds) rest
      | _ => exact readValue_leaf h (by simp) (by simp) hEnds

/-! ## The text of a value -/

@[simp] theorem lookup_cons (key k : String) (v : Json) (rest : List (String × Json)) :
    lookup key ((k, v) :: rest) = if k = key then some v else lookup key rest := rfl

@[simp] theorem lookup_nil (key : String) : lookup key [] = none := rfl

theorem lookup_eq_some_iff (hNodup : (fields.map Prod.fst).Nodup)
    {key : String} : lookup key fields = some v ↔ (key, v) ∈ fields := by
  induction fields with
  | nil => simp [lookup]
  | cons f rest ih =>
      obtain ⟨k, x⟩ := f
      rw [List.map_cons, List.nodup_cons] at hNodup
      by_cases hKey : k = key
      · subst hKey
        have hNot : (k, v) ∉ rest := fun hMem =>
          hNodup.1 (List.mem_map.mpr ⟨(k, v), hMem, rfl⟩)
        simp [lookup, hNot, eq_comm]
      · simp [lookup, hKey, ih hNodup.2, Ne.symm hKey]

theorem lookup_perm {fields' : List (String × Json)} (h : fields.Perm fields')
    (hNodup : (fields.map Prod.fst).Nodup) (key : String) :
    lookup key fields = lookup key fields' := by
  have hNodup' : (fields'.map Prod.fst).Nodup := (h.map Prod.fst).nodup_iff.mp hNodup
  ext v
  rw [lookup_eq_some_iff hNodup, lookup_eq_some_iff hNodup', h.mem_iff]

theorem lookup_map_canonical (key : String) (fields : List (String × Json)) :
    lookup key (canonicalFields fields) = (lookup key fields).map canonical := by
  induction fields with
  | nil => rfl
  | cons f rest ih =>
      obtain ⟨k, x⟩ := f
      by_cases hKey : k = key
      · simp [canonicalFields, lookup, hKey]
      · simp [canonicalFields, lookup, hKey, ih]

theorem keys_canonicalFields (fields : List (String × Json)) :
    (canonicalFields fields).map Prod.fst = fields.map Prod.fst := by
  rw [canonicalFields_eq, List.map_map]
  rfl

/-- The fields of an object in order. -/
def sortedFields (fields : List (String × Json)) : List (String × Json) :=
  (canonicalFields fields).insertionSort fun x y => x.1 ≤ y.1

theorem canonical_object (fields : List (String × Json)) :
    canonical (object fields) = object (sortedFields fields) := rfl

theorem canonical_array (items : List Json) :
    canonical (array items) = array (items.map canonical) := by
  rw [canonical, canonicalItems_eq]

theorem lookup_sortedFields
    (hNodup : (fields.map Prod.fst).Nodup) (key : String) :
    lookup key (sortedFields fields) = (lookup key fields).map canonical := by
  rw [← lookup_map_canonical]
  have hKeys : ((sortedFields fields).map Prod.fst).Nodup := by
    rw [sortedFields, ((List.perm_insertionSort _ _).map Prod.fst).nodup_iff,
      keys_canonicalFields]
    exact hNodup
  exact lookup_perm (List.perm_insertionSort _ _) hKeys key

theorem Printable.canonical (h : Printable read n v) :
    Printable read n v.canonical := by
  induction n generalizing v with
  | zero =>
      cases v with
      | array items => exact h.elim
      | object fields => exact h.elim
      | _ => exact h
  | succ n ih =>
      cases v with
      | array items =>
          rw [canonical_array]
          intro x hx
          obtain ⟨y, hy, rfl⟩ := List.mem_map.mp hx
          exact ih (h y hy)
      | object fields =>
          rw [canonical_object]
          have hPerm : (sortedFields fields).Perm (canonicalFields fields) :=
            List.perm_insertionSort _ _
          constructor
          · rw [(hPerm.map Prod.fst).nodup_iff, keys_canonicalFields]
            exact h.1
          · intro f hf
            rw [hPerm.mem_iff, canonicalFields_eq] at hf
            obtain ⟨g, hg, rfl⟩ := List.mem_map.mp hf
            exact ih (h.2 g hg)
      | _ => exact h

theorem readValue_text (h : Printable read n v) :
    readValue read n (text v).toList = some (v.canonical, []) := by
  have hEnds : Ends [] := by simp [Ends]
  have hRead := readValue_chars h.canonical hEnds
  rw [List.append_nil] at hRead
  rw [text, String.toList_ofList, hRead]

theorem canonical_eq_of_text_eq {w : Json} (hv : Printable read n v)
    (hw : Printable read n w) (h : text v = text w) : v.canonical = w.canonical := by
  have hRead := readValue_text hv
  rw [h, readValue_text hw] at hRead
  exact (Prod.mk.inj (Option.some.inj hRead)).1.symm

theorem sum_length_le_sequenceChars (close : Char) (items : List (List Char)) :
    (items.map List.length).sum ≤ (sequenceChars close items).length := by
  induction items with
  | nil => simp
  | cons x rest ih =>
      cases rest with
      | nil => simp [sequenceChars]
      | cons y rest =>
          simp only [sequenceChars, List.map_cons, List.sum_cons, List.length_append,
            List.length_cons] at ih ⊢
          omega

theorem length_le_text (fields : List (String × Json)) :
    4 * fields.length ≤ (text (object fields)).toList.length := by
  have hLength : (sortedFields fields).length = fields.length := by
    rw [sortedFields, List.length_insertionSort, canonicalFields_eq, List.length_map]
  have hField : ∀ f : String × Json, 4 ≤ (fieldText f).length := by
    intro f
    rw [fieldText, jsonString_chars]
    simp only [List.length_append, List.length_cons]
    omega
  have hSum : ∀ more : List (String × Json),
      4 * more.length ≤ ((more.map fieldText).map List.length).sum := by
    intro more
    induction more with
    | nil => simp
    | cons f rest ih =>
        have hHead := hField f
        simp only [List.map_cons, List.sum_cons, List.length_cons]
        omega
  have hItems := sum_length_le_sequenceChars '\x7d' ((sortedFields fields).map fieldText)
  have hFields := hSum (sortedFields fields)
  rw [text, String.toList_ofList, canonical_object, chars, fieldChars_eq, List.length_cons]
  omega

theorem text_object_cons (fields : List (String × Json)) :
    ∃ rest, (text (object fields)).toList = '\x7b' :: rest := by
  rw [text, String.toList_ofList, canonical_object, chars]
  exact ⟨_, rfl⟩

end ReadBack

end Json

end Prsm.Foundations
