import Mathlib.Tactic

/-!
# Untyped values of a message

A field of a decoded JSON message can hold any value.  `PyValue` keeps what a Python
program can tell of one: its text under `str`, its equality, its truth, and its number
if it is one.  Lists and dictionaries are kept by their text and by what `==` compares.
-/

namespace Prsm.Foundations

/-- A floating-point number: its text, and its exact value unless it is infinite or not
a number.  The text is not that of an integer. -/
structure PyFloat where
  text : String
  value : Option ℚ
  marked : text.toList.any (fun c => c = '.' || c = 'e' || c = 'n') = true
  plain : text.toList.all (fun c => c ≠ '|') = true
  deriving DecidableEq

theorem marked_zero : "0.0".toList.any (fun c => c = '.' || c = 'e' || c = 'n') = true := rfl

theorem plain_zero : "0.0".toList.all (fun c => c ≠ '|') = true := rfl

inductive PyValue
  | none
  | bool (b : Bool)
  | int (n : ℤ)
  | float (x : PyFloat)
  | str (s : String)
  | composite (text key : String) (isEmpty : Bool)
  deriving DecidableEq

namespace PyValue

/-- `str(x)`, which is also what an f-string inserts. -/
def text : PyValue → String
  | none => "None"
  | bool true => "True"
  | bool false => "False"
  | int n => toString n
  | float x => x.text
  | str s => s
  | composite text _ _ => text

@[simp] theorem text_int (n : ℤ) : (int n).text = toString n := rfl

@[simp] theorem text_str (s : String) : (str s).text = s := rfl

/-- The exact number that a value is, for comparisons. -/
def number : PyValue → Option ℚ
  | bool b => some (if b then 1 else 0)
  | int n => some n
  | float x => x.value
  | _ => Option.none

/-- `==`: numbers are compared by value, whatever their types. -/
def pyEq (x y : PyValue) : Bool :=
  match x, y with
  | none, none => true
  | str s, str t => s = t
  | composite _ key _, composite _ key' _ => key = key'
  | x, y =>
      match x.number, y.number with
      | some q, some q' => q = q'
      | _, _ => false

/-- `bool(x)`. -/
def truthy : PyValue → Bool
  | none => false
  | bool b => b
  | int n => n ≠ 0
  | float x => x.value ≠ some 0
  | str s => s ≠ ""
  | composite _ _ isEmpty => !isEmpty

theorem pyEq_str {s : String} {x : PyValue} (h : pyEq (str s) x = true) : x = str s := by
  cases x with
  | str t => rw [of_decide_eq_true h]
  | _ => simp [pyEq, number] at h

theorem eq_str_of_pyEq {s : String} {x : PyValue} (h : pyEq x (str s) = true) : x = str s := by
  cases x with
  | str t => rw [of_decide_eq_true h]
  | _ => simp [pyEq, number] at h

theorem pyEq_int {n : ℤ} {x : PyValue} (h : pyEq (int n) x = true) :
    x = int n ∨ (∃ b, x = bool b) ∨ ∃ y, x = float y := by
  cases x with
  | int m =>
      have hSame : (n : ℚ) = m := of_decide_eq_true h
      rw [Int.cast_inj.mp hSame]
      exact Or.inl rfl
  | bool b => exact Or.inr (Or.inl ⟨b, rfl⟩)
  | float y => exact Or.inr (Or.inr ⟨y, rfl⟩)
  | _ => simp [pyEq, number] at h

@[simp] theorem pyEq_self_str (s : String) : pyEq (str s) (str s) = true := by simp [pyEq]

@[simp] theorem pyEq_self_int (n : ℤ) : pyEq (int n) (int n) = true := by simp [pyEq, number]

/-! ## The text of an integer -/

/-- The characters of an integer's text. -/
def isIntegerChar (c : Char) : Bool :=
  c.isDigit || c = '-'

theorem isIntegerChar_natRepr (n : ℕ) : ∀ c ∈ n.repr.toList, isIntegerChar c = true := by
  intro c hc
  have hDigit : c ∈ Nat.toDigits 10 n := by simpa [Nat.repr] using hc
  simp [isIntegerChar, Nat.isDigit_of_mem_toDigits (by decide) (by decide) hDigit]

theorem isIntegerChar_toString (n : ℤ) : ∀ c ∈ (toString n).toList, isIntegerChar c = true := by
  rw [Int.toString_eq_repr, Int.repr_eq_if]
  split
  · exact isIntegerChar_natRepr n.toNat
  · intro c hc
    rw [String.toList_append] at hc
    rcases List.mem_append.mp hc with hMinus | hDigits
    · have hSame : c = '-' := by simpa using hMinus
      simp [isIntegerChar, hSame]
    · exact isIntegerChar_natRepr (-n).toNat c hDigits

theorem bar_notMem_toString (n : ℤ) : '|' ∉ (toString n).toList := fun h =>
  absurd (isIntegerChar_toString n '|' h) (by decide)

theorem text_ne_toString {x : PyValue} (h : (∃ b, x = bool b) ∨ ∃ y, x = float y) (n : ℤ) :
    '|' ∉ x.text.toList ∧ x.text ≠ toString n := by
  rcases h with ⟨b, rfl⟩ | ⟨y, rfl⟩
  · have hFirst : ∀ c ∈ ['T', 'F'], c ∉ (toString n).toList := by
      intro c hc hMem
      have hInteger := isIntegerChar_toString n c hMem
      fin_cases hc <;> exact absurd hInteger (by decide)
    cases b with
    | true =>
        refine ⟨by decide, fun hSame => hFirst 'T' (by simp) ?_⟩
        rw [← hSame]
        decide
    | false =>
        refine ⟨by decide, fun hSame => hFirst 'F' (by simp) ?_⟩
        rw [← hSame]
        decide
  · refine ⟨fun hBar => ?_, fun hSame => ?_⟩
    · have hPlain := List.all_eq_true.mp y.plain '|' hBar
      simp at hPlain
    · obtain ⟨c, hc, hMark⟩ := List.any_eq_true.mp y.marked
      have hMem : c ∈ (toString n).toList := by
        rw [← hSame]
        exact hc
      have hInteger := isIntegerChar_toString n c hMem
      simp only [Bool.or_eq_true, decide_eq_true_eq] at hMark
      rcases hMark with (rfl | rfl) | rfl <;> exact absurd hInteger (by decide)

end PyValue
end Prsm.Foundations

/-!
# Decoded JSON

A value as `json.loads` gives it, what Python can tell of it, and `json.dumps` with sorted
keys.
-/

namespace Prsm.Foundations

/-! ## Strings -/

/-- The escape `\uXXXX` of a code unit. -/
def unicodeEscape (unit : ℕ) : String :=
  let digits := Nat.toDigits 16 unit
  "\\u" ++ String.ofList (List.replicate (4 - digits.length) '0' ++ digits)

/-- A character in a string, with everything but printable ASCII escaped. -/
def jsonChar (c : Char) : String :=
  if c = '"' then "\\\""
  else if c = '\\' then "\\\\"
  else if c = '\n' then "\\n"
  else if c = '\r' then "\\r"
  else if c = '\t' then "\\t"
  else if c.toNat = 8 then "\\b"
  else if c.toNat = 12 then "\\f"
  else if 32 ≤ c.toNat ∧ c.toNat ≤ 126 then c.toString
  else if c.toNat < 0x10000 then unicodeEscape c.toNat
  else
    unicodeEscape (0xd800 + (c.toNat - 0x10000) / 0x400) ++
      unicodeEscape (0xdc00 + (c.toNat - 0x10000) % 0x400)

def jsonString (s : String) : String :=
  "\"" ++ String.join (s.toList.map jsonChar) ++ "\""

/-- A value; the keys of an object are distinct and in the order they were read in. -/
inductive Json
  | null
  | bool (b : Bool)
  | int (n : ℤ)
  | float (x : PyFloat)
  | str (s : String)
  | array (items : List Json)
  | object (fields : List (String × Json))

namespace Json

/-- `bool(x)`. -/
def truthy : Json → Bool
  | null => false
  | bool b => b
  | int n => n ≠ 0
  | float x => x.value ≠ some 0
  | str s => s ≠ ""
  | array items => !items.isEmpty
  | object fields => !fields.isEmpty

/-- Whether the value can be a key of a dictionary. -/
def hashable : Json → Bool
  | array _ | object _ => false
  | _ => true

/-- Whether `x[:8]` is a value. -/
def sliceable : Json → Bool
  | str _ | array _ => true
  | _ => false

/-- The exact number that a value is. -/
def number : Json → Option ℚ
  | bool b => some (if b then 1 else 0)
  | int n => some n
  | float x => x.value
  | _ => none

/-- The value of a key, the first one in the list. -/
def lookup (key : String) : List (String × Json) → Option Json
  | [] => none
  | (k, value) :: rest => if k = key then some value else lookup key rest

/-- `d.get(key, default)`. -/
def field (fields : List (String × Json)) (key : String) (default : Json) : Json :=
  (lookup key fields).getD default

/-- A number in the text of `json.dumps`. -/
def floatText (x : PyFloat) : String :=
  if x.value.isSome then x.text
  else if x.text = "inf" then "Infinity"
  else if x.text = "-inf" then "-Infinity"
  else "NaN"

mutual

/-- `==`: numbers by value, objects whatever the order of their keys. -/
def pyEq : Json → Json → Bool
  | null, null => true
  | str s, str t => s = t
  | array xs, array ys => pyEqItems xs ys
  | object fs, object gs => fs.length = gs.length && pyEqFields fs gs
  | bool b, y => y.number = some (if b then 1 else 0)
  | int n, y => y.number = some (n : ℚ)
  | float x, y =>
      match x.value with
      | some q => y.number = some q
      | none => match y with
        | float x' => x'.value.isNone && x.text = x'.text
        | _ => false
  | _, _ => false

def pyEqItems : List Json → List Json → Bool
  | [], [] => true
  | x :: xs, y :: ys => pyEq x y && pyEqItems xs ys
  | _, _ => false

/-- Every field is one of the others. -/
def pyEqFields : List (String × Json) → List (String × Json) → Bool
  | [], _ => true
  | (key, value) :: rest, gs =>
      (match lookup key gs with
        | some other => pyEq value other
        | none => false) && pyEqFields rest gs

end

mutual

/-- `json.dumps(…, sort_keys=True, separators=(",", ":"))`. -/
def dumps : Json → String
  | null => "null"
  | bool b => if b then "true" else "false"
  | int n => toString n
  | float x => floatText x
  | str s => jsonString s
  | array items => "[" ++ ",".intercalate (dumpItems items) ++ "]"
  | object fields =>
      let sorted := (dumpFields fields).insertionSort fun x y => x.1 ≤ y.1
      let items := sorted.map fun x => jsonString x.1 ++ ":" ++ x.2
      "\x7b" ++ ",".intercalate items ++ "\x7d"

def dumpItems : List Json → List String
  | [] => []
  | x :: rest => dumps x :: dumpItems rest

def dumpFields : List (String × Json) → List (String × String)
  | [] => []
  | (key, value) :: rest => (key, dumps value) :: dumpFields rest

end

example : dumps (object [("b", array [int 1, bool true]), ("a", str "x\"")]) =
    "\x7b\"a\":\"x\\\"\",\"b\":[1,true]\x7d" := by decide +kernel

end Json

end Prsm.Foundations
