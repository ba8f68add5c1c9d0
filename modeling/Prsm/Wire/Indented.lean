import Prsm.Wire.Python

/-!
# JSON text with line breaks

`json.dumps(…, sort_keys=True, indent=2)`, which the index files are written with.  Dropping the
line breaks and the indentation gives the text on one line, so a reader of that text reads this
one too.
-/

namespace Prsm.Wire

open Foundations
open Foundations.Json (Printable ReadsBack chars fieldText isWordChar)
open Settlement (utf8)

/-! ## Writing -/

def lineBreak (level : ℕ) : List Char := '\n' :: List.replicate (2 * level) ' '

/-- The items between two brackets, each on a line of its own. -/
def blockChars (level : ℕ) (close : Char) : List (List Char) → List Char
  | [] => [close]
  | [x] => lineBreak (level + 1) ++ (x ++ (lineBreak level ++ [close]))
  | x :: y :: rest => lineBreak (level + 1) ++ (x ++ ',' :: blockChars level close (y :: rest))

mutual

def indentedChars (level : ℕ) : Json → List Char
  | .array items => '[' :: blockChars level ']' (indentedItems (level + 1) items)
  | .object fields => '\x7b' :: blockChars level '\x7d' (indentedFields (level + 1) fields)
  | .null => chars .null
  | .bool b => chars (.bool b)
  | .int n => chars (.int n)
  | .float x => chars (.float x)
  | .str s => chars (.str s)

def indentedItems (level : ℕ) : List Json → List (List Char)
  | [] => []
  | x :: rest => indentedChars level x :: indentedItems level rest

def indentedFields (level : ℕ) : List (String × Json) → List (List Char)
  | [] => []
  | (key, value) :: rest =>
      ((jsonString key).toList ++ ':' :: ' ' :: indentedChars level value) ::
        indentedFields level rest

end

def indentedField (level : ℕ) (f : String × Json) : List Char :=
  (jsonString f.1).toList ++ ':' :: ' ' :: indentedChars level f.2

theorem indentedItems_eq (level : ℕ) (items : List Json) :
    indentedItems level items = items.map (indentedChars level) := by
  induction items with
  | nil => rfl
  | cons x rest ih => simp [indentedItems, ih]

theorem indentedFields_eq (level : ℕ) (fields : List (String × Json)) :
    indentedFields level fields = fields.map (indentedField level) := by
  induction fields with
  | nil => rfl
  | cons f rest ih => simp [indentedFields, indentedField, ih]

/-- `json.dumps(…, sort_keys=True, indent=2)`. -/
def indentedText (v : Json) : String := String.ofList (indentedChars 0 v.canonical)

/-- `json.loads` reads what is written with line breaks. -/
def Python.ReadsIndented (py : Python) (read : String → Option PyFloat) : Prop :=
  ∀ v, Printable read 4 v → py.loads (utf8 (indentedText v)) = .ok v.canonical

/-! ## Reading -/

namespace Sample

/-- The text without line breaks and indentation; the flag says that spaces are skipped. -/
def compact : Bool → List Char → List Char
  | _, [] => []
  | skipping, c :: rest =>
      if c = '\n' then compact true rest
      else if skipping = true ∧ c = ' ' then compact true rest
      else if c = ',' ∧ rest.head? = some '\n' then ',' :: ' ' :: compact false rest
      else c :: compact false rest

theorem compact_spaces (n : ℕ) (rest : List Char) :
    compact true (List.replicate n ' ' ++ rest) = compact true rest := by
  induction n with
  | zero => rfl
  | succ n ih =>
      rw [List.replicate_succ, List.cons_append, compact]
      simpa using ih

theorem compact_lineBreak (skipping : Bool) (level : ℕ) {c : Char} (hSpace : c ≠ ' ')
    (rest : List Char) :
    compact skipping (lineBreak level ++ c :: rest) = compact false (c :: rest) := by
  rw [lineBreak, List.cons_append, compact, if_pos rfl, compact_spaces]
  simp [compact, hSpace]

theorem compact_plain {cs : List Char} (hBreak : '\n' ∉ cs) (hLast : cs.getLast? ≠ some ',')
    (rest : List Char) : compact false (cs ++ rest) = cs ++ compact false rest := by
  induction cs with
  | nil => rfl
  | cons c cs ih =>
      have hc : c ≠ '\n' := fun h => hBreak (by simp [h])
      have hNext : ¬(c = ',' ∧ (cs ++ rest).head? = some '\n') := by
        rintro ⟨rfl, hHead⟩
        cases cs with
        | nil => exact hLast rfl
        | cons d cs =>
            obtain rfl : d = '\n' := by simpa using hHead
            exact hBreak (by simp)
      have hLast' : cs.getLast? ≠ some ',' := by
        cases cs with
        | nil => simp
        | cons d cs => simpa using hLast
      rw [List.cons_append, compact, if_neg hc, if_neg (by simp), if_neg hNext,
        ih (fun h => hBreak (by simp [h])) hLast', List.cons_append]

/-- A text in either form, which starts with neither a space nor a line break. -/
structure Compacts (indented plain : List Char) : Prop where
  start : ∃ c cs, indented = c :: cs ∧ c ≠ ' '
  compact_eq : ∀ rest, compact false (indented ++ rest) = plain ++ compact false rest

theorem compact_block {α : Type} (level : ℕ) {close : Char}
    (hClose : close = ']' ∨ close = '\x7d') {indented plain : α → List Char} {items : List α}
    (h : ∀ x ∈ items, Compacts (indented x) (plain x)) (rest : List Char) :
    compact false (blockChars level close (items.map indented) ++ rest) =
      sequenceChars close (items.map plain) ++ compact false rest := by
  have hEnd : ∀ more, compact false (close :: more) = close :: compact false more := by
    intro more
    rcases hClose with rfl | rfl <;> simp [compact]
  have hSpace : close ≠ ' ' := by rcases hClose with rfl | rfl <;> decide
  induction items with
  | nil => exact hEnd rest
  | cons x items ih =>
      obtain ⟨⟨c, cs, hStart, hc⟩, hCompact⟩ := h x (by simp)
      cases items with
      | nil =>
          have hText : blockChars level close ([x].map indented) ++ rest =
              lineBreak (level + 1) ++ (indented x ++ (lineBreak level ++ close :: rest)) := by
            simp [blockChars]
          rw [hText, hStart, List.cons_append, compact_lineBreak _ _ hc, ← List.cons_append,
            ← hStart, hCompact, compact_lineBreak _ _ hSpace, hEnd]
          simp [sequenceChars]
      | cons y items =>
          have hRest := ih fun z hz => h z (by simp [hz])
          have hText : blockChars level close ((x :: y :: items).map indented) ++ rest =
              lineBreak (level + 1) ++ (indented x ++
                ',' :: (blockChars level close ((y :: items).map indented) ++ rest)) := by
            simp [blockChars]
          have hBreak : (blockChars level close ((y :: items).map indented) ++ rest).head? =
              some '\n' := by
            cases items <;> rfl
          rw [hText, hStart, List.cons_append, compact_lineBreak _ _ hc, ← List.cons_append,
            ← hStart, hCompact, compact, if_neg (by decide), if_neg (by simp),
            if_pos ⟨rfl, hBreak⟩, hRest]
          simp [sequenceChars]

/-! ### Texts without line breaks -/

theorem plain_word {word : List Char} (h : ∀ c ∈ word, isWordChar c = true) :
    '\n' ∉ word ∧ word.getLast? ≠ some ',' ∧ ' ' ∉ word := by
  have hNot : ∀ c, isWordChar c = false → c ∉ word := by
    intro c hc hMem
    rw [h c hMem] at hc
    cases hc
  refine ⟨hNot '\n' rfl, ?_, hNot ' ' rfl⟩
  intro hLast
  exact hNot ',' rfl (List.mem_of_getLast? hLast)

theorem compacts_word {w : List Char} (hNil : w ≠ [])
    (h : ∀ c ∈ w, isWordChar c = true) : Compacts w w := by
  obtain ⟨hBreak, hLast, hSpace⟩ := plain_word h
  obtain ⟨c, cs, rfl⟩ := List.exists_cons_of_ne_nil hNil
  constructor
  · exact ⟨c, cs, rfl, fun hc => hSpace (by simp [hc])⟩
  · exact compact_plain hBreak hLast

theorem digitChar_ne_break : ∀ n < 16, '\n' ≠ Nat.digitChar n := by decide

theorem break_notMem_escape {unit : ℕ} (h : unit < 0x10000) :
    '\n' ∉ (unicodeEscape unit).toList := by
  have h1 := digitChar_ne_break (unit / 4096) (by omega)
  have h2 := digitChar_ne_break (unit / 256 % 16) (by omega)
  have h3 := digitChar_ne_break (unit / 16 % 16) (by omega)
  have h4 := digitChar_ne_break (unit % 16) (by omega)
  rw [unicodeEscape_chars h]
  simp [h1, h2, h3, h4]

theorem break_notMem_jsonChar (c : Char) : '\n' ∉ (jsonChar c).toList := by
  have hMax : c.toNat < 0x110000 := by
    rcases c.valid with hLow | hHigh
    · have : c.toNat < 0xd800 := hLow
      omega
    · exact hHigh.2
  unfold jsonChar
  split_ifs with h1 h2 h3 h4 h5 h6 h7 h8 h9
  · decide
  · decide
  · decide
  · decide
  · decide
  · decide
  · decide
  · simpa [Char.toString] using fun h => h3 h.symm
  · exact break_notMem_escape h9
  · rw [String.toList_append, List.mem_append]
    rintro (h | h)
    · exact break_notMem_escape (by omega) h
    · exact break_notMem_escape (by omega) h

theorem break_notMem_jsonString (s : String) : '\n' ∉ (jsonString s).toList := by
  rw [jsonString_chars]
  intro h
  rcases List.mem_cons.mp h with hQuote | h
  · exact absurd hQuote (by decide)
  rcases List.mem_append.mp h with h | hQuote
  · obtain ⟨c, -, hc⟩ := List.mem_flatMap.mp h
    exact break_notMem_jsonChar c hc
  · exact absurd (List.mem_singleton.mp hQuote) (by decide)

theorem getLast_jsonString (s : String) : (jsonString s).toList.getLast? = some '"' := by
  rw [jsonString_chars, ← List.cons_append, List.getLast?_append]
  rfl

theorem compacts_string (s : String) : Compacts (jsonString s).toList (jsonString s).toList := by
  constructor
  · exact ⟨'"', _, jsonString_chars s, by decide⟩
  · exact compact_plain (break_notMem_jsonString s) (by simp [getLast_jsonString])

/-! ### Values -/

variable {read : String → Option PyFloat}

theorem compacts_leaf {n : ℕ} {v : Json} (h : Printable read n v)
    (hArray : ∀ items, v ≠ .array items) (hObject : ∀ fields, v ≠ .object fields) :
    Compacts (chars v) (chars v) := by
  cases v with
  | null => exact compacts_word (w := "null".toList) (by decide) (List.all_eq_true.mp rfl)
  | bool b =>
      cases b with
      | true => exact compacts_word (w := "true".toList) (by decide) (List.all_eq_true.mp rfl)
      | false => exact compacts_word (w := "false".toList) (by decide) (List.all_eq_true.mp rfl)
  | int n =>
      exact compacts_word (Json.toString_ne_nil n) fun c hc =>
        Json.isWordChar_of_isIntegerChar (PyValue.isIntegerChar_toString n c hc)
  | float x =>
      have hBack : ReadsBack read x := by cases n <;> exact h
      obtain ⟨c, hMem, -⟩ := Json.exists_mark x
      exact compacts_word (List.ne_nil_of_mem hMem) hBack.word
  | str s => exact compacts_string s
  | array items => exact absurd rfl (hArray items)
  | object fields => exact absurd rfl (hObject fields)

theorem compacts_bracket {bracket : Char} (hSpace : bracket ≠ ' ') (hBreak : bracket ≠ '\n')
    (hComma : bracket ≠ ',') {indented plain : List Char}
    (h : ∀ rest, compact false (indented ++ rest) = plain ++ compact false rest) :
    Compacts (bracket :: indented) (bracket :: plain) := by
  constructor
  · exact ⟨bracket, indented, rfl, hSpace⟩
  · intro rest
    rw [List.cons_append, compact, if_neg hBreak, if_neg (by simp), if_neg (by simp [hComma]), h,
      List.cons_append]

theorem compacts_field {level : ℕ} {f : String × Json}
    (h : Compacts (indentedChars level f.2) (chars f.2)) :
    Compacts (indentedField level f) (fieldText f) := by
  obtain ⟨c, cs, hStart, hc⟩ := (compacts_string f.1).start
  constructor
  · exact ⟨c, cs ++ ':' :: ' ' :: indentedChars level f.2, by simp [indentedField, hStart], hc⟩
  · intro rest
    have hKey := (compacts_string f.1).compact_eq
      (':' :: ' ' :: (indentedChars level f.2 ++ rest))
    have hColon : compact false (':' :: ' ' :: (indentedChars level f.2 ++ rest)) =
        ':' :: ' ' :: compact false (indentedChars level f.2 ++ rest) := by
      simp [compact]
    rw [hColon, h.compact_eq] at hKey
    have hText : indentedField level f ++ rest =
        (jsonString f.1).toList ++ ':' :: ' ' :: (indentedChars level f.2 ++ rest) := by
      simp [indentedField]
    rw [hText, hKey]
    simp [fieldText]

theorem compacts_indentedChars {n : ℕ} {v : Json} (h : Printable read n v) (level : ℕ) :
    Compacts (indentedChars level v) (chars v) := by
  induction n generalizing v level with
  | zero =>
      cases v with
      | array items => exact h.elim
      | object fields => exact h.elim
      | _ => exact compacts_leaf h (by simp) (by simp)
  | succ n ih =>
      cases v with
      | array items =>
          rw [indentedChars, chars, indentedItems_eq, Json.itemChars_eq]
          exact compacts_bracket (by decide) (by decide) (by decide)
            (compact_block level (Or.inl rfl) fun x hx => ih (h x hx) (level + 1))
      | object fields =>
          rw [indentedChars, chars, indentedFields_eq, Json.fieldChars_eq]
          exact compacts_bracket (by decide) (by decide) (by decide)
            (compact_block level (Or.inr rfl) fun f hf =>
              compacts_field (ih (h.2 f hf) (level + 1)))
      | _ => exact compacts_leaf h (by simp) (by simp)

/-! ### A reader of both forms -/

def loadsFile (payload : Evm.Bytes) : Except LoadError Json :=
  match decodeUtf8 payload with
  | none => .error .unicodeDecodeError
  | some s =>
      match Json.readValue readFloat 4 (compact false s.toList) with
      | some (v, []) => .ok v
      | _ => .error .jsonDecodeError

def filePython : Python := { python with loads := loadsFile }

theorem filePython_readsIndented : filePython.ReadsIndented readFloat := by
  intro v hv
  have hCompact := (compacts_indentedChars hv.canonical 0).compact_eq []
  have hEnds : Json.Ends [] := by simp [Json.Ends]
  have hRead := Json.readValue_chars hv.canonical hEnds
  rw [List.append_nil] at hCompact hRead
  show loadsFile (utf8 (indentedText v)) = .ok v.canonical
  simp only [loadsFile, decodeUtf8_utf8, indentedText, String.toList_ofList, hCompact,
    compact, List.append_nil, hRead]

end Sample

end Prsm.Wire
