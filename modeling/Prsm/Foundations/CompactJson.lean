import Prsm.Foundations.JsonText

/-!
# Compact JSON

`json.dumps` without blanks after its separators.  It is read by putting the blanks back
in: outside strings they mean nothing.
-/

namespace Prsm.Foundations

/-! ## Blanks -/

/-- Items separated by a comma, and the character that ends them. -/
def compactSequence (close : Char) : List (List Char) → List Char
  | [] => [close]
  | [x] => x ++ [close]
  | x :: y :: rest => x ++ ',' :: compactSequence close (y :: rest)

/-- A text with a blank after each separator.  The flag is set inside a string. -/
def spaced : Bool → List Char → List Char
  | _, [] => []
  | true, '\\' :: c :: rest => '\\' :: c :: spaced true rest
  | true, c :: rest => c :: spaced (c ≠ '"') rest
  | false, c :: rest =>
      if c = ',' ∨ c = ':' then c :: ' ' :: spaced false rest else c :: spaced (c = '"') rest

/-- The text is read as it stands, and so is what follows it. -/
def Unspaced (quoted : Bool) (text : List Char) : Prop :=
  ∀ rest, spaced quoted (text ++ rest) = text ++ spaced quoted rest

theorem Unspaced.nil (quoted : Bool) : Unspaced quoted [] := fun _ => rfl

theorem Unspaced.append {quoted : Bool} {text text' : List Char} (h : Unspaced quoted text)
    (h' : Unspaced quoted text') : Unspaced quoted (text ++ text') := by
  intro rest
  rw [List.append_assoc, h, h', List.append_assoc]

theorem unspaced_escape (c : Char) : Unspaced true ['\\', c] := fun rest => by
  simp [spaced]

theorem unspaced_plain {c : Char} (hSlash : c ≠ '\\') (hQuote : c ≠ '"') : Unspaced true [c] := by
  intro rest
  rw [List.singleton_append, spaced.eq_def]
  split
  case h_1 h => simp at h
  case h_2 h => simp_all
  case h_3 h => simp_all
  case h_4 => simp_all

theorem unspaced_of_all {quoted : Bool} {text : List Char} (h : ∀ c ∈ text, Unspaced quoted [c]) :
    Unspaced quoted text := by
  induction text with
  | nil => exact .nil quoted
  | cons c rest ih =>
      exact (h c List.mem_cons_self).append (ih fun c' hc' => h c' (List.mem_cons_of_mem _ hc'))

/-! ## Strings and words -/

theorem unspaced_unicodeEscape {unit : ℕ} (h : unit < 0x10000) :
    Unspaced true (unicodeEscape unit).toList := by
  have hDigit : ∀ n < 16, Nat.digitChar n ≠ '\\' ∧ Nat.digitChar n ≠ '"' := by decide
  rw [unicodeEscape_chars h]
  refine (unspaced_escape 'u').append (unspaced_of_all ?_)
  simp only [List.mem_cons, List.not_mem_nil, or_false]
  rintro c (rfl | rfl | rfl | rfl) <;>
    exact unspaced_plain (hDigit _ (by omega)).1 (hDigit _ (by omega)).2

theorem unspaced_jsonChar (c : Char) : Unspaced true (jsonChar c).toList := by
  unfold jsonChar
  split_ifs with h1 h2 h3 h4 h5 h6 h7 h8 h9
  · exact unspaced_escape '"'
  · exact unspaced_escape '\\'
  · exact unspaced_escape 'n'
  · exact unspaced_escape 'r'
  · exact unspaced_escape 't'
  · exact unspaced_escape 'b'
  · exact unspaced_escape 'f'
  · rw [show c.toString.toList = [c] by simp [Char.toString]]
    exact unspaced_plain h2 h1
  · exact unspaced_unicodeEscape h9
  · have hBound : c.toNat < 0x110000 := by
      rcases c.valid with h | h <;> simp only [Char.toNat] <;> omega
    rw [String.toList_append]
    exact (unspaced_unicodeEscape (by omega)).append (unspaced_unicodeEscape (by omega))

theorem unspaced_jsonString (s : String) : Unspaced false (jsonString s).toList := by
  have hChars : Unspaced true (s.toList.flatMap fun c => (jsonChar c).toList) := by
    induction s.toList with
    | nil => exact .nil true
    | cons c rest ih => exact (unspaced_jsonChar c).append ih
  intro rest
  have hOpen : ∀ more, spaced false ('"' :: more) = '"' :: spaced true more := fun _ => rfl
  have hClose : spaced true ('"' :: rest) = '"' :: spaced false rest := by simp [spaced]
  rw [jsonString_chars, List.cons_append, hOpen, List.append_assoc, hChars, List.singleton_append,
    hClose, List.cons_append, List.append_assoc, List.singleton_append]

namespace Json

variable {read : String → Option PyFloat} {n : ℕ} {v : Json}

mutual

/-- `json.dumps(…, separators=(",", ":"))`. -/
def compactChars : Json → List Char
  | array items => '[' :: compactSequence ']' (compactItems items)
  | object fields => '\x7b' :: compactSequence '\x7d' (compactFields fields)
  | v => chars v

def compactItems : List Json → List (List Char)
  | [] => []
  | x :: rest => compactChars x :: compactItems rest

def compactFields : List (String × Json) → List (List Char)
  | [] => []
  | (key, value) :: rest => ((jsonString key).toList ++ ':' :: compactChars value) ::
      compactFields rest

end

def compact (v : Json) : String := String.ofList (compactChars v)

/-- `json.loads` of a compact text, nested no deeper than the number. -/
def loadCompact (read : String → Option PyFloat) (n : ℕ) (s : String) : Option Json :=
  (readValue read n (spaced false s.toList)).bind fun r => if r.2 = [] then some r.1 else none

theorem compactItems_eq (items : List Json) : compactItems items = items.map compactChars := by
  induction items with
  | nil => rfl
  | cons x rest ih => rw [compactItems, ih, List.map_cons]

theorem compactFields_eq (fields : List (String × Json)) :
    compactFields fields =
      fields.map fun f => (jsonString f.1).toList ++ ':' :: compactChars f.2 := by
  induction fields with
  | nil => rfl
  | cons f rest ih =>
      obtain ⟨key, value⟩ := f
      rw [compactFields, ih, List.map_cons]

theorem unspaced_word {word : List Char} (h : ∀ c ∈ word, isWordChar c = true) :
    Unspaced false word := by
  refine unspaced_of_all fun c hc rest => ?_
  have hPlain : c ≠ ',' ∧ c ≠ ':' ∧ c ≠ '"' := by
    refine ⟨?_, ?_, ?_⟩ <;> rintro rfl <;> exact absurd (h _ hc) (by decide)
  simp [spaced, hPlain]

theorem spaced_sequence {α : Type} {close : Char} (hClose : close = ']' ∨ close = '\x7d')
    {write write' : α → List Char} {items : List α}
    (h : ∀ x ∈ items, ∀ rest,
      spaced false (write x ++ rest) = write' x ++ spaced false rest) (rest : List Char) :
    spaced false (compactSequence close (items.map write) ++ rest) =
      sequenceChars close (items.map write') ++ spaced false rest := by
  have hEnd : ∀ more, spaced false (close :: more) = close :: spaced false more := by
    intro more
    rcases hClose with rfl | rfl <;> simp [spaced]
  induction items with
  | nil => exact hEnd rest
  | cons x items ih =>
      have hFirst := h x List.mem_cons_self
      have hRest := ih fun y hy => h y (List.mem_cons_of_mem _ hy)
      cases items with
      | nil =>
          show spaced false (write x ++ [close] ++ rest) = write' x ++ [close] ++ _
          rw [List.append_assoc, hFirst, List.singleton_append, hEnd, List.append_assoc,
            List.singleton_append]
      | cons y items =>
          show spaced false (write x ++ ',' :: compactSequence close _ ++ rest) =
            write' x ++ ',' :: ' ' :: sequenceChars close _ ++ _
          rw [List.append_assoc, hFirst, List.append_assoc]
          exact congrArg (fun more => write' x ++ ',' :: ' ' :: more) hRest

theorem spaced_leaf (h : Printable read n v)
    (hArray : ∀ items, v ≠ array items) (hObject : ∀ fields, v ≠ object fields) :
    Unspaced false (compactChars v) ∧ compactChars v = chars v := by
  cases v with
  | null => exact ⟨unspaced_word (List.all_eq_true.mp rfl), rfl⟩
  | bool b => cases b <;> exact ⟨unspaced_word (List.all_eq_true.mp rfl), rfl⟩
  | int n =>
      exact ⟨unspaced_word fun c hc => isWordChar_of_isIntegerChar
        (PyValue.isIntegerChar_toString n c hc), rfl⟩
  | float x =>
      have hBack : ReadsBack read x := by cases n <;> exact h
      exact ⟨unspaced_word hBack.word, rfl⟩
  | str s => exact ⟨unspaced_jsonString s, rfl⟩
  | array items => exact absurd rfl (hArray items)
  | object fields => exact absurd rfl (hObject fields)

theorem spaced_compactChars (h : Printable read n v) (rest : List Char) :
    spaced false (compactChars v ++ rest) = chars v ++ spaced false rest := by
  have hLeaf : ∀ {n v rest}, Printable read n v → (∀ items, v ≠ array items) →
      (∀ fields, v ≠ object fields) →
      spaced false (compactChars v ++ rest) = chars v ++ spaced false rest := by
    intro n v rest h hArray hObject
    obtain ⟨hText, hSame⟩ := spaced_leaf h hArray hObject
    rw [hText, hSame]
  induction n generalizing v rest with
  | zero =>
      cases v with
      | array items => exact h.elim
      | object fields => exact h.elim
      | _ => exact hLeaf h (by simp) (by simp)
  | succ n ih =>
      cases v with
      | array items =>
          rw [compactChars, chars, compactItems_eq, itemChars_eq]
          exact congrArg ('[' :: ·) (spaced_sequence (.inl rfl) (fun x hx => ih (h x hx)) rest)
      | object fields =>
          rw [compactChars, chars, compactFields_eq, fieldChars_eq]
          refine congrArg ('\x7b' :: ·) (spaced_sequence (.inr rfl) (fun f hf rest => ?_) rest)
          rw [List.append_assoc, unspaced_jsonString, fieldText, List.append_assoc]
          exact congrArg (fun more => (jsonString f.1).toList ++ ':' :: ' ' :: more)
            (ih (h.2 f hf) rest)
      | _ => exact hLeaf h (by simp) (by simp)

theorem loadCompact_compact (h : Printable read n v) :
    loadCompact read n (compact v) = some v := by
  have hRead : readValue read n (chars v ++ []) = some (v, []) := readValue_chars h (by simp [Ends])
  have hSpaced := spaced_compactChars h []
  rw [List.append_nil, show spaced false [] = [] from rfl] at hSpaced
  rw [loadCompact, compact, String.toList_ofList, hSpaced, hRead]
  rfl

end Json
end Prsm.Foundations
