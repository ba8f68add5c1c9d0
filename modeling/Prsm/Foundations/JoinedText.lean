import Prsm.Foundations.Doubles
import Prsm.Foundations.PyValue

/-!
# Texts joined by a separator

`sep.join(parts)` as what a signature covers.  The pieces of the joined text are those of its
parts one after the other, so two joined texts agree exactly when their pieces do, and parts
that are known to have the same numbers of pieces can be told apart.

A number printed with a fixed number of decimals is a part of one piece.
-/

namespace Prsm.Foundations

section Pieces

variable (sep : Char)

/-- `sep.join(parts)`. -/
def joinedText (parts : List String) : String :=
  (String.singleton sep).intercalate parts

/-- `s.split(sep)`. -/
def pieces (s : String) : List (List Char) :=
  s.toList.splitOn sep

variable {sep} {s t : String} {parts parts' rest rest' : List String}

theorem pieces_injective (h : pieces sep s = pieces sep t) : s = t := by
  have hLists := congrArg (fun ps => [sep].intercalate ps) h
  simp only [pieces, List.intercalate_splitOn] at hLists
  exact String.toList_inj.mp hLists

theorem pieces_of_notMem (h : sep ∉ s.toList) : pieces sep s = [s.toList] :=
  List.splitOn_eq_singleton h

theorem pieces_append_singleton (s t : String) :
    pieces sep (s ++ String.singleton sep ++ t) = pieces sep s ++ pieces sep t := by
  have hList : (s ++ String.singleton sep ++ t).toList = s.toList ++ sep :: t.toList := by simp
  rw [pieces, hList, List.splitOn_append_cons_self]
  rfl

theorem pieces_joinedText (h : parts ≠ []) :
    pieces sep (joinedText sep parts) = parts.flatMap (pieces sep) := by
  induction parts with
  | nil => exact absurd rfl h
  | cons s parts ih =>
      cases parts with
      | nil => simp [joinedText]
      | cons t rest =>
          have hRest := ih (List.cons_ne_nil t rest)
          rw [joinedText, String.intercalate_cons_cons, pieces_append_singleton, List.flatMap_cons,
            ← hRest]
          rfl

theorem joinedText_eq_iff (h : parts ≠ []) (h' : parts' ≠ []) :
    joinedText sep parts = joinedText sep parts' ↔
      parts.flatMap (pieces sep) = parts'.flatMap (pieces sep) := by
  rw [← pieces_joinedText h, ← pieces_joinedText h']
  exact ⟨fun hSame => hSame ▸ rfl, pieces_injective⟩

theorem eq_of_flatMap_pieces
    (hCounts : parts.map (fun s => (pieces sep s).length) =
      parts'.map fun s => (pieces sep s).length)
    (h : (parts ++ rest).flatMap (pieces sep) = (parts' ++ rest').flatMap (pieces sep)) :
    parts = parts' ∧ rest.flatMap (pieces sep) = rest'.flatMap (pieces sep) := by
  induction parts generalizing parts' with
  | nil =>
      obtain rfl : parts' = [] := List.map_eq_nil_iff.mp hCounts.symm
      exact ⟨rfl, h⟩
  | cons s parts ih =>
      cases parts' with
      | nil => cases hCounts
      | cons t parts' =>
          obtain ⟨hFirst, hLater⟩ := List.cons.inj hCounts
          simp only [List.cons_append, List.flatMap_cons] at h
          obtain ⟨hSame, hRest⟩ := List.append_inj h hFirst
          obtain ⟨rfl, hTail⟩ := ih hLater hRest
          exact ⟨by rw [pieces_injective hSame], hTail⟩

theorem flatMap_pieces_of_notMem (h : ∀ s ∈ parts, sep ∉ s.toList) :
    parts.flatMap (pieces sep) = parts.map String.toList := by
  induction parts with
  | nil => rfl
  | cons s parts ih =>
      rw [List.flatMap_cons, pieces_of_notMem (h s List.mem_cons_self),
        ih fun t ht => h t (List.mem_cons_of_mem s ht)]
      rfl

theorem joinedText_injective (hne : parts ≠ []) (hne' : parts' ≠ [])
    (h : ∀ s ∈ parts, sep ∉ s.toList) (h' : ∀ s ∈ parts', sep ∉ s.toList)
    (hSame : joinedText sep parts = joinedText sep parts') : parts = parts' := by
  rw [joinedText_eq_iff hne hne', flatMap_pieces_of_notMem h, flatMap_pieces_of_notMem h'] at hSame
  have hInjective : Function.Injective String.toList := fun s t => String.toList_inj.mp
  exact List.map_injective_iff.mpr hInjective hSame

end Pieces

/-! ## Optional lines with labels -/

/-- `f"{label}:{s}"` for each label that has a text. -/
def labelledLines (items : List (String × Option String)) : List String :=
  items.filterMap fun item => item.2.map fun s => item.1 ++ ":" ++ s

theorem labelled_injective {label label' s s' : String} (hLabel : ':' ∉ label.toList)
    (hLabel' : ':' ∉ label'.toList) (h : label ++ ":" ++ s = label' ++ ":" ++ s') :
    label = label' ∧ s = s' := by
  have hPieces := congrArg (pieces ':') h
  have hColon : ":" = String.singleton ':' := rfl
  rw [hColon, pieces_append_singleton, pieces_append_singleton, pieces_of_notMem hLabel,
    pieces_of_notMem hLabel'] at hPieces
  obtain ⟨hFirst, hRest⟩ := List.cons.inj hPieces
  exact ⟨String.toList_inj.mp hFirst, pieces_injective hRest⟩

theorem exists_of_mem_labelledLines {items : List (String × Option String)} {line : String}
    (h : line ∈ labelledLines items) :
    ∃ label s, (label, some s) ∈ items ∧ line = label ++ ":" ++ s := by
  obtain ⟨⟨label, value⟩, hMem, hLine⟩ := List.mem_filterMap.mp h
  obtain ⟨s, rfl, rfl⟩ := Option.map_eq_some_iff.mp hLine
  exact ⟨label, s, hMem, rfl⟩

theorem labelledLines_injective {items items' : List (String × Option String)}
    (hLabels : items.map Prod.fst = items'.map Prod.fst) (hNodup : (items.map Prod.fst).Nodup)
    (hColon : ∀ item ∈ items, ':' ∉ item.1.toList)
    (h : labelledLines items = labelledLines items') : items = items' := by
  induction items generalizing items' with
  | nil => exact (List.map_eq_nil_iff.mp hLabels.symm).symm
  | cons item items ih =>
      cases items' with
      | nil => cases hLabels
      | cons item' items' =>
          obtain ⟨label, value⟩ := item
          obtain ⟨label', value'⟩ := item'
          obtain ⟨hHead, hTail⟩ := List.cons.inj hLabels
          obtain rfl : label = label' := hHead
          obtain ⟨hNew, hRest⟩ := List.nodup_cons.mp hNodup
          obtain ⟨hLabel, hLater⟩ := List.forall_mem_cons.mp hColon
          -- no later line begins with this label
          have hOther : ∀ s rest, rest.map Prod.fst = items.map Prod.fst →
              label ++ ":" ++ s ∉ labelledLines rest := by
            intro s rest hSame hMem
            obtain ⟨other, s', hItem, hLine⟩ := exists_of_mem_labelledLines hMem
            have hOtherMem : other ∈ items.map Prod.fst := by
              rw [← hSame]
              exact List.mem_map_of_mem hItem
            obtain ⟨item'', hItem'', rfl⟩ := List.mem_map.mp hOtherMem
            obtain ⟨rfl, -⟩ := labelled_injective hLabel (hLater item'' hItem'') hLine
            exact hNew hOtherMem
          cases value with
          | none =>
              cases value' with
              | none => rw [ih hTail hRest hLater h]
              | some s' =>
                  have hMem : label ++ ":" ++ s' ∈ labelledLines items := by
                    rw [show labelledLines items = _ from h]
                    exact List.mem_cons_self
                  exact absurd hMem (hOther s' items rfl)
          | some s =>
              cases value' with
              | none =>
                  have hMem : label ++ ":" ++ s ∈ labelledLines items' := by
                    rw [← show _ = labelledLines items' from h]
                    exact List.mem_cons_self
                  exact absurd hMem (hOther s items' hTail.symm)
              | some s' =>
                  obtain ⟨hLine, hLines⟩ := List.cons.inj h
                  obtain ⟨-, rfl⟩ := labelled_injective hLabel hLabel hLine
                  rw [ih hTail hRest hLater hLines]

/-! ## Numbers with a fixed number of decimals -/

/-- The digits of a number below `10 ^ digits`, with zeros in front. -/
def paddedDigits (digits n : ℕ) : String :=
  String.ofList (List.leftpad digits '0' (Nat.toDigits 10 n))

/-- `f"{x:.nf}"` with `digits` decimals.  The sign is that of the text. -/
def fixedText (digits : ℕ) (x : PyFloat) : String :=
  match x.value with
  | none => if x.text = "inf" then "inf" else if x.text = "-inf" then "-inf" else "nan"
  | some q =>
      let scaled := (roundHalfEven (|q| * 10 ^ digits)).toNat
      (if x.text.startsWith "-" then "-" else "") ++ toString (scaled / 10 ^ digits) ++ "." ++
        paddedDigits digits (scaled % 10 ^ digits)

/-- The characters of a printed number. -/
def isFixedChar (c : Char) : Bool :=
  c.isDigit || c = '-' || c = '.' || c.isLower

theorem isFixedChar_of_mem_toDigits {n : ℕ} {c : Char} (h : c ∈ Nat.toDigits 10 n) :
    isFixedChar c = true := by
  simp [isFixedChar, Nat.isDigit_of_mem_toDigits (by decide) (by decide) h]

theorem isFixedChar_fixedText (digits : ℕ) (x : PyFloat) :
    ∀ c ∈ (fixedText digits x).toList, isFixedChar c = true := by
  unfold fixedText
  cases x.value with
  | none =>
      simp only
      split_ifs <;> exact List.all_eq_true.mp rfl
  | some q =>
      intro c hc
      simp only [String.toList_append, List.mem_append] at hc
      rcases hc with ((hSign | hWhole) | hPoint) | hPart
      · split at hSign
        · obtain rfl : c = '-' := by simpa using hSign
          rfl
        · simp at hSign
      · exact isFixedChar_of_mem_toDigits (by simpa [Nat.repr, toString] using hWhole)
      · obtain rfl : c = '.' := by simpa using hPoint
        rfl
      · rw [paddedDigits, String.toList_ofList, List.leftpad, List.mem_append] at hPart
        rcases hPart with hZero | hDigit
        · rw [List.eq_of_mem_replicate hZero]
          rfl
        · exact isFixedChar_of_mem_toDigits hDigit

theorem notMem_fixedText {digits : ℕ} {x : PyFloat} {sep : Char} (h : isFixedChar sep = false) :
    sep ∉ (fixedText digits x).toList := by
  intro hMem
  rw [isFixedChar_fixedText digits x sep hMem] at h
  cases h

end Prsm.Foundations
