import Filing.Text.Blank

/-!
# Working on texts

The algorithms of the library run on lists of characters; `String` is what its types store. This
module has the handful of list operations they share: stripping both ends, splitting at a
separator, and sizes in UTF-8 bytes, which is the unit of positions in a document.

Main statements: splitting loses nothing (`intercalate_split`), and a text is broken at the first
element that satisfies a condition (`eq_append_of_breakAt`).
-/

namespace Filing.Text

/-- Drops the elements satisfying `p` from both ends. -/
def strip {α : Type} (p : α → Bool) (s : List α) : List α :=
  ((s.dropWhile p).reverse.dropWhile p).reverse

/-- The text without the blanks at its two ends. -/
def trim (s : String) : String := String.ofList (strip isBlank s.toList)

/-- The text has a character that is not a blank. -/
def hasContent (s : String) : Bool := s.toList.any (!isBlank ·)

/-- The pieces between the occurrences of `sep`; a text without `sep` is its only piece. -/
def split (sep : Char) : List Char → List (List Char)
  | [] => [[]]
  | c :: rest =>
    if c = sep then [] :: split sep rest
    else match split sep rest with
      | [] => [[c]]
      | piece :: pieces => (c :: piece) :: pieces

/-- The number of bytes of a text in UTF-8. -/
def utf8Size (s : List Char) : Nat := s.foldl (fun n c => n + c.utf8Size) 0

/-- What precedes and what follows the first element satisfying `p`. -/
def breakAt {α : Type} (p : α → Bool) : List α → Option (List α × List α)
  | [] => none
  | c :: rest => if p c then some ([], rest) else (breakAt p rest).map fun (a, b) => (c :: a, b)

/-- Two texts that differ at most in the case of ASCII letters. -/
def sameIgnoringCase (s t : List Char) : Bool := s.map Char.toLower == t.map Char.toLower

/-- What follows `word` at the start of a text, ASCII letters taken in any case. -/
def dropWord? : List Char → List Char → Option (List Char)
  | [], s => some s
  | _ :: _, [] => none
  | w :: word, c :: s => if w.toLower = c.toLower then dropWord? word s else none

/-! ## Splitting -/

theorem split_ne_nil (sep : Char) (s : List Char) : split sep s ≠ [] := by
  cases s with
  | nil => simp [split]
  | cons c rest =>
    by_cases h : c = sep
    · simp [split, h]
    · cases hs : split sep rest <;> simp [split, h, hs]

/-- Joining the pieces with the separator gives the text back. -/
theorem intercalate_split (sep : Char) (s : List Char) : [sep].intercalate (split sep s) = s := by
  induction s with
  | nil => simp [split]
  | cons c rest ih =>
    simp only [split]
    by_cases h : c = sep
    · have hne := split_ne_nil sep rest
      cases hs : split sep rest with
      | nil => exact absurd hs hne
      | cons p ps => rw [hs] at ih; simp [h, List.intercalate] at ih ⊢; exact ih
    · cases hs : split sep rest with
      | nil => exact absurd hs (split_ne_nil sep rest)
      | cons p ps =>
        rw [hs] at ih
        cases ps with
        | nil => simpa [h, List.intercalate, List.intersperse] using ih
        | cons q qs => simpa [h, List.intercalate, List.intersperse] using ih

/-! ## Breaking -/

/-- A break is at an element satisfying `p`, before which nothing satisfies it. -/
theorem eq_append_of_breakAt {α : Type} {p : α → Bool} {s a b : List α}
    (h : breakAt p s = some (a, b)) : ∃ c, p c = true ∧ s = a ++ c :: b ∧ ∀ x ∈ a, p x = false := by
  induction s generalizing a b with
  | nil => simp [breakAt] at h
  | cons c rest ih =>
    simp only [breakAt] at h
    by_cases hc : p c = true
    · simp only [hc, if_true, Option.some.injEq, Prod.mk.injEq] at h
      obtain ⟨rfl, rfl⟩ := h
      exact ⟨c, hc, rfl, by simp⟩
    · simp only [hc, Bool.false_eq_true, if_false, Option.map_eq_some_iff, Prod.mk.injEq,
        Prod.exists] at h
      obtain ⟨a', b', h', rfl, rfl⟩ := h
      obtain ⟨d, hd, rfl, ha⟩ := ih h'
      exact ⟨d, hd, rfl, by simpa [hc] using ha⟩

/-- What follows a break is shorter than the text. -/
theorem length_lt_of_breakAt {α : Type} {p : α → Bool} {s a b : List α}
    (h : breakAt p s = some (a, b)) : b.length < s.length := by
  obtain ⟨c, -, rfl, -⟩ := eq_append_of_breakAt h
  simp; omega

end Filing.Text
