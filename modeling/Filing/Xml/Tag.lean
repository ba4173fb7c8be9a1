import Filing.Xml.Markup
import Filing.Xml.Node

/-!
# Tags

The body of a start tag: a name up to the first blank, then attributes. An attribute that breaks the
grammar is left out and does not make the document unreadable; where the reading goes on after one
is part of the format. A key that is already known is left out together with its value.

Main statement: no key is read twice from a tag (`nodup_keys_attributes`).
-/

namespace Filing.Xml

open Filing.Text (breakAt)

/-- An attribute as it stands in a tag, its value still with references. -/
structure RawAttribute where
  /-- The name of the attribute. -/
  key : List Char
  /-- What stands between the quotes. -/
  value : List Char

/-- An equals sign and a blank end the key of an attribute. -/
def endsKey (c : Char) : Bool := c == '=' || isBlank c

/-- The text from its first blank on. -/
def skipWord (s : List Char) : List Char := s.dropWhile (!isBlank ·)

theorem length_dropWhile_le {α : Type} (p : α → Bool) (s : List α) :
    (s.dropWhile p).length ≤ s.length := (List.dropWhile_suffix p).length_le

/-- The attributes of a tag whose key is not yet in `seen`. A key has at least one character. One
that no equals sign follows is left out; one that is known is left out up to the next blank; a value
without quotes is left out up to the next blank; a value that is missing or whose quote does not
close ends the reading. -/
def attributes (seen : List (List Char)) (s : List Char) : List RawAttribute :=
  match h : s.dropWhile isBlank with
  | [] => []
  | c :: rest =>
    have hrest : rest.length < s.length := by
      have := length_dropWhile_le isBlank s
      rw [h, List.length_cons] at this
      omega
    let key := c :: rest.takeWhile (!endsKey ·)
    match ha : (rest.dropWhile (!endsKey ·)).dropWhile isBlank with
    | [] => []
    | d :: after =>
      have hafter : (d :: after).length ≤ rest.length := by
        rw [← ha]
        exact Nat.le_trans (length_dropWhile_le _ _) (length_dropWhile_le _ _)
      if d ≠ '=' then attributes seen (d :: after)
      else if key ∈ seen then
        have : (skipWord after).length < s.length := by
          have := length_dropWhile_le (!isBlank ·) after
          simp only [List.length_cons] at hafter
          unfold skipWord
          omega
        attributes seen (skipWord after)
      else
        match hv : after.dropWhile isBlank with
        | [] => []
        | q :: value =>
          have hvalue : value.length < s.length := by
            have := length_dropWhile_le isBlank after
            rw [hv] at this
            simp only [List.length_cons] at this hafter
            omega
          if q = '"' ∨ q = '\'' then
            match hb : breakAt (· == q) value with
            | none => []
            | some (raw, rest) =>
              have := Text.length_lt_of_breakAt hb
              ⟨key, raw⟩ :: attributes (key :: seen) rest
          else
            have := length_dropWhile_le (!isBlank ·) value
            attributes (key :: seen) (skipWord value)
termination_by s.length
decreasing_by all_goals simp only [skipWord, List.length_cons] at *; omega

/-- The element of a tag, with its name and attributes only. -/
def elementOf (body : List Char) : Except EscapeError Node := do
  let attrs ← (attributes [] (skipWord body)).mapM fun a => do
    return (String.ofList a.key, String.ofList (← unescape a.value))
  return { name := String.ofList (body.takeWhile (!isBlank ·)), attrs }

/-! ## Keys are distinct -/

theorem not_mem_keys_attributes {seen : List (List Char)} {s : List Char} {a : RawAttribute}
    (h : a ∈ attributes seen s) : a.key ∉ seen := by
  fun_induction attributes seen s <;> simp_all
  next ih =>
    rcases h with rfl | h
    · assumption
    · exact fun hm => (ih h).2 hm

/-- No key is read twice. -/
theorem nodup_keys_attributes (seen : List (List Char)) (s : List Char) :
    ((attributes seen s).map (·.key)).Nodup := by
  fun_induction attributes seen s <;> simp_all
  next ih =>
    intro a ha
    have := not_mem_keys_attributes ha
    simp only [List.mem_cons, not_or] at this
    exact this.1

end Filing.Xml
