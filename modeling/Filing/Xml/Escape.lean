import Filing.Text.Basic
import Filing.Text.Natural

/-!
# Character references in XML

Five characters are never written as themselves, in text or in attribute values, but by name;
reading also knows references by number. A reference that is not closed, whose name is unknown or
whose number belongs to no character makes the document unreadable, so `unescape` says where the
first such reference stands, in bytes from the start of the text it reads.

Main statement: what is written is read back (`unescape_escape`).
-/

namespace Filing.Xml

open Filing.Text (NaturalError readDigits utf8Size)

/-- Why a numeric character reference names no character. -/
inductive CharRefError where
  /-- The number carries a sign. -/
  | signed
  /-- It is no number, or none of 32 bits. -/
  | number (e : NaturalError)
  /-- It is the number of the NUL character, which XML forbids. -/
  | forbidden (n : Nat)
  /-- It is the number of no character. -/
  | noCharacter (n : Nat)
deriving DecidableEq, Repr

/-- The wording of a character reference error. -/
def CharRefError.message : CharRefError → String
  | .signed => "unexpected number sign"
  | .number e => e.message
  | .forbidden n => s!"0x{n} character is not permitted in XML"
  | .noCharacter n => s!"`{n}` is not a valid codepoint"

/-- Why a text with references cannot be read; places are byte offsets in the text. -/
inductive EscapeError where
  /-- An ampersand without a semicolon before the next ampersand or the end. -/
  | unclosed (start stop : Nat)
  /-- A name that is not one of the five. -/
  | unknownName (start stop : Nat) (name : String)
  /-- A number that names no character. -/
  | charRef (e : CharRefError)
deriving DecidableEq, Repr

/-- The wording of an escape error. -/
def EscapeError.message : EscapeError → String
  | .unclosed start stop =>
    s!"Error while escaping character at range {start}..{stop}: Cannot find ';' after '&'"
  | .unknownName start stop name => s!"at {start}..{stop}: unrecognized entity `{name}`"
  | .charRef e => "invalid character reference: " ++ e.message

/-! ## Writing -/

/-- A character as it is written in text and attribute values. -/
def escapeChar (c : Char) : List Char :=
  if c = '<' then "&lt;".toList
  else if c = '>' then "&gt;".toList
  else if c = '&' then "&amp;".toList
  else if c = '\'' then "&apos;".toList
  else if c = '"' then "&quot;".toList
  else [c]

/-- A text as it is written in text and attribute values. -/
def escape (s : List Char) : List Char := s.flatMap escapeChar

/-! ## Reading -/

/-- The character with a given number. -/
def charOf (n : Nat) : Except CharRefError Char :=
  if n = 0 then .error (.forbidden n)
  else if n < 0xD800 ∨ (0xDFFF < n ∧ n < 0x110000) then .ok (Char.ofNat n)
  else .error (.noCharacter n)

/-- The number written behind the number sign of a reference, in the given base. -/
def refNumber (base : Nat) (digits : List Char) : Except CharRefError Nat :=
  if digits.head? = some '+' ∨ digits.head? = some '-' then .error .signed
  else (readDigits base Text.maxWord32 digits).mapError .number

/-- The character of a numeric reference, from behind its number sign. -/
def charRef : List Char → Except CharRefError Char
  | 'x' :: digits => refNumber 16 digits >>= charOf
  | digits => refNumber 10 digits >>= charOf

/-- The character with a name. -/
def named? (name : List Char) : Option Char :=
  if name = ['l', 't'] then some '<'
  else if name = ['g', 't'] then some '>'
  else if name = ['a', 'm', 'p'] then some '&'
  else if name = ['a', 'p', 'o', 's'] then some '\''
  else if name = ['q', 'u', 'o', 't'] then some '"'
  else none

/-- The character of a reference without its ampersand and semicolon, which starts at byte
`start`. -/
def reference (start : Nat) (name : List Char) : Except EscapeError Char :=
  match name with
  | '#' :: number => (charRef number).mapError .charRef
  | name =>
    match named? name with
    | some c => .ok c
    | none => .error (.unknownName start (start + utf8Size name) (String.ofList name))

/-- The reading of a text: `total` is its size in bytes, `position` the place reached, `pending` the
open reference, with its place and its characters in reverse, and `acc` the result in reverse. -/
def unescapeFrom (total : Nat) : Nat → Option (Nat × List Char) → List Char → List Char →
    Except EscapeError (List Char)
  | _, none, acc, [] => .ok acc.reverse
  | _, some (start, _), _, [] => .error (.unclosed start total)
  | position, none, acc, c :: rest =>
    if c = '&' then unescapeFrom total (position + 1) (some (position, [])) acc rest
    else unescapeFrom total (position + c.utf8Size) none (c :: acc) rest
  | position, some (start, name), acc, c :: rest =>
    if c = ';' then
      match reference (start + 1) name.reverse with
      | .ok d => unescapeFrom total (position + 1) none (d :: acc) rest
      | .error e => .error e
    else if c = '&' then .error (.unclosed start total)
    else unescapeFrom total (position + c.utf8Size) (some (start, c :: name)) acc rest

/-- The text with its references replaced by the characters they name. -/
def unescape (s : List Char) : Except EscapeError (List Char) :=
  unescapeFrom (utf8Size s) 0 none [] s

/-! ## Reading undoes writing -/

theorem unescapeFrom_escapeChar (total position : Nat) (acc rest : List Char) (c : Char) :
    ∃ position', unescapeFrom total position none acc (escapeChar c ++ rest) =
      unescapeFrom total position' none (c :: acc) rest := by
  unfold escapeChar
  split
  · next h => subst h; exact ⟨_, rfl⟩
  · split
    · next h => subst h; exact ⟨_, rfl⟩
    · split
      · next h => subst h; exact ⟨_, rfl⟩
      · split
        · next h => subst h; exact ⟨_, rfl⟩
        · split
          · next h => subst h; exact ⟨_, rfl⟩
          · next hamp _ _ => exact ⟨_, by simp [unescapeFrom, hamp]; rfl⟩

theorem unescapeFrom_escape (total position : Nat) (acc s : List Char) :
    unescapeFrom total position none acc (escape s) = .ok (acc.reverse ++ s) := by
  induction s generalizing position acc with
  | nil => simp [escape, unescapeFrom]
  | cons c s ih =>
    obtain ⟨position', h⟩ := unescapeFrom_escapeChar total position acc (escape s) c
    have : escape (c :: s) = escapeChar c ++ escape s := by simp [escape]
    rw [this, h, ih]
    simp

/-- What is written is read back. -/
theorem unescape_escape (s : List Char) : unescape (escape s) = .ok s := by
  simp [unescape, unescapeFrom_escape]

end Filing.Xml
