/-!
# Natural numbers in text

Numbers in attributes and character references are bounded. A character that is no digit is noticed
before the number is found too large only when it stands further left, so the reading goes digit by
digit and stops at the first fault. Where a format fixes the width of a number, zeros in front make
it up.

Main statements: a number that is read lies within its bound (`le_of_appendDigits`), and a number
written with any width reads back (`numberOf_padded`).
-/

namespace Filing.Text

/-- Why a text is not a natural number within its bound. -/
inductive NaturalError where
  /-- There is no digit at all. -/
  | empty
  /-- A character is not a digit of the base. -/
  | badDigit
  /-- The number exceeds its bound. -/
  | tooLarge
deriving DecidableEq, Repr

/-- The wording of a number error. -/
def NaturalError.message : NaturalError → String
  | .empty => "cannot parse integer from empty string"
  | .badDigit => "invalid digit found in string"
  | .tooLarge => "number too large to fit in target type"

/-- The value of an ASCII digit, letters counting from ten on. -/
def digitValue? (c : Char) : Option Nat :=
  if c.isDigit then some (c.toNat - '0'.toNat)
  else if 'a' ≤ c ∧ c ≤ 'z' then some (c.toNat - 'a'.toNat + 10)
  else if 'A' ≤ c ∧ c ≤ 'Z' then some (c.toNat - 'A'.toNat + 10)
  else none

/-- The value of a digit of the given base. -/
def digit? (base : Nat) (c : Char) : Option Nat := (digitValue? c).filter (· < base)

/-- Continues the number `n` with further digits. -/
def appendDigits (base limit : Nat) : Nat → List Char → Except NaturalError Nat
  | n, [] => .ok n
  | n, c :: rest =>
    match digit? base c with
    | none => .error .badDigit
    | some d =>
      if n * base + d ≤ limit then appendDigits base limit (n * base + d) rest
      else .error .tooLarge

/-- Reads a natural number of at most `limit` in the given base, digits only. -/
def readDigits (base limit : Nat) : List Char → Except NaturalError Nat
  | [] => .error .empty
  | s => appendDigits base limit 0 s

/-- A sign at the start of a text: whether it is a minus, and what follows. -/
def takeSign : List Char → Bool × List Char
  | '-' :: rest => (true, rest)
  | '+' :: rest => (false, rest)
  | s => (false, s)

/-- Reads a decimal natural number of at most `limit`, which may carry a plus sign. -/
def natural? (limit : Nat) (s : String) : Option Nat :=
  match s.toList with
  | '+' :: digits => (readDigits 10 limit digits).toOption
  | digits => (readDigits 10 limit digits).toOption

/-- The number written by decimal digits. -/
def numberOf (digits : List Char) : Nat := Nat.ofDigitChars 10 digits 0

/-- The decimal digits of a number, with zeros in front up to a width. -/
def padded (width n : Nat) : List Char :=
  let digits := Nat.toDigits 10 n
  List.replicate (width - digits.length) '0' ++ digits

/-- The largest number of 32 bits. -/
def maxWord32 : Nat := 0xFFFFFFFF

/-- The largest number of 64 bits. -/
def maxWord64 : Nat := 0xFFFFFFFFFFFFFFFF

/-- A number that is read lies within its bound. -/
theorem le_of_appendDigits {base limit n m : Nat} {s : List Char} (hn : n ≤ limit)
    (h : appendDigits base limit n s = .ok m) : m ≤ limit := by
  induction s generalizing n with
  | nil => simp only [appendDigits, Except.ok.injEq] at h; exact h ▸ hn
  | cons c rest ih =>
    simp only [appendDigits] at h
    split at h
    · cases h
    · split at h
      · exact ih ‹_› h
      · cases h

/-- Zeros in front do not change a number. -/
theorem numberOf_padded (width n : Nat) : numberOf (padded width n) = n := by
  simp [numberOf, padded, Nat.ofDigitChars_append, Nat.ofDigitChars_replicate_zero]

end Filing.Text
