import Filing.Text.Basic
import Filing.Text.Natural

/-!
# Decimal numbers

Amounts and the bounds of number fields are decimals: a sign, a mantissa of 96 bits and a scale of
at most 28 places, written back with the places they were read with. A fraction that does not fit is
rounded, a half going away from zero; a whole part that does not fit makes the text unreadable.

A number below zero that an exponent moves out of sight keeps its sign: it is written with a minus
and all its zeros, and it is still below zero for a rule that asks for the sign, though it compares
as zero. A zero that is written out has no sign.

Main statements: two decimals compare as the rational numbers they stand for (`lt_iff`), whatever
the sign of a zero (`units_eq_zero_iff`), and a zero without exponent has no sign
(`negative_of_plain?`).
-/

namespace Filing

open Filing.Text (digit? natural? padded split takeSign)

/-- The first mantissa that does not fit. -/
def mantissaLimit : Nat := 0x1000000000000000000000000

/-- The largest number of places. -/
def maxScale : Nat := 28

/-- A decimal number. -/
structure Decimal where
  /-- The number is below zero, or was before it was rounded to zero. -/
  negative : Bool
  /-- The digits, as a whole number. -/
  mantissa : Nat
  /-- How many of the digits are places of the fraction. -/
  scale : Nat
  /-- The mantissa has 96 bits. -/
  mantissa_lt : mantissa < mantissaLimit
  /-- There are at most 28 places. -/
  scale_le : scale ≤ maxScale
deriving DecidableEq, Repr

namespace Decimal

/-- The decimal with the given parts, if they fit. -/
def ofParts? (negative : Bool) (mantissa scale : Nat) : Option Decimal :=
  if h : mantissa < mantissaLimit ∧ scale ≤ maxScale then
    some ⟨negative, mantissa, scale, h.1, h.2⟩
  else none

/-- Ten to the power of `n`: what a place counts for `n` places further left. -/
def tenPower (n : Nat) : Nat := Nat.pow 10 n

/-! ## Order -/

/-- The number in units of the smallest place. -/
def units (d : Decimal) : Int :=
  let n : Int := d.mantissa * tenPower (maxScale - d.scale)
  if d.negative then -n else n

/-- One decimal is smaller than another. -/
instance : LT Decimal := ⟨fun a b => a.units < b.units⟩

instance (a b : Decimal) : Decidable (a < b) := inferInstanceAs (Decidable (a.units < b.units))

/-- Decimals compare as the numbers they stand for, whatever their places. -/
theorem lt_iff {a b : Decimal} : a < b ↔ a.units < b.units := Iff.rfl

/-- A decimal without digits other than zero counts as zero, whatever its sign. -/
theorem units_eq_zero_iff {d : Decimal} : d.units = 0 ↔ d.mantissa = 0 := by
  have h : tenPower (maxScale - d.scale) ≠ 0 := Nat.pos_iff_ne_zero.1 (Nat.pow_pos (by decide))
  have h0 : ((d.mantissa * tenPower (maxScale - d.scale) : Nat) : Int) = 0 ↔ d.mantissa = 0 := by
    rw [Int.natCast_eq_zero, Nat.mul_eq_zero, or_iff_left h]
  rw [Int.natCast_mul] at h0
  simp only [units]
  split
  · rw [Int.neg_eq_zero, h0]
  · exact h0

/-! ## Writing -/

/-- The text of a decimal, with all its places. -/
def text (d : Decimal) : String :=
  let ds := padded (d.scale + 1) d.mantissa
  let whole := ds.take (ds.length - d.scale)
  let fraction := ds.drop (ds.length - d.scale)
  let sign := if d.negative then ['-'] else []
  String.ofList (sign ++ whole ++ if fraction.isEmpty then [] else '.' :: fraction)

instance : ToString Decimal := ⟨text⟩

/-! ## Reading -/

/-- A digit or an underscore. -/
def isDigitOrGap (c : Char) : Bool := c.isDigit || c == '_'

/-- A mantissa and its scale after the digit `d` behind its last place, a half going up. A mantissa
that outgrows its bits gives up its last place. -/
def roundAt (d mantissa scale : Nat) : Option (Nat × Nat) :=
  if d < 5 then some (mantissa, scale)
  else if mantissa + 1 < mantissaLimit then some (mantissa + 1, scale)
  else if scale = 0 then none
  else some ((mantissa + 5) / 10, scale - 1)

/-- What is left of a text once all places are in use: the next digit rounds, and all that follows
is digits and underscores. -/
def roundBy (mantissa scale : Nat) : List Char → Option (Nat × Nat)
  | [] => some (mantissa, scale)
  | c :: rest =>
    if rest.all isDigitOrGap then
      if c = '_' then roundAt 0 mantissa scale
      else (digit? 10 c).bind fun d => roundAt d mantissa scale
    else none

/-- Mantissas below this one leave room for a further digit in 64 bits. -/
def wordRoom : Nat := 1844674407370954906

/-- Reads digits with at most one point and with underscores behind the first digit; `point` and
`seen` tell whether the point and a digit have been read. In the place that rounds, underscores are
skipped, but while the mantissa has 64 bits one stands for a zero. -/
def digitsFrom (mantissa scale : Nat) (point seen : Bool) : List Char → Option (Nat × Nat)
  | [] => if seen then some (mantissa, scale) else none
  | c :: rest =>
    match digit? 10 c with
    | some d =>
      let next := mantissa * 10 + d
      if mantissaLimit ≤ next then
        if point && rest.all isDigitOrGap then roundAt d mantissa scale else none
      else if !point then digitsFrom next scale point true rest
      else if scale + 1 < maxScale then digitsFrom next (scale + 1) point true rest
      else
        roundBy next (scale + 1) (if mantissa < wordRoom then rest else rest.dropWhile (· == '_'))
    | none =>
      if c = '.' ∧ point = false then digitsFrom mantissa scale true seen rest
      else if c = '_' ∧ seen = true then digitsFrom mantissa scale point seen rest
      else none

/-- Reads a decimal without exponent; zero has no sign. -/
def plain? (s : List Char) : Option Decimal := do
  let (negative, s) := takeSign s
  let (mantissa, scale) ← digitsFrom 0 0 false false s
  ofParts? (negative && mantissa != 0) mantissa scale

/-- A zero that is written out has no sign. -/
theorem negative_of_plain? {s : List Char} {d : Decimal} (h : plain? s = some d)
    (h0 : d.mantissa = 0) : d.negative = false := by
  simp only [plain?, ofParts?, bind, Option.bind_eq_some_iff] at h
  obtain ⟨⟨mantissa, scale⟩, -, hd⟩ := h
  split at hd
  · cases hd
    simp_all
  · cases hd

/-- The decimal divided by ten to the power of `n`. Places beyond the last one are rounded off
first, a half going away from zero; what is rounded to zero keeps its sign. -/
def shiftRight? (d : Decimal) (n : Nat) : Option Decimal :=
  let surplus := d.scale + n - maxScale
  let mantissa :=
    if surplus = 0 then d.mantissa
    else (d.mantissa + 5 * tenPower (surplus - 1)) / tenPower surplus
  ofParts? d.negative mantissa (d.scale + n - surplus)

/-- The decimal multiplied by ten to the power of `n`. -/
def shiftLeft? (d : Decimal) (n : Nat) : Option Decimal :=
  if n ≤ d.scale then ofParts? d.negative d.mantissa (d.scale - n)
  else ofParts? d.negative (d.mantissa * tenPower (n - d.scale)) 0

/-- Reads a decimal with an exponent of at most 28 in either direction. -/
def scientific? (s : List Char) : Option Decimal := do
  let (front, exponent) ← Text.breakAt (fun c => c == 'e' || c == 'E') s
  let d ← plain? front
  match exponent with
  | '-' :: n => d.shiftRight? (← natural? maxScale (String.ofList n))
  | n => d.shiftLeft? (← natural? maxScale (String.ofList n))

/-- The decimal that a text writes. -/
def ofText? (s : String) : Option Decimal := plain? s.toList <|> scientific? s.toList

end Decimal

end Filing
