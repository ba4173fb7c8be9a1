import Filing.Calendar.Date
import Filing.Data.Value
import Filing.Text.Basic
import Filing.Toml.Text

/-!
# Scalars of TOML without quotes

Truth values, integers in four bases, floats, and dates and times. Integers become numbers; floats
and times are kept as they were written, because no setting is one of them. So is a word that has
the outer form of an integer but writes no number, such as `0x`: it is a fault only where a setting
asks for its value.
-/

namespace Filing.Toml

open Filing.Data (Value)
open Filing.Text (digit? numberOf split takeSign)

/-! ## Numbers -/

/-- Every underscore stands between two characters of the given class. -/
def gapsOk (isOfNumber : Char → Bool) (word : List Char) : Bool :=
  let parts := split '_' word
  parts.tail.all (·.head?.any isOfNumber) && parts.dropLast.all (·.getLast?.any isOfNumber)

/-- The characters of a word other than underscores. -/
def withoutGaps (word : List Char) : List Char := word.filter (· != '_')

/-- An integer, if the digits are digits of the base and there is one; otherwise the word itself. -/
def integerOr (word : List Char) (base : Nat) (negative : Bool) (ds : List Char) : Value :=
  match withoutGaps ds with
  | [] => .literal (String.ofList word)
  | ds =>
    match numberIn? base ds with
    | some n => .integer (if negative then -n else n)
    | none => .literal (String.ofList word)

/-- The base that the letter behind a leading zero stands for. -/
def base? : Char → Option Nat
  | 'x' => some 16
  | 'o' => some 8
  | 'b' => some 2
  | _ => none

/-- An integer with the mark of its base. It may lack digits. -/
def markedInteger? (word : List Char) : Option Value :=
  match word with
  | '0' :: c :: ds => do
    let base ← base? c
    if ds.all (fun d => d == '_' || (digit? base d).isSome) && gapsOk (fun _ => true) ds then
      some (integerOr word base false ds)
    else none
  | _ => none

/-- Mark of a fraction or an exponent. -/
def isFloatMark (c : Char) : Bool := c == '.' || c == 'e' || c == 'E'

/-- A decimal integer, which has no superfluous zero in front. -/
def decimalInteger? (word : List Char) : Option Value :=
  let (negative, ds) := takeSign word
  let shaped := match ds.dropWhile Char.isDigit with
    | [] => ds == ['0'] || ds.head?.any (· != '0')
    | '_' :: rest => ds.head? != some '0' && !rest.any (fun c => isFloatMark c || c == ' ')
    | _ => false
  if shaped && gapsOk (fun c => (digit? 16 c).isSome) word then some (integerOr word 10 negative ds)
  else none

/-- An integer. A word with an underscore need not be a number for that: only the characters next to
its underscores are looked at, and it stays a word. -/
def integer? (word : List Char) : Option Value := markedInteger? word <|> decimalInteger? word

/-- What follows decimal digits and underscores, at least one of them a digit. -/
def skipDigits? (s : List Char) : Option (List Char) :=
  let (run, rest) := s.span fun c => c.isDigit || c == '_'
  if run.any Char.isDigit then some rest else none

/-- What follows a fraction, if there is one. -/
def skipFraction? : List Char → Option (List Char)
  | '.' :: s => skipDigits? s
  | s => some s

/-- What follows an exponent, if there is one. -/
def skipExponent? : List Char → Option (List Char)
  | 'e' :: s => skipDigits? (takeSign s).2
  | 'E' :: s => skipDigits? (takeSign s).2
  | s => some s

/-- A number starts with a zero that another digit follows. -/
def hasSpareZero (s : List Char) : Bool :=
  s.head? == some '0' && 1 < (withoutGaps s |>.takeWhile Char.isDigit).length

/-- The word is a float. -/
def isFloat (word : List Char) : Bool :=
  let (_, s) := takeSign word
  s == ['i', 'n', 'f'] || s == ['n', 'a', 'n'] ||
    s.any isFloatMark && !hasSpareZero s && gapsOk Char.isDigit word &&
      (skipDigits? s >>= skipFraction? >>= skipExponent?) == some []

/-! ## Dates and times -/

/-- Reads a number of exactly `width` digits within bounds. -/
def field? (width low high : Nat) (s : List Char) : Option (Nat × List Char) :=
  let ds := s.take width
  if ds.length == width && ds.all Char.isDigit then
    let n := numberOf ds
    if low ≤ n && n ≤ high then some (n, s.drop width) else none
  else none

/-- What follows a given character at the start of a text. -/
def expect? (c : Char) : List Char → Option (List Char)
  | d :: rest => if c = d then some rest else none
  | [] => none

/-- What follows a date at the start of a text. -/
def date? (s : List Char) : Option (List Char) := do
  let (year, s) ← field? 4 0 9999 s
  let s ← expect? '-' s
  let (month, s) ← field? 2 1 12 s
  let s ← expect? '-' s
  let (_, s) ← field? 2 1 (Calendar.monthLength year month) s
  return s

/-- What follows a time of day at the start of a text; seconds and their fraction are optional. -/
def time? (s : List Char) : Option (List Char) := do
  let (_, s) ← field? 2 0 23 s
  let s ← expect? ':' s
  let (_, s) ← field? 2 0 59 s
  match s with
  | ':' :: s =>
    let (_, s) ← field? 2 0 60 s
    match s with
    | '.' :: s =>
      let (ds, rest) := s.span Char.isDigit
      if ds.isEmpty then none else some rest
    | s => some s
  | s => some s

/-- What follows the offset from universal time at the start of a text. -/
def offset? (s : List Char) : Option (List Char) :=
  match s with
  | [] => some []
  | c :: rest =>
    if c == 'Z' || c == 'z' then some rest
    else if c == '+' || c == '-' then do
      let (_, s) ← field? 2 0 23 rest
      let s ← expect? ':' s
      let (_, s) ← field? 2 0 59 s
      return s
    else none

/-- The text is a date, a time, or both. -/
def isMoment (s : List Char) : Bool :=
  match date? s with
  | some [] => true
  | some (sep :: rest) =>
    (sep == 'T' || sep == 't' || sep == ' ') && ((time? rest).bind offset?) == some []
  | none => time? s == some []

/-! ## Words -/

/-- A character that ends a word without quotes. -/
def endsWord (c : Char) : Bool :=
  ['=', ',', '[', ']', '\x7b', '\x7d', '#', ' ', '\t', '\r', '\n'].contains c

/-- A character that continues a word behind blanks. A quote there begins a value of its own. -/
def resumesWord (c : Char) : Bool := !endsWord c && c != '"' && c != '\''

/-- The word at the start of a text, and what follows it. Blanks belong to a word when it goes on
behind them, as between a date and a time. -/
def takeWord : List Char → List Char × List Char
  | [] => ([], [])
  | c :: s =>
    if !endsWord c || isBlank c && (skipBlanks s).head?.any resumesWord then
      let (word, rest) := takeWord s
      (c :: word, rest)
    else ([], c :: s)

/-- A scalar without quotes at the start of a text, and what follows it. -/
def scalar? (s : List Char) : Option (Value × List Char) :=
  let (word, rest) := takeWord s
  if word == ['t', 'r', 'u', 'e'] then some (.bool true, rest)
  else if word == ['f', 'a', 'l', 's', 'e'] then some (.bool false, rest)
  else match integer? word with
    | some v => some (v, rest)
    | none =>
      if isFloat word || isMoment word then some (.literal (String.ofList word), rest) else none

end Filing.Toml
