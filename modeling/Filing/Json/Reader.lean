import Filing.Data.Value
import Filing.Text.Natural

/-!
# Reading JSON

The grammar of RFC 8259, nothing more: no byte-order mark, no comments, no trailing commas, control
characters in texts only as escapes, and nothing but blanks after the value.

Each nested reader gets a number that falls with every call and starts at twice the length of the
text, which no text can use up: every second call consumes a character.
-/

namespace Filing.Json

open Filing.Data (Value)
open Filing.Text (digit? numberOf)

/-- Blank, tab, line feed and carriage return. -/
def isBlank (c : Char) : Bool := c == ' ' || c == '\t' || c == '\n' || c == '\r'

/-- The text from its first character on that is not blank. -/
def skipBlanks (s : List Char) : List Char := s.dropWhile isBlank

/-! ## Texts -/

/-- What a quoted text is made of before escapes are joined. -/
inductive Piece where
  /-- A character, written as itself or by a one-letter escape. -/
  | char (c : Char)
  /-- A UTF-16 code unit written as four hexadecimal digits. -/
  | code (n : Nat)

/-- The number written by four hexadecimal digits. -/
def code? (a b c d : Char) : Option Nat := do
  let a ← digit? 16 a
  let b ← digit? 16 b
  let c ← digit? 16 c
  let d ← digit? 16 d
  return ((a * 16 + b) * 16 + c) * 16 + d

/-- The character that a one-letter escape stands for. -/
def escaped? : Char → Option Char
  | '"' => some '"'
  | '\\' => some '\\'
  | '/' => some '/'
  | 'b' => some '\x08'
  | 'f' => some '\x0c'
  | 'n' => some '\n'
  | 'r' => some '\r'
  | 't' => some '\t'
  | _ => none

/-- The pieces of a quoted text from behind its opening quote, in reverse, and what follows it. -/
def pieces : List Piece → List Char → Option (List Piece × List Char)
  | acc, '"' :: rest => some (acc, rest)
  | acc, '\\' :: 'u' :: a :: b :: c :: d :: rest =>
    match code? a b c d with
    | some n => pieces (.code n :: acc) rest
    | none => none
  | acc, '\\' :: e :: rest =>
    match escaped? e with
    | some c => pieces (.char c :: acc) rest
    | none => none
  | acc, c :: rest => if c.toNat < 0x20 || c == '\\' then none else pieces (.char c :: acc) rest
  | _, [] => none

/-- A UTF-16 code unit that opens a surrogate pair. -/
def isHighSurrogate (n : Nat) : Bool := 0xD800 ≤ n && n ≤ 0xDBFF

/-- A UTF-16 code unit that closes a surrogate pair. -/
def isLowSurrogate (n : Nat) : Bool := 0xDC00 ≤ n && n ≤ 0xDFFF

/-- Joins surrogate pairs, reading the pieces from the last one backwards; `after` holds the
characters of what follows. -/
def joinPieces : List Char → List Piece → Option (List Char)
  | after, [] => some after
  | after, .char c :: before => joinPieces (c :: after) before
  | after, .code n :: before =>
    if isLowSurrogate n then
      match before with
      | .code m :: before =>
        if isHighSurrogate m then
          joinPieces (Char.ofNat (0x10000 + (m - 0xD800) * 0x400 + (n - 0xDC00)) :: after) before
        else none
      | _ => none
    else if isHighSurrogate n then none
    else joinPieces (Char.ofNat n :: after) before

/-- A quoted text from behind its opening quote, `none` inside when it is not a text, and what
follows it. -/
def quoted (s : List Char) : Option (Option String × List Char) :=
  (pieces [] s).map fun (ps, rest) => ((joinPieces [] ps).map String.ofList, rest)

/-! ## Numbers -/

/-- The digits at the start of a text and what follows them. -/
def digits (s : List Char) : List Char × List Char := s.span Char.isDigit

/-- A fraction at the start of a text, empty when there is none. -/
def fraction : List Char → Option (List Char × List Char)
  | '.' :: s =>
    let (ds, rest) := digits s
    if ds.isEmpty then none else some ('.' :: ds, rest)
  | s => some ([], s)

/-- An exponent at the start of a text, empty when there is none. -/
def exponent : List Char → Option (List Char × List Char)
  | e :: s =>
    if e == 'e' || e == 'E' then
      let (sign, s) := match s with
        | '+' :: r => (['+'], r)
        | '-' :: r => (['-'], r)
        | s => ([], s)
      let (ds, rest) := digits s
      if ds.isEmpty then none else some (e :: sign ++ ds, rest)
    else some ([], e :: s)
  | [] => some ([], [])

/-- A number at the start of a text. Without fraction and exponent it is whole; a negative zero is
kept as it was written. -/
def number (s : List Char) : Option (Value × List Char) := do
  let (negative, s) := match s with
    | '-' :: r => (true, r)
    | s => (false, s)
  let (whole, s) := digits s
  if whole.isEmpty || (whole.length > 1 && whole.head? == some '0') then none
  let (frac, s) ← fraction s
  let (exp, s) ← exponent s
  let n := numberOf whole
  if frac.isEmpty && exp.isEmpty && !(negative && n == 0) then
    return (.integer (if negative then -n else n), s)
  let sign := if negative then ['-'] else []
  return (.literal (String.ofList (sign ++ whole ++ frac ++ exp)), s)

/-! ## Values -/

/-- A record with the given members, some of whose names may not be texts. -/
def recordOf (members : List (Option String × Value)) : Value :=
  match members.mapM fun (name, v) => name.map (·, v) with
  | some members => .record members
  | none => .unpaired

mutual

/-- A value at the start of a text without leading blanks, and what follows it. -/
def value : Nat → List Char → Option (Value × List Char)
  | 0, _ => none
  | n + 1, s =>
    match s with
    | 'n' :: 'u' :: 'l' :: 'l' :: rest => some (.null, rest)
    | 't' :: 'r' :: 'u' :: 'e' :: rest => some (.bool true, rest)
    | 'f' :: 'a' :: 'l' :: 's' :: 'e' :: rest => some (.bool false, rest)
    | '"' :: rest => do
      let (text, rest) ← quoted rest
      return (text.elim .unpaired .string, rest)
    | '[' :: rest =>
      match skipBlanks rest with
      | ']' :: rest => some (.list [], rest)
      | rest => do
        let (vs, rest) ← items n [] rest
        return (.list vs, rest)
    | '\x7b' :: rest =>
      match skipBlanks rest with
      | '\x7d' :: rest => some (.record [], rest)
      | rest => do
        let (ms, rest) ← members n [] rest
        return (recordOf ms, rest)
    | s => number s

/-- The items of a list from its first item on, after those in `acc` (in reverse). -/
def items : Nat → List Value → List Char → Option (List Value × List Char)
  | 0, _, _ => none
  | n + 1, acc, s => do
    let (v, rest) ← value n s
    match skipBlanks rest with
    | ',' :: rest => items n (v :: acc) (skipBlanks rest)
    | ']' :: rest => return ((v :: acc).reverse, rest)
    | _ => none

/-- The members of a record from its first name on, after those in `acc` (in reverse). -/
def members : Nat → List (Option String × Value) → List Char →
    Option (List (Option String × Value) × List Char)
  | 0, _, _ => none
  | n + 1, acc, s =>
    match s with
    | '"' :: rest => do
      let (name, rest) ← quoted rest
      match skipBlanks rest with
      | ':' :: rest =>
        let (v, rest) ← value n (skipBlanks rest)
        match skipBlanks rest with
        | ',' :: rest => members n ((name, v) :: acc) (skipBlanks rest)
        | '\x7d' :: rest => return (((name, v) :: acc).reverse, rest)
        | _ => none
      | _ => none
    | _ => none

end

/-- The value that a JSON text holds. -/
def read (s : String) : Option Value := do
  let cs := s.toList
  let (v, rest) ← value (2 * cs.length + 2) (skipBlanks cs)
  if (skipBlanks rest).isEmpty then some v else none

end Filing.Json
