import Filing.Text.Natural

/-!
# Texts, comments and keys of TOML

The four kinds of quoted texts of TOML 1.1, the blanks and line breaks between tokens, and keys.
Every reader takes the characters from where its token begins and answers what it read together
with what follows, or nothing when the text breaks the grammar.
-/

namespace Filing.Toml

open Filing.Text (digit?)

/-! ## Between tokens -/

/-- A blank or a tab. -/
def isBlank (c : Char) : Bool := c == ' ' || c == '\t'

/-- The text from its first character on that is neither blank nor tab. -/
def skipBlanks (s : List Char) : List Char := s.dropWhile isBlank

/-- A control character other than the tab: it stands nowhere but in line breaks. -/
def isControl (c : Char) : Bool := (c.toNat < 0x20 && c != '\t') || c.toNat == 0x7F

/-- What follows a line break at the start of a text. -/
def newline? : List Char → Option (List Char)
  | '\n' :: rest => some rest
  | '\r' :: '\n' :: rest => some rest
  | _ => none

/-- Skips a comment, if there is one, up to the line break that ends it. -/
def skipComment : List Char → List Char
  | '#' :: rest => rest.dropWhile (!isControl ·)
  | s => s

/-- Skips blanks and a comment, then a line break or the end of the text. -/
def endOfLine? (s : List Char) : Option (List Char) :=
  match skipComment (skipBlanks s) with
  | [] => some []
  | rest => newline? rest

/-- Skips blanks, comments and line breaks. -/
def skipLines : Nat → List Char → List Char
  | 0, s => s
  | n + 1, s =>
    let rest := skipComment (skipBlanks s)
    match newline? rest with
    | some rest => skipLines n rest
    | none => rest

/-- Skips all blanks, comments and line breaks at the start of a text. -/
def skipSpace (s : List Char) : List Char := skipLines s.length s

/-! ## Quoted texts -/

/-- The number written by digits of a base. -/
def numberIn? (base : Nat) (ds : List Char) : Option Nat :=
  ds.foldlM (fun n c => (digit? base c).map (n * base + ·)) 0

/-- The character with a number, unless the number belongs to no character. -/
def charOf? (n : Nat) : Option Char :=
  if n < 0xD800 || (0xDFFF < n && n < 0x110000) then some (Char.ofNat n) else none

/-- The character written by an escape whose number has `width` digits, and what follows. -/
def numberEscape? (width : Nat) (s : List Char) : Option (Char × List Char) :=
  let ds := s.take width
  if ds.length < width then none
  else do
    let c ← charOf? (← numberIn? 16 ds)
    return (c, s.drop width)

/-- The character written by an escape, from behind its backslash, and what follows. -/
def escape? : List Char → Option (Char × List Char)
  | 'b' :: rest => some ('\x08', rest)
  | 't' :: rest => some ('\t', rest)
  | 'n' :: rest => some ('\n', rest)
  | 'f' :: rest => some ('\x0c', rest)
  | 'r' :: rest => some ('\r', rest)
  | 'e' :: rest => some ('\x1b', rest)
  | '"' :: rest => some ('"', rest)
  | '\\' :: rest => some ('\\', rest)
  | 'x' :: rest => numberEscape? 2 rest
  | 'u' :: rest => numberEscape? 4 rest
  | 'U' :: rest => numberEscape? 8 rest
  | _ => none

/-- A text in double quotes from behind its opening quote. -/
def basic : Nat → List Char → List Char → Option (String × List Char)
  | 0, _, _ => none
  | n + 1, acc, s =>
    match s with
    | '"' :: rest => some (String.ofList acc.reverse, rest)
    | '\\' :: rest => do
      let (c, rest) ← escape? rest
      basic n (c :: acc) rest
    | c :: rest => if isControl c then none else basic n (c :: acc) rest
    | [] => none

/-- A text in single quotes from behind its opening quote. -/
def literal : List Char → List Char → Option (String × List Char)
  | acc, '\'' :: rest => some (String.ofList acc.reverse, rest)
  | acc, c :: rest => if isControl c then none else literal (c :: acc) rest
  | _, [] => none

/-- Three closing quotes `q` at the start of a text, which up to two quotes of the text itself may
precede: how many these are, and what follows. -/
def closing? (q : Char) (s : List Char) : Option (Nat × List Char) :=
  let run := (s.takeWhile (· == q)).length
  if 3 ≤ run then some (min (run - 3) 2, s.drop (3 + min (run - 3) 2)) else none

/-- The text from its first character on that belongs to no blank and no line break. -/
def skipEmpty : List Char → List Char
  | ' ' :: rest => skipEmpty rest
  | '\t' :: rest => skipEmpty rest
  | '\n' :: rest => skipEmpty rest
  | '\r' :: '\n' :: rest => skipEmpty rest
  | s => s

/-- What follows a backslash that ends a line: the line breaks and blanks up to the next visible
character are no part of the text. -/
def continuation? (s : List Char) : Option (List Char) :=
  (newline? (skipBlanks s)).map skipEmpty

/-- A text of several lines from behind its three opening quotes `q`; escapes count only when
`escapes` is set. A line break is part of the text as it is written. -/
def lines (q : Char) (escapes : Bool) : Nat → List Char → List Char →
    Option (String × List Char)
  | 0, _, _ => none
  | n + 1, acc, s =>
    match closing? q s with
    | some (own, rest) => some (String.ofList (acc.reverse ++ List.replicate own q), rest)
    | none =>
      match s with
      | '\n' :: rest => lines q escapes n ('\n' :: acc) rest
      | '\r' :: '\n' :: rest => lines q escapes n ('\n' :: '\r' :: acc) rest
      | '\\' :: rest =>
        if escapes then
          match continuation? rest with
          | some rest => lines q escapes n acc rest
          | none => do
            let (c, rest) ← escape? rest
            lines q escapes n (c :: acc) rest
        else lines q escapes n ('\\' :: acc) rest
      | c :: rest => if isControl c then none else lines q escapes n (c :: acc) rest
      | [] => none

/-- Drops a line break that follows three opening quotes. -/
def dropFirstBreak (s : List Char) : List Char := (newline? s).getD s

/-- A quoted text of any kind at the start of a text. -/
def quoted? (s : List Char) : Option (String × List Char) :=
  match s with
  | '"' :: '"' :: '"' :: rest => lines '"' true (s.length + 1) [] (dropFirstBreak rest)
  | '\'' :: '\'' :: '\'' :: rest => lines '\'' false (s.length + 1) [] (dropFirstBreak rest)
  | '"' :: rest => basic (s.length + 1) [] rest
  | '\'' :: rest => literal [] rest
  | _ => none

/-! ## Keys -/

/-- A character of a key written without quotes. -/
def isBare (c : Char) : Bool := c.isAlphanum || c == '_' || c == '-'

/-- A key without dots: bare, or quoted on one line. -/
def simpleKey? (s : List Char) : Option (String × List Char) :=
  match s with
  | '"' :: rest => basic (s.length + 1) [] rest
  | '\'' :: rest => literal [] rest
  | s =>
    let (name, rest) := s.span isBare
    if name.isEmpty then none else some (String.ofList name, rest)

/-- The parts of a dotted key, no more than the given number, with blanks around the dots. -/
def dottedKey? : Nat → List Char → Option (List String × List Char)
  | 0, _ => none
  | n + 1, s => do
    let (part, rest) ← simpleKey? (skipBlanks s)
    match skipBlanks rest with
    | '.' :: rest =>
      let (parts, rest) ← dottedKey? n rest
      return (part :: parts, rest)
    | rest => return ([part], rest)

/-- The largest number of parts of a key, and of brackets and braces that may be open at a time. -/
def maxDepth : Nat := 80

/-- The parts of a key at the start of a text. -/
def key? (s : List Char) : Option (List String × List Char) := dottedKey? maxDepth s

end Filing.Toml
