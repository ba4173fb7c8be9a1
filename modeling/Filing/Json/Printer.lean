import Filing.Data.Value
import Filing.Text.Quoted

/-!
# Writing JSON

Two layouts of one language: compact, and indented by two blanks a level, where empty lists and
records stay on one line. A text is escaped only where the grammar demands it, so letters of every
script are written as they are.
-/

namespace Filing.Json

open Filing.Data (Value)

/-- A character as it stands in a quoted text. -/
def escape (c : Char) : List Char :=
  if c = '"' then ['\\', '"']
  else if c = '\\' then ['\\', '\\']
  else if c = '\x08' then ['\\', 'b']
  else if c = '\x0c' then ['\\', 'f']
  else if c = '\n' then ['\\', 'n']
  else if c = '\r' then ['\\', 'r']
  else if c = '\t' then ['\\', 't']
  else if c.toNat < 0x20 then
    ['\\', 'u', '0', '0', if c.toNat < 0x10 then '0' else '1'] ++ Text.hexDigits (c.toNat % 0x10)
  else [c]

/-- A quoted text. -/
def quote (s : String) : String := String.ofList ('"' :: (s.toList.flatMap escape ++ ['"']))

/-- A scalar, or nothing for a list or a record. -/
def scalar : Value → String
  | .null => "null"
  | .bool b => if b then "true" else "false"
  | .integer n => toString n
  | .literal t => t
  | .string s => quote s
  | .unpaired => "null"
  | .list _ => ""
  | .record _ => ""

mutual

/-- Appends a value in the compact layout. -/
def compact (out : String) : Value → String
  | .list [] => out ++ "[]"
  | .list (v :: vs) => compactItems (compact (out ++ "[") v) vs ++ "]"
  | .record [] => out ++ "\x7b\x7d"
  | .record ((name, v) :: ms) =>
    compactMembers (compact (out ++ "\x7b" ++ quote name ++ ":") v) ms ++ "\x7d"
  | v => out ++ scalar v

/-- Appends the further items of a list. -/
def compactItems (out : String) : List Value → String
  | [] => out
  | v :: vs => compactItems (compact (out ++ ",") v) vs

/-- Appends the further members of a record. -/
def compactMembers (out : String) : List (String × Value) → String
  | [] => out
  | (name, v) :: ms => compactMembers (compact (out ++ "," ++ quote name ++ ":") v) ms

end

/-- The compact text of a value. -/
def render (v : Value) : String := compact "" v

/-- A line break and the indentation of a level. -/
def newline (level : Nat) : String := "\n" ++ String.ofList (List.replicate (2 * level) ' ')

mutual

/-- Appends a value in the indented layout; its own lines stand at `level`. -/
def indented (level : Nat) (out : String) : Value → String
  | .list [] => out ++ "[]"
  | .list (v :: vs) =>
    indentedItems level (indented (level + 1) (out ++ "[" ++ newline (level + 1)) v) vs ++
      newline level ++ "]"
  | .record [] => out ++ "\x7b\x7d"
  | .record ((name, v) :: ms) =>
    indentedMembers level
      (indented (level + 1) (out ++ "\x7b" ++ newline (level + 1) ++ quote name ++ ": ") v) ms ++
      newline level ++ "\x7d"
  | v => out ++ scalar v

/-- Appends the further items of a list whose brackets stand at `level`. -/
def indentedItems (level : Nat) (out : String) : List Value → String
  | [] => out
  | v :: vs =>
    indentedItems level (indented (level + 1) (out ++ "," ++ newline (level + 1)) v) vs

/-- Appends the further members of a record whose braces stand at `level`. -/
def indentedMembers (level : Nat) (out : String) : List (String × Value) → String
  | [] => out
  | (name, v) :: ms =>
    indentedMembers level
      (indented (level + 1) (out ++ "," ++ newline (level + 1) ++ quote name ++ ": ") v) ms

end

/-- The indented text of a value. -/
def renderIndented (v : Value) : String := indented 0 "" v

end Filing.Json
