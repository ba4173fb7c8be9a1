import Filing.Toml.Table
import Filing.Toml.Scalar
import Filing.Toml.Text

/-!
# Reading TOML

Version 1.1 of the language: inline tables may run over several lines and end with a comma, and a
byte-order mark in front of the text is skipped.

As in the JSON reader, the nested readers count down from twice the length of the text. A second
number counts the brackets and braces that may still be opened.
-/

namespace Filing.Toml

open Filing.Data (Value)

mutual

/-- A value at the start of a text, and what follows it; `depth` more brackets and braces may be
opened. -/
def value : Nat → Nat → List Char → Option (Value × List Char)
  | 0, _, _ => none
  | n + 1, depth, s =>
    match s, depth with
    | '[' :: rest, depth + 1 => do
      let (vs, rest) ← items n depth [] (skipSpace rest)
      return (.list vs, rest)
    | '\x7b' :: rest, depth + 1 => do
      let (ms, rest) ← inlineMembers n depth [] (skipSpace rest)
      return ((Node.table .header ms).value, rest)
    | c :: _, _ =>
      if c == '"' || c == '\'' then (quoted? s).map fun (t, rest) => (.string t, rest)
      else scalar? s
    | [], _ => none

/-- The items of a list, after those in `acc` (in reverse), with its closing bracket. -/
def items : Nat → Nat → List Value → List Char → Option (List Value × List Char)
  | 0, _, _, _ => none
  | n + 1, depth, acc, s =>
    match s with
    | ']' :: rest => some (acc.reverse, rest)
    | s => do
      let (v, rest) ← value n depth s
      match skipSpace rest with
      | ',' :: rest => items n depth (v :: acc) (skipSpace rest)
      | ']' :: rest => return ((v :: acc).reverse, rest)
      | _ => none

/-- The members of an inline table, added to those in `acc`, with its closing brace. Comments and
line breaks may stand between any two tokens other than the parts of a key. -/
def inlineMembers : Nat → Nat → Members → List Char → Option (Members × List Char)
  | 0, _, _, _ => none
  | n + 1, depth, acc, s =>
    match s with
    | '\x7d' :: rest => some (acc, rest)
    | s => do
      let (path, rest) ← key? s
      match skipSpace rest with
      | '=' :: rest =>
        let (v, rest) ← value n depth (skipSpace rest)
        let acc ← acc.enter v path
        match skipSpace rest with
        | ',' :: rest => inlineMembers n depth acc (skipSpace rest)
        | '\x7d' :: rest => return (acc, rest)
        | _ => none
      | _ => none

end

/-- Changes the table that the latest header opened. -/
def within (current : List String) (f : Members → Option Members) (root : Members) :
    Option Members :=
  root.within f current

/-- A header from behind its bracket: the path of the table, whether it joins a list of tables, and
what follows. -/
def header? (s : List Char) : Option (List String × Bool × List Char) :=
  match s with
  | '[' :: rest => do
    let (path, rest) ← key? rest
    match rest with
    | ']' :: ']' :: rest => return (path, true, rest)
    | _ => none
  | s => do
    let (path, rest) ← key? s
    match rest with
    | ']' :: rest => return (path, false, rest)
    | _ => none

/-- Reads line after line into the tree `root`, the table `current` being open. -/
def expressions : Nat → List String → Members → List Char → Option Members
  | 0, _, _, _ => none
  | n + 1, current, root, s =>
    match skipSpace s with
    | [] => some root
    | '[' :: rest => do
      let (path, many, rest) ← header? rest
      let (front, last) ← path.getLast?.map (path.dropLast, ·)
      let root ← within front (if many then Members.addTable last else Members.openTable last) root
      expressions n path root (← endOfLine? rest)
    | s => do
      let (path, rest) ← key? s
      match rest with
      | '=' :: rest =>
        let rest := skipBlanks rest
        let (v, rest) ← value (2 * rest.length + 2) maxDepth rest
        let root ← within current (Members.enter v path) root
        expressions n current root (← endOfLine? rest)
      | _ => none

/-- The record that a TOML text holds. -/
def read (s : String) : Option Value := do
  let cs := match s.toList with
    | '\uFEFF' :: rest => rest
    | cs => cs
  let root ← expressions (cs.length + 1) [] [] cs
  return (Node.table .header root).value

end Filing.Toml
