import Filing.Xml.Escape
import Filing.Xml.Node

/-!
# Writing documents

Each tag stands on a line of its own, indented by two blanks a level; only an element with text and
without children is written on one line. Text beside children is not written.
-/

namespace Filing.Xml

/-- A line break and the indentation of a level. -/
def newline (level : Nat) : List Char := '\n' :: List.replicate (2 * level) ' '

/-- An attribute with a blank in front. -/
def writeAttribute (a : String × String) : List Char :=
  ' ' :: a.1.toList ++ '=' :: '"' :: escape a.2.toList ++ ['"']

/-- The name and the attributes of an element. -/
def writeHead (node : Node) : List Char :=
  node.name.toList ++ node.attrs.flatMap writeAttribute

mutual

/-- Appends an element whose tags stand at `level`. -/
def writeNode (level : Nat) (out : String) : Node → String
  | ⟨name, attrs, text, []⟩ =>
    let head := out ++ String.ofList (newline level ++ '<' :: writeHead ⟨name, attrs, text, []⟩)
    if text.isEmpty then head ++ "/>"
    else head ++ String.ofList ('>' :: escape text.toList ++ '<' :: '/' :: name.toList ++ ['>'])
  | ⟨name, attrs, text, child :: children⟩ =>
    let head := out ++
      String.ofList (newline level ++ '<' :: writeHead ⟨name, attrs, text, []⟩ ++ ['>'])
    writeNodes (level + 1) (writeNode (level + 1) head child) children ++
      String.ofList (newline level ++ '<' :: '/' :: name.toList ++ ['>'])

/-- Appends elements whose tags stand at `level`. -/
def writeNodes (level : Nat) (out : String) : List Node → String
  | [] => out
  | node :: rest => writeNodes level (writeNode level out node) rest

end

/-- The document with an element as its root. -/
def Node.document (root : Node) : String :=
  writeNode 0 "<?xml version=\"1.0\" encoding=\"UTF-8\"?>" root

end Filing.Xml
