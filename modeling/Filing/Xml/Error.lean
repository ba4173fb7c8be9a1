import Filing.Xml.Escape

/-!
# Errors of XML documents

Everything that makes a document unreadable, with its wording. An error is placed at the byte where
the construct begins in which it is found; only an element that is never closed is placed at the end
of the document.
-/

namespace Filing.Xml

/-- What makes a document unreadable. -/
inductive Fault where
  /-- An exclamation mark opens neither a comment, a CDATA section nor a document type. -/
  | unknownMarkup
  /-- A comment does not end, or does not begin with two hyphens. -/
  | unclosedComment
  /-- A CDATA section does not end, or does not begin with its keyword. -/
  | unclosedCData
  /-- A document type does not end, or does not begin with its keyword. -/
  | unclosedDoctype
  /-- A document type without a name. -/
  | unnamedDoctype
  /-- A processing instruction or XML declaration does not end. -/
  | unclosedInstruction
  /-- A tag does not end. -/
  | unclosedTag
  /-- An end tag closes another element than the innermost open one. -/
  | mismatchedEnd (expected found : String)
  /-- An end tag where no element is open. -/
  | unmatchedEnd (found : String)
  /-- A text or an attribute value with a bad reference. -/
  | escape (e : EscapeError)
  /-- The document ends inside an element. -/
  | unclosedElement (name : String)
  /-- A further element beside the root. -/
  | secondRoot (name first : String)
deriving DecidableEq, Repr

/-- The wording of a fault. -/
def Fault.message : Fault → String
  | .unknownMarkup => "syntax error: unknown or missed symbol in markup"
  | .unclosedComment => "syntax error: comment not closed: `-->` not found before end of input"
  | .unclosedCData => "syntax error: CDATA not closed: `]]>` not found before end of input"
  | .unclosedDoctype => "syntax error: DOCTYPE not closed: `>` not found before end of input"
  | .unnamedDoctype =>
    "ill-formed document: `<!DOCTYPE>` declaration does not contain a name of a document type"
  | .unclosedInstruction =>
    "syntax error: processing instruction or xml declaration not closed: `?>` not found " ++
      "before end of input"
  | .unclosedTag => "syntax error: tag not closed: `>` not found before end of input"
  | .mismatchedEnd expected found =>
    s!"ill-formed document: expected `</{expected}>`, but `</{found}>` was found"
  | .unmatchedEnd found =>
    s!"ill-formed document: close tag `</{found}>` does not match any open tag"
  | .escape e => e.message
  | .unclosedElement name => s!"unclosed element <{name}>"
  | .secondRoot name first => s!"second root element <{name}> after <{first}>"

/-- An unreadable document. -/
structure Error where
  /-- The byte at which the faulty construct begins. -/
  position : Nat
  /-- What is wrong with it. -/
  fault : Fault
deriving DecidableEq, Repr

/-- Why a text is not a document with the root that was asked for. -/
inductive DocumentError where
  /-- The text is not well formed. -/
  | illFormed (e : Error)
  /-- The root element has another name, or there is none and `found` is empty. -/
  | malformedRoot (expected found : String)
deriving DecidableEq, Repr

/-- The wording of a document error. -/
def DocumentError.message : DocumentError → String
  | .illFormed e => s!"malformed XML at byte {e.position}: {e.fault.message}"
  | .malformedRoot expected found => s!"expected root element <{expected}>, found <{found}>"

end Filing.Xml
