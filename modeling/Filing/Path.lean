import Filing.Text.Alphabetic
import Filing.Text.Basic
import Filing.Text.Numeric

/-!
# Paths into a document

A path names a place in a declaration by the elements on the way to it, separated by slashes. Paths
come from templates and from submitted data, so any text may be one; only a *resolvable* path, each
segment of which is an element name, has a place in a document.

Inner empty segments survive normalisation: `a//b` stays as it is and is reported as a defect.
-/

namespace Filing.Path

open Filing.Text (isAlphabetic isBlank isNumeric split strip)

/-- The path without blanks and slashes around it. -/
def normalize (path : String) : String :=
  String.ofList (strip (· == '/') (strip isBlank path.toList))

/-- The segments of a path as lists of characters; the empty path has none. -/
def pieces : List Char → List (List Char)
  | [] => []
  | path => split '/' path

/-- The segments of a path; the empty path has none. -/
def segments (path : String) : List String := (pieces path.toList).map String.ofList

/-- A character that can open an element name. -/
def isNameStart (c : Char) : Bool := isAlphabetic c || c == '_'

/-- A character that can stand inside an element name. -/
def isNameChar (c : Char) : Bool :=
  isAlphabetic c || isNumeric c || c == '_' || c == '-' || c == '.'

/-- The characters form an element name. -/
def isNameOf : List Char → Bool
  | [] => false
  | c :: rest => isNameStart c && rest.all isNameChar

/-- The text is an element name. -/
def isElementName (name : String) : Bool := isNameOf name.toList

/-- The path has a place in a document: it is not empty and each segment is an element name. -/
def isResolvable (path : String) : Bool :=
  !path.toList.isEmpty && (pieces path.toList).all isNameOf

/-- Every character that opens a name may also stand inside one. -/
theorem isNameChar_of_isNameStart {c : Char} (h : isNameStart c = true) : isNameChar c = true := by
  simp only [isNameStart, isNameChar, Bool.or_eq_true] at h ⊢
  rcases h with h | h
  · simp [h]
  · simp [h]

end Filing.Path
