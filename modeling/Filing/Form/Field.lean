import Filing.Decimal
import Filing.Form.Control
import Filing.Path

/-!
# Fields

A field is one place for a value: where the value stands in the declaration, how it is entered, and
what is demanded of it. Fields refer to each other by id only.
-/

namespace Filing

/-- A field of a template. -/
structure Field where
  /-- The name by which other fields and rules refer to the field. -/
  id : String
  /-- A second name, used by printed reports. -/
  secondaryId : Option String := none
  /-- Where the value stands: below the body of the declaration, or inside a row. -/
  path : String
  /-- How the value is entered. -/
  control : Control
  /-- The control as the template names it. -/
  controlCode : String
  /-- The template calls the value encoded. -/
  encoded : Bool := false
  /-- A value that the template presets. -/
  preset : Option String := none
  /-- The value that is written when none is submitted. -/
  default : Option String := none
  /-- The largest number of characters. -/
  maxLength : Option Nat := none
  /-- The smallest number. -/
  min : Option Decimal := none
  /-- The largest number. -/
  max : Option Decimal := none
  /-- The help topic. -/
  help : Option String := none
  /-- The field on whose value the options depend. -/
  parent : Option String := none
  /-- A field whose options depend on this one. -/
  child : Option String := none
  /-- The field that stores the selected option. -/
  selected : Option String := none
  /-- A value must be submitted. -/
  required : Bool := false
deriving DecidableEq

namespace Field

/-- A field with nothing but its id, its path and its control. -/
def new (id path : String) (control : Control) : Field where
  id
  path := Path.normalize path
  control
  controlCode := toString control.code

/-- The smallest and the largest number, when no number lies between them. -/
def invertedRange? (f : Field) : Option (Decimal × Decimal) :=
  match f.min, f.max with
  | some min, some max => if max < min then some (min, max) else none
  | _, _ => none

end Field

end Filing
