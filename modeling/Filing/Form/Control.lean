/-!
# Controls

How a field is entered and checked. A template names the control of a field by a number; numbers
outside the table of `Control.code` are known to occur and mean a plain text field.

Main statement: reading a number or a name undoes writing it (`ofCode?_code`, `code_of_ofCode?`,
`ofName?_name`).
-/

namespace Filing

/-- The kinds of input that a form knows. -/
inductive Control where
  /-- Free text. -/
  | text
  /-- A box that is ticked or not. -/
  | checkbox
  /-- A selection whose options depend on another field. -/
  | dependentDropdown
  /-- A date. -/
  | date
  /-- A decimal number, possibly within bounds. -/
  | number
  /-- The code of a taxpayer. -/
  | taxCode
  /-- A province. -/
  | provinceDropdown
  /-- A ward, whose options depend on a province. -/
  | wardDropdown
  /-- A country. -/
  | countryDropdown
  /-- A value that is carried along and not shown. -/
  | hidden
deriving DecidableEq, Repr

namespace Control

/-- All controls, in the order of their numbers. -/
def all : List Control :=
  [.text, .checkbox, .dependentDropdown, .taxCode, .date, .number, .hidden, .provinceDropdown,
    .wardDropdown, .countryDropdown]

/-- The number of a control. -/
def code : Control → Nat
  | .text => 0
  | .checkbox => 2
  | .dependentDropdown => 6
  | .taxCode => 12
  | .date => 14
  | .number => 16
  | .hidden => 26
  | .provinceDropdown => 100
  | .wardDropdown => 101
  | .countryDropdown => 102

/-- The control with a number. -/
def ofCode? (n : Nat) : Option Control := all.find? (·.code == n)

/-- The name of a control. -/
def name : Control → String
  | .text => "text"
  | .checkbox => "checkbox"
  | .dependentDropdown => "dependent_dropdown"
  | .date => "date"
  | .number => "number"
  | .taxCode => "tax_code"
  | .provinceDropdown => "province_dropdown"
  | .wardDropdown => "ward_dropdown"
  | .countryDropdown => "country_dropdown"
  | .hidden => "hidden"

/-- The control with a name. -/
def ofName? (s : String) : Option Control := all.find? (·.name == s)

/-- A value means something only once another field has one. -/
def requiresParent : Control → Bool
  | .dependentDropdown => true
  | .wardDropdown => true
  | _ => false

/-- A selection from a list of options. -/
def isDropdown : Control → Bool
  | .dependentDropdown => true
  | .provinceDropdown => true
  | .wardDropdown => true
  | .countryDropdown => true
  | _ => false

theorem ofName?_name (c : Control) : ofName? c.name = some c := by cases c <;> rfl

theorem ofCode?_code (c : Control) : ofCode? c.code = some c := by cases c <;> rfl

theorem code_of_ofCode? {n : Nat} {c : Control} (h : ofCode? n = some c) : c.code = n := by
  simpa using List.find?_some h

end Control

end Filing
