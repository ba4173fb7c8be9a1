import Filing.Calendar.Format
import Filing.Form.Field
import Filing.Text.Numeric
import Filing.Validation.Report

/-!
# Checks of single values

A value that was submitted is checked against its field: a blank value only for being required, any
other for its form, its length and its bounds. The form is that of the value without the blanks
around it; the length is that of the value as it was submitted.
-/

namespace Filing

open Text (isDecimalDigit)

/-- Ten digits, or ten digits, a hyphen and three digits; digits of any script count. -/
def isTaxCode (s : String) : Bool :=
  let main := s.toList.take 10
  let branch := s.toList.drop 10
  main.length == 10 && main.all isDecimalDigit &&
    match branch with
    | [] => true
    | [h, a, b, c] => h == '-' && [a, b, c].all isDecimalDigit
    | _ => false

/-- What a checkbox holds: one of 0, 1, true and false, letters in any case. -/
def isCheckboxValue (s : String) : Bool :=
  ["0", "1", "true", "false"].any fun v => Text.sameIgnoringCase s.toList v.toList

/-- What is wrong with the form of a value, given without the blanks around it. -/
def formComplaints (formats : List String) (f : Field) (value : String) : List String :=
  match f.control with
  | .taxCode =>
    if isTaxCode value then []
    else [s!"'{value}' is not a valid tax code (10 digits, optional -NNN branch suffix)"]
  | .number =>
    match Decimal.ofText? value with
    | none => [s!"'{value}' is not a number"]
    | some n =>
      (match f.min with
        | some min => if n < min then [s!"{n} is below the minimum {min}"] else []
        | none => []) ++
      (match f.max with
        | some max => if max < n then [s!"{n} is above the maximum {max}"] else []
        | none => [])
  | .date =>
    if (Calendar.readDateIn? formats value).isSome then []
    else
      let accepted := ", ".intercalate formats
      [s!"'{value}' is not a date in any accepted format ({accepted})"]
  | .checkbox =>
    if isCheckboxValue value then []
    else [s!"'{value}' is not a checkbox value (0, 1, true, false)"]
  | _ => []

/-- What is wrong with the length of a value. -/
def lengthComplaints (f : Field) (value : String) : List String :=
  match f.maxLength with
  | some maxLength =>
    if maxLength < value.length then
      [s!"value has {value.length} characters, more than the maximum {maxLength}"]
    else []
  | none => []

/-- What is wrong with a submitted value. -/
def valueComplaints (formats : List String) (f : Field) (value : String) : List String :=
  if Text.hasContent value then
    formComplaints formats f (Text.trim value) ++ lengthComplaints f value
  else if f.required then [s!"required field '{f.id}' is empty"]
  else []

/-- The issues of a value submitted for a field at a place. -/
def checkValue (formats : List String) (f : Field) (value place : String) : List Issue :=
  (valueComplaints formats f value).map fun message =>
    { severity := .error, category := .field, field := some f.id, path := place, message }

end Filing
