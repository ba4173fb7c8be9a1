import Filing.Data.Value
import Filing.Settings
import Filing.Text.Natural

/-!
# Validation reports

An issue is one finding about a form: an error, which makes it invalid, or a warning, which only
costs points. A report groups the issues by the part of validation that found them and keeps them in
the order in which they were found. Whether a form is valid, and its score, follow from the issues.
-/

namespace Filing

open Data (Value)

/-- How serious an issue is. -/
inductive Severity where
  /-- The form is invalid. -/
  | error
  /-- The form loses points. -/
  | warning
deriving DecidableEq, Repr

/-- The name of a severity. -/
def Severity.name : Severity → String
  | .error => "error"
  | .warning => "warning"

/-- The part of validation that found an issue. -/
inductive Category where
  /-- The checks of single values. -/
  | field
  /-- The rules of the form. -/
  | rule
  /-- The checks of template and data as a whole. -/
  | structural
deriving DecidableEq, Repr

/-- The name of a category. -/
def Category.name : Category → String
  | .field => "field"
  | .rule => "business_rule"
  | .structural => "structural"

/-- A finding about a form. -/
structure Issue where
  /-- How serious it is. -/
  severity : Severity
  /-- Which part of validation found it. -/
  category : Category
  /-- The field it is about, if it is about one. -/
  field : Option String
  /-- The place it is about; empty when it is about the form as a whole. -/
  path : String
  /-- What was found. -/
  message : String
deriving DecidableEq, Repr

namespace Issue

/-- The issue makes the form invalid. -/
def isError (i : Issue) : Bool := i.severity == .error

/-- An issue on one line. -/
def line (i : Issue) : String :=
  if i.path.isEmpty then s!"{i.severity.name}: {i.message}"
  else s!"{i.severity.name} [{i.path}]: {i.message}"

/-- An issue as a record; field and place are left out when there are none. -/
def toValue (i : Issue) : Value :=
  .record <|
    [("severity", .string i.severity.name), ("category", .string i.category.name)] ++
    i.field.toList.map (fun id => ("field_id", .string id)) ++
    (if i.path.isEmpty then [] else [("path", .string i.path)]) ++
    [("message", .string i.message)]

end Issue

/-- The issues found by a validation. -/
structure Report where
  /-- Issues about single values. -/
  field : List Issue := []
  /-- Rules that do not hold. -/
  rule : List Issue := []
  /-- Issues about template and data as a whole. -/
  structural : List Issue := []
deriving DecidableEq, Repr

namespace Report

/-- Adds an issue to those of its category. -/
def push (r : Report) (i : Issue) : Report :=
  match i.category with
  | .field => { r with field := r.field ++ [i] }
  | .rule => { r with rule := r.rule ++ [i] }
  | .structural => { r with structural := r.structural ++ [i] }

/-- All issues, category by category. -/
def issues (r : Report) : List Issue := r.field ++ r.rule ++ r.structural

/-- The errors. -/
def errors (r : Report) : List Issue := r.issues.filter (·.isError)

/-- The warnings. -/
def warnings (r : Report) : List Issue := r.issues.filter (!·.isError)

/-- The issues about a field. -/
def about (r : Report) (field : String) : List Issue := r.issues.filter (·.field == some field)

/-- There are no errors. -/
def isValid (r : Report) : Bool := r.errors.isEmpty

/-- A number kept to 32 bits: larger ones become the largest. -/
def clamp (n : Nat) : Nat := min n Text.maxWord32

/-- The best score. -/
def fullScore : Nat := 100

/-- The score: each issue costs the points of its kind, down to zero. -/
def score (w : ScoreWeights) (r : Report) : Nat :=
  fullScore - clamp (clamp r.errors.length * w.error) -
    clamp (clamp r.warnings.length * w.warning)

/-- A report as a record. -/
def toValue (r : Report) : Value :=
  .record [("field_issues", .list (r.field.map Issue.toValue)),
    ("rule_issues", .list (r.rule.map Issue.toValue)),
    ("structural_issues", .list (r.structural.map Issue.toValue))]

end Report

end Filing
