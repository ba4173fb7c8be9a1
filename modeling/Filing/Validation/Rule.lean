import Filing.Form.Data
import Filing.Text.Quoted
import Filing.Validation.Report

/-!
# Rules

A rule is a condition on one field of a form that may look at all of the data. Rules are registered
for a form code and checked in the order of registration.
-/

namespace Filing

/-- What it means when a rule does not hold. -/
inductive RuleKind where
  /-- The form is invalid. -/
  | business
  /-- The form deserves a second look. -/
  | format
deriving DecidableEq, Repr

/-- The severity of an issue about a rule of this kind. -/
def RuleKind.severity : RuleKind → Severity
  | .business => .error
  | .format => .warning

/-- The name of a kind of rules. -/
def RuleKind.name : RuleKind → String
  | .business => "Business"
  | .format => "Format"

/-- A condition on a field. -/
structure Rule where
  /-- The name of the rule. -/
  id : String
  /-- The field it is about. -/
  field : String
  /-- What it means when it does not hold. -/
  kind : RuleKind
  /-- What to say when it does not hold. -/
  message : String
  /-- The condition on the value of the field, if it has one, and on all of the data. -/
  holds : Option String → FormData → Bool

/-- A rule as messages show it, its condition left out. -/
def Rule.summary (r : Rule) : String :=
  "BusinessRule \x7b id: " ++ Text.quote r.id ++ ", field_id: " ++ Text.quote r.field ++
    ", severity: " ++ r.kind.name ++ ", message: " ++ Text.quote r.message ++ ", .. \x7d"

/-- The rules of several forms, each with the code of its form, in the order of registration. -/
abbrev RuleBook := List (String × Rule)

namespace RuleBook

/-- Adds a rule for a form. -/
def register (book : RuleBook) (formCode : String) (rule : Rule) : RuleBook :=
  book ++ [(formCode, rule)]

/-- The rules of a form. -/
def rulesFor (book : RuleBook) (formCode : String) : List Rule :=
  (book.filter (·.1 == formCode)).map (·.2)

end RuleBook

end Filing
