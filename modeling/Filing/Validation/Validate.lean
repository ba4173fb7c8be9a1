import Filing.Validation.FieldCheck
import Filing.Validation.Rule
import Filing.Validation.Structure

/-!
# Validation

A form is validated in three parts, all of which always run: the submitted values one by one, the
rules of the form, and template and data as a whole. A template can also be checked before there is
any data.
-/

namespace Filing

/-- Checks a template without data. -/
def Template.validate (t : Template) : Report where
  structural := t.issues

namespace FormData

/-- The issues of the values of static fields. -/
def staticValueIssues (s : Settings) (t : Template) (d : FormData) : List Issue :=
  t.staticFields.flatMap fun f =>
    (d.value? f.path).elim [] fun value => checkValue s.dateFormats f value f.path

/-- The issues of the values in a row. -/
def rowValueIssues (s : Settings) (table : Table) (ordinal : Nat) (row : Row) : List Issue :=
  table.rowTemplate.flatMap fun f =>
    (row.find? f.path).elim [] fun value =>
      checkValue s.dateFormats f value (rowPlace table.id ordinal f.path)

/-- The issues of the values in the rows of all tables. -/
def tableValueIssues (s : Settings) (t : Template) (d : FormData) : List Issue :=
  t.tables.flatMap fun (_, table) =>
    ((d.rows table.id).mapIdx fun i row => rowValueIssues s table (i + 1) row).flatten

/-- The static field that a rule is about. -/
def ruleField? (t : Template) (rule : Rule) : Option Field :=
  (t.field? rule.field).filter fun _ => !t.isRowField rule.field

/-- The issue of a rule that does not hold. -/
def ruleIssues (t : Template) (d : FormData) (rule : Rule) : List Issue :=
  let field := ruleField? t rule
  if rule.holds (field.bind (d.value? ·.path)) d then []
  else [{
    severity := rule.kind.severity
    category := .rule
    field := some rule.field
    path := field.elim "" (·.path)
    message := s!"{rule.id}: {rule.message}" }]

/-- Validates form data against its template and the rules of its form. -/
def validate (s : Settings) (t : Template) (rules : RuleBook) (d : FormData) : Report where
  field := d.staticValueIssues s t ++ d.tableValueIssues s t
  rule := (rules.rulesFor t.formCode).flatMap (d.ruleIssues t)
  structural := t.issues ++ d.structuralIssues s t

end FormData

end Filing
