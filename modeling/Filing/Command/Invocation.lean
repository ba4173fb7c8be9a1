/-!
# Invocations

What the command line can ask for: one of four commands, each on files, and a few options that all
of them share.
-/

namespace Filing

/-- The form of what is printed. -/
inductive OutputFormat where
  /-- For people. -/
  | text
  /-- For programs. -/
  | json
deriving DecidableEq, Repr

/-- Reads a template and tells about it. -/
structure ParseCommand where
  /-- The template file. -/
  template : String
  /-- The form it belongs to. -/
  formCode : String
  /-- Defects of the template count too. -/
  check : Bool
  /-- The form of what is printed. -/
  format : OutputFormat
deriving DecidableEq, Repr

/-- Validates form data, or a template alone. -/
structure ValidateCommand where
  /-- The template file. -/
  template : String
  /-- The form it belongs to. -/
  formCode : String
  /-- The file with the form data. -/
  data : Option String
  /-- An adjustment map. -/
  rules : Option String
  /-- The form of what is printed. -/
  format : OutputFormat
deriving DecidableEq, Repr

/-- Exports form data. -/
structure ExportCommand where
  /-- The template file. -/
  template : String
  /-- The form it belongs to. -/
  formCode : String
  /-- The file with the form data. -/
  data : String
  /-- The file to which the document goes, if it is not to be printed. -/
  output : Option String
  /-- An adjustment map. -/
  rules : Option String
  /-- Data with errors is not exported. -/
  requireValid : Bool
  /-- The form of what is printed. -/
  format : OutputFormat
deriving DecidableEq, Repr

/-- Lists the forms on offer. -/
structure CatalogueCommand where
  /-- The menu. -/
  menu : String
  /-- The pairings. -/
  combos : Option String
  /-- The form of what is printed. -/
  format : OutputFormat
deriving DecidableEq, Repr

/-- A command. -/
inductive Command where
  /-- Tell about a template. -/
  | parse (c : ParseCommand)
  /-- Validate. -/
  | validate (c : ValidateCommand)
  /-- Export. -/
  | export (c : ExportCommand)
  /-- List the forms. -/
  | catalogue (c : CatalogueCommand)
deriving DecidableEq, Repr

/-- The files that a command reads. -/
def Command.sources : Command → List String
  | .parse c => [c.template]
  | .validate c => c.template :: (c.data.toList ++ c.rules.toList)
  | .export c => c.template :: c.data :: c.rules.toList
  | .catalogue c => c.menu :: c.combos.toList

/-- What the command line asks for. -/
structure Invocation where
  /-- The command. -/
  command : Command
  /-- Tell what is going on inside. -/
  verbose : Bool
  /-- Print only what matters. -/
  quiet : Bool
  /-- The settings file. -/
  settings : Option String
deriving DecidableEq, Repr

end Filing
