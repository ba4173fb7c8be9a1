/-!
# Failures

What can go wrong around the forms themselves: files that cannot be read or written, settings that
cannot be used, form data that cannot be decoded, a template that was asked for and is none. A
failure is a cause and what was being done when it occurred; the *advice* about it is what the user
is told, together with details and a suggestion where there is one.
-/

namespace Filing

/-- The kind of a file error. -/
inductive FileErrorKind where
  /-- There is no such file. -/
  | notFound
  /-- The file may not be used. -/
  | permissionDenied
  /-- There is such a file already. -/
  | alreadyExists
  /-- Anything else. -/
  | other
deriving DecidableEq, Repr

/-- Why a file cannot be read or written. -/
structure FileError where
  /-- The kind of the error. -/
  kind : FileErrorKind
  /-- Its wording. -/
  message : String
deriving DecidableEq, Repr

/-- What goes wrong in the engine. -/
inductive EngineError where
  /-- A file cannot be read or written. -/
  | file (operation path : String) (cause : FileError)
  /-- The settings are not consistent. -/
  | settings (message : String)
  /-- There is no settings file of that name. -/
  | settingsNotFound (path : String)
  /-- A file holds no form data. -/
  | formData (path reason : String)
  /-- A document cannot be written. -/
  | writing (reason : String)
  /-- A template was asked for, and its file has faults. -/
  | templateRejected (formCode : String) (faults : Nat)
  /-- A file error outside of any operation. -/
  | bareFile (cause : FileError)
  /-- A settings file is no settings file. -/
  | toml (message : String)
  /-- Anything else. -/
  | other (message : String)
deriving DecidableEq, Repr

/-- The wording of an engine error. -/
def EngineError.message : EngineError → String
  | .file operation path _ => s!"Failed to {operation} '{path}'"
  | .settings message => s!"Configuration error: {message}"
  | .settingsNotFound path => s!"Configuration file not found: {path}"
  | .formData path reason => s!"Invalid form data in '{path}': {reason}"
  | .writing reason => s!"XML serialization failed: {reason}"
  | .templateRejected formCode faults =>
    s!"Template for form '{formCode}' failed to parse with {faults} structural error(s)"
  | .bareFile cause => s!"IO error: {cause.message}"
  | .toml message => s!"TOML parsing error: {message}"
  | .other message => message

/-- Why something failed. -/
inductive Cause where
  /-- An error of the engine. -/
  | engine (e : EngineError)
  /-- A file error on its own. -/
  | file (e : FileError)
  /-- A text that is no TOML. -/
  | toml (message : String)
  /-- A text that is no JSON. -/
  | json (message : String)
  /-- Anything else. -/
  | plain (message : String)
deriving DecidableEq, Repr

/-- The wording of a cause. -/
def Cause.message : Cause → String
  | .engine e => e.message
  | .file e => e.message
  | .toml message => message
  | .json message => message
  | .plain message => message

/-- A failure. -/
structure Failure where
  /-- What was being done, the widest description first. -/
  contexts : List String := []
  /-- Why it failed. -/
  cause : Cause
deriving DecidableEq, Repr

namespace Failure

/-- The failure of an engine error. -/
def ofError (e : EngineError) : Failure := { cause := .engine e }

/-- The failure that a message describes. -/
def ofMessage (message : String) : Failure := { cause := .plain message }

/-- Says what was being done. -/
def within (f : Failure) (context : String) : Failure :=
  { f with contexts := context :: f.contexts }

/-- The wording of the failure from the widest description to the cause. -/
def chain (f : Failure) : List String := f.contexts ++ [f.cause.message]

/-- The first line of a failure. -/
def headline (f : Failure) : String := f.chain.headD ""

/-- The failure with all that led to it, numbered. -/
def story (f : Failure) : String :=
  match f.chain.drop 1 with
  | [] => f.headline
  | causes =>
    let lines := (causes.mapIdx fun i cause => s!"\n  {i + 1}: {cause}").foldl (· ++ ·) ""
    f.headline ++ "\n\nCaused by:" ++ lines

end Failure

/-- What the user is told about a failure. -/
structure Advice where
  /-- What went wrong. -/
  error : EngineError
  /-- More about it. -/
  details : Option String := none
  /-- What to do about it. -/
  suggestion : Option String := none
deriving DecidableEq, Repr

namespace Advice

/-- What form data should look like. -/
def formDataShape : String := "Form data must be a JSON object with `values` and `rows` keys"

/-- What to do when a file may not be used. -/
def checkPermissions : String := "Check file permissions and ownership"

/-- The advice about an engine error. -/
def ofError : EngineError → Advice
  | .file operation path cause => {
      error := .file operation path cause
      details := some cause.message
      suggestion := some (if cause.kind = .permissionDenied then checkPermissions
        else "Check that the path exists and is accessible") }
  | .settings message => {
      error := .settings message
      details := some "The configuration is read from $TAXFORM_CONFIG"
      suggestion := some "Fix the configuration file or remove it to use defaults" }
  | .settingsNotFound path => {
      error := .settingsNotFound path
      suggestion := some "Pass an existing file with --config or unset TAXFORM_CONFIG" }
  | .formData path reason => {
      error := .formData path reason
      suggestion := some formDataShape }
  | .templateRejected formCode faults => {
      error := .templateRejected formCode faults
      suggestion :=
        some "Run `taxform parse` on the template to list every structural error" }
  | e => { error := .other e.message }

/-- The advice about a failure. What was being done is told unless the engine itself can say what
went wrong. -/
def ofFailure (f : Failure) : Advice :=
  match f.cause with
  | .engine e => ofError e
  | .file e => {
      error := .other f.headline
      details := some e.message
      suggestion := match e.kind with
        | .notFound => some "Check that the file exists and the path is correct"
        | .permissionDenied => some checkPermissions
        | _ => none }
  | .toml message => {
      error := .settings message
      details := some "TOML errors are usually caused by missing quotes or mismatched brackets"
      suggestion := some "Check the TOML syntax of your taxform.toml" }
  | .json message => {
      error := .other f.headline
      details := some message
      suggestion := some formDataShape }
  | .plain _ => { error := .other f.story }

/-- The advice as one text. -/
def text (a : Advice) : String :=
  a.error.message ++ (a.details.elim "" ("\nDetails: " ++ ·)) ++
    a.suggestion.elim "" ("\nSuggestion: " ++ ·)

/-- The advice as it is printed on the terminal. -/
def report (a : Advice) : String :=
  "error: " ++ a.error.message ++ "\n" ++
    (a.details.elim "" fun d => "details: " ++ d ++ "\n") ++
    a.suggestion.elim "" fun s => "suggestion: " ++ s ++ "\n"

end Advice

end Filing
