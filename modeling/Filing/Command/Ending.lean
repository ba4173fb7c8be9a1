import Filing.Cache.TemplateCache
import Filing.Command.Failure
import Filing.Form.DataFile
import Filing.Settings
import Filing.Validation.AdjustmentMap

/-!
# Files and endings

A command reads files, prints, and may write one document. `Files` is what it sees of the file
system, `Ending` what it leaves behind: the printed texts, the document, and the failure if there is
one. A command that fails keeps what it has printed before.
-/

namespace Filing

/-- What a command sees of the file system. -/
structure Files where
  /-- The text of a file. -/
  read : String → Except FileError String
  /-- There is a file or a directory of that name. -/
  has : String → Bool
  /-- Why a file cannot be written, if it cannot. -/
  refusal? : String → Option FileError

/-- How a command ends. -/
structure Ending where
  /-- What it has printed. -/
  stdout : String := ""
  /-- What it has told the user beside that, failures excepted. -/
  stderr : String := ""
  /-- The document that it has written, with the name of its file. -/
  written : Option (String × String) := none
  /-- Why it failed, if it failed. -/
  failure : Option Failure := none
deriving DecidableEq

namespace Ending

/-- The status of the program. -/
def exitCode (e : Ending) : Nat := if e.failure.isSome then 1 else 0

/-- All that the user is told beside what is printed. -/
def messages (e : Ending) : String :=
  e.stderr ++ e.failure.elim "" fun f => (Advice.ofFailure f).report

/-- The ending of a command that fails at once. -/
def failed (f : Failure) : Ending := { failure := some f }

end Ending

namespace Files

/-- The text of a file that plays a part, such as that of the menu. -/
def readPart (files : Files) (part path : String) : Except Failure String :=
  (files.read path).mapError fun e => .ofError (.file s!"read {part} file" path e)

/-- The reading of a template file, by way of a cache that is still empty. -/
def template (files : Files) (s : Settings) (path formCode : String) :
    Except Failure TemplateReading := do
  let source ← files.readPart "template" path
  match (TemplateCache.getTemplate {} s.templateRoot source formCode).2 with
  | some r => return r.reading
  | none => throw (.ofMessage "the template is being read by someone else")

/-- The reason for refusing form data. -/
def notFormData : String := "not a record of form data"

/-- The form data in a file. -/
def formData (files : Files) (path : String) : Except Failure FormData := do
  let text ← files.readPart "form data" path
  match FormData.ofText? text with
  | some d => return d
  | none => throw (.ofError (.formData path notFormData))

/-- The rules of an adjustment map, if there is one. -/
def rules (files : Files) : Option String → Except Failure RuleBook
  | none => .ok []
  | some path => do
    let source ← files.readPart "adjustment map" path
    let (book, _) ← (RuleBook.load [] source).mapError fun e =>
      (Failure.ofMessage e.message).within s!"Invalid adjustment map {path}"
    return book

/-- The reason for refusing a settings file. -/
def notSettings : String := "not a record of settings"

/-- The settings in a file that was asked for; otherwise all have their defaults. -/
def settings (files : Files) : Option String → Except Failure Settings
  | none => .ok {}
  | some path =>
    let result : Except EngineError Settings :=
      if files.has path then
        match files.read path with
        | .error e => .error (.bareFile e)
        | .ok text =>
          match Settings.ofToml text with
          | .ok s => .ok s
          | .error .malformed => .error (.toml notSettings)
          | .error (.inconsistent e) => .error (.settings e.message)
      else .error (.settingsNotFound path)
    result.mapError fun e => (Failure.ofError e).within "Failed to load engine configuration"

end Files

end Filing
