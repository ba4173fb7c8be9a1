import Filing.Command.Arguments
import Filing.Command.Run

/-!
# The program

The outer layer: it loads the files that an invocation names, runs the invocation, writes the
document and prints. Nothing is decided here. If the document cannot be written, the invocation is
run again with that knowledge.
-/

namespace Filing.Main

/-- The number of a system error, which is told with either sign. -/
def systemCode (code : UInt32) : UInt32 := if 0x80000000 ≤ code then 0 - code else code

/-- The wording of a system error. -/
def systemError (kind : FileErrorKind) (words : String) (code : UInt32) : FileError :=
  ⟨kind, s!"{words} (os error {systemCode code})"⟩

/-- The error of a file operation. -/
def fileError : IO.Error → FileError
  | .noFileOrDirectory _ code _ => systemError .notFound "No such file or directory" code
  | .permissionDenied _ code _ => systemError .permissionDenied "Permission denied" code
  | .alreadyExists _ code _ => systemError .alreadyExists "File exists" code
  | .inappropriateType _ code _ =>
    if systemCode code = 20 then systemError .other "Not a directory" code
    else systemError .other "Is a directory" code
  | .invalidArgument _ code _ =>
    if systemCode code = 36 then systemError .other "File name too long" code
    else systemError .other "Invalid argument" code
  | e => ⟨.other, toString e⟩

/-- The text of a file. -/
def load (path : String) : IO (Except FileError String) := do
  try
    return .ok (← IO.FS.readFile path)
  catch e =>
    return .error (fileError e)

/-- There is a file of that name. -/
def isThere (path : String) : IO Bool := do
  try
    discard (IO.FS.realPath path)
    return true
  catch _ =>
    return false

/-- The files with the given names. -/
def loadAll (paths : List String) : IO Files := do
  let texts ← paths.mapM fun path => return (path, ← load path)
  let there ← paths.filterM isThere
  return {
    read := fun path =>
      match texts.find? (·.1 == path) with
      | some (_, text) => text
      | none => .error ⟨.notFound, "No such file or directory (os error 2)"⟩
    has := there.contains
    refusal? := fun _ => none }

/-- Writes the document of an ending, if there is one, and answers why that failed. -/
def deliver (e : Ending) : IO (Option FileError) := do
  match e.written with
  | none => return none
  | some (path, text) =>
    try
      IO.FS.writeFile path text
      return none
    catch e =>
      return some (fileError e)

/-- Runs the program with the given arguments. -/
def run (args : List String) : IO UInt32 := do
  match Arguments.read args with
  | .error e =>
    if e.exitCode = 0 then IO.print e.message else IO.eprint e.message
    return UInt32.ofNat e.exitCode
  | .ok i =>
    let fallback ← IO.getEnv "TAXFORM_CONFIG"
    let files ← loadAll ((i.settings.or fallback).toList ++ i.command.sources)
    let ending := i.run files fallback
    let ending ← match ← deliver ending with
      | none => pure ending
      | some e => pure (i.run { files with refusal? := fun _ => some e } fallback)
    IO.print ending.stdout
    IO.eprint ending.messages
    return UInt32.ofNat ending.exitCode

end Filing.Main

/-- The entry point of the program. -/
def main (args : List String) : IO UInt32 := Filing.Main.run args
