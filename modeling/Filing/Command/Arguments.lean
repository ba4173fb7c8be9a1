import Filing.Command.Invocation

/-!
# Command line arguments

The arguments are read from left to right: first options that all commands share, then the name of
a command, then its options and its file. An option is written with two hyphens and its name, or
with one hyphen and its letter; several letters may share a hyphen. A value follows as the next
argument or behind an equals sign, and behind a letter also at once. After two hyphens alone,
everything is a file.

A value is looked at only when the next option or file is reached, so of two faults the earlier one
is not always the one that is reported.
-/

namespace Filing

/-- Why arguments are refused, or answered with a text of their own. -/
inductive UsageError where
  /-- An argument that is required is missing. -/
  | missingArgument
  /-- There is no command of that name. -/
  | unknownCommand
  /-- A value is missing or is none of those that are allowed. -/
  | badValue
  /-- An option is given twice, or two that exclude each other. -/
  | conflict
  /-- There is no such option, or no place for another file. -/
  | unknownArgument
  /-- A value for an option that has none. -/
  | surplusValue
  /-- Options without a command. -/
  | missingCommand
  /-- Nothing is given. -/
  | nothing
  /-- Help is asked for. -/
  | help
  /-- The version is asked for. -/
  | version
deriving DecidableEq, Repr

/-- How the program is used. -/
def usage : String :=
  "Usage: taxform [OPTIONS] <COMMAND>\n\n" ++
  "Commands:\n" ++
  "  parse      Parse a template source and report its structure\n" ++
  "  validate   Validate a template, or form data against it\n" ++
  "  export     Export form data to a declaration document\n" ++
  "  catalogue  List the forms offered by a template set's menu\n\n" ++
  "Options:\n" ++
  "  -v, --verbose        Enable debug logging\n" ++
  "  -q, --quiet          Suppress all output except errors\n" ++
  "  -c, --config <FILE>  Path to an engine configuration file (TOML)\n" ++
  "  -h, --help           Print help\n" ++
  "  -V, --version        Print version\n"

/-- The wording of a usage error. -/
def UsageError.message : UsageError → String
  | .missingArgument => "error: a required argument is missing\n\n" ++ usage
  | .unknownCommand => "error: there is no such command\n\n" ++ usage
  | .badValue => "error: a value is missing or not allowed\n\n" ++ usage
  | .conflict => "error: an option is repeated or excluded by another one\n\n" ++ usage
  | .unknownArgument => "error: an argument is not expected\n\n" ++ usage
  | .surplusValue => "error: an option has a value but takes none\n\n" ++ usage
  | .missingCommand => "error: a command is required\n\n" ++ usage
  | .nothing => usage
  | .help => usage
  | .version => "taxform 0.1.0\n"

/-- The status with which the program ends. -/
def UsageError.exitCode : UsageError → Nat
  | .help => 0
  | .version => 0
  | _ => 2

/-- What is given with an option. -/
inductive OptionKind where
  /-- Nothing. -/
  | flag
  /-- Any text. -/
  | text
  /-- The name of a file, which is not empty. -/
  | path
  /-- The name of an output format. -/
  | format
  /-- Nothing; the option asks for help. -/
  | help
  /-- Nothing; the option asks for the version. -/
  | version
deriving DecidableEq, Repr

/-- An option. -/
structure OptionSpec where
  /-- Its name. -/
  name : String
  /-- Its letter, if it has one. -/
  letter : Option Char := none
  /-- What is given with it. -/
  kind : OptionKind
deriving DecidableEq, Repr

namespace OptionSpec

/-- A value is given with the option. -/
def takesValue (o : OptionSpec) : Bool :=
  match o.kind with
  | .text => true
  | .path => true
  | .format => true
  | _ => false

/-- The value may be given with the option. -/
def accepts (o : OptionSpec) (value : String) : Bool :=
  match o.kind with
  | .path => !value.isEmpty
  | .format => value == "text" || value == "json"
  | _ => true

end OptionSpec

/-- What may be given at one level of the command line. -/
structure LevelSpec where
  /-- The options. -/
  options : List OptionSpec
  /-- The file, or the names of the commands of the next level. -/
  file : Option OptionSpec
  /-- The names of the commands of the next level. -/
  commands : List String := []
  /-- The options and files that must be given. -/
  required : List String := []

/-- What has been read at one level. -/
structure Level where
  /-- What has been given, with the values; a flag has none. -/
  given : List (String × String) := []
  /-- The option or file whose value is not looked at yet, or has not been read yet. -/
  pending : Option (OptionSpec × Option String) := none
  /-- A file has been given. -/
  hasFile : Bool := false

namespace Level

/-- An option is given. -/
def has (l : Level) (name : String) : Bool := l.given.any (·.1 == name)

/-- The value given with an option. -/
def value? (l : Level) (name : String) : Option String :=
  (l.given.find? (·.1 == name)).map (·.2)

/-- The value of the last option has not been read yet. -/
def expectsValue (l : Level) : Bool :=
  match l.pending with
  | some (_, none) => true
  | _ => false

/-- Enters an option that is given once. -/
def enter (l : Level) (o : OptionSpec) (value : String) : Except UsageError Level :=
  if l.has o.name then .error .conflict
  else if o.accepts value then .ok { l with given := (o.name, value) :: l.given }
  else .error .badValue

/-- Looks at the value that is still open. -/
def settle (l : Level) : Except UsageError Level :=
  match l.pending with
  | none => .ok l
  | some (_, none) => .error .badValue
  | some (o, some value) => { l with pending := none }.enter o value

/-- Takes up an option without a value. -/
def takeFlag (l : Level) (o : OptionSpec) : Except UsageError Level := do
  let l ← l.settle
  match o.kind with
  | .help => .error .help
  | .version => .error .version
  | _ => l.enter o ""

/-- Takes up an option with a value, which may be attached to it. -/
def takeOption (l : Level) (o : OptionSpec) (attached : Option String) :
    Except UsageError Level := do
  let l ← l.settle
  match attached with
  | some value => l.enter o value
  | none => .ok { l with pending := some (o, none) }

/-- Takes up an option by its name, with what follows an equals sign. -/
def takeNamed (spec : LevelSpec) (l : Level) (name : String) (attached : Option String) :
    Except UsageError Level :=
  match spec.options.find? (·.name == name) with
  | none => .error .unknownArgument
  | some o =>
    if o.takesValue then l.takeOption o attached
    else if attached.isSome then .error .surplusValue
    else l.takeFlag o

/-- The value attached to a letter; an equals sign in front does not belong to it. -/
def attachedValue : List Char → Option String
  | [] => none
  | '=' :: value => some (String.ofList value)
  | value => some (String.ofList value)

/-- Takes up options by their letters. -/
def takeLetters (spec : LevelSpec) (l : Level) : List Char → Except UsageError Level
  | [] => .ok l
  | c :: rest =>
    match spec.options.find? (·.letter == some c) with
    | none => .error .unknownArgument
    | some o =>
      if o.takesValue then l.takeOption o (attachedValue rest)
      else do
        let l ← l.takeFlag o
        takeLetters spec l rest

/-- Takes up a file. -/
def takeFile (spec : LevelSpec) (trailing : Bool) (l : Level) (word : String) :
    Except UsageError Level :=
  match spec.file with
  | some o =>
    if l.hasFile then .error .unknownArgument
    else do
      let l ← l.settle
      return { l with pending := some (o, some word), hasFile := true }
  | none =>
    if trailing && spec.commands.contains word then .error .unknownArgument
    else .error .unknownCommand

/-- Splits the name of an option from the value behind an equals sign. -/
def splitName (s : List Char) : String × Option String :=
  let name := s.takeWhile (· != '=')
  match s.drop name.length with
  | [] => (String.ofList name, none)
  | _ :: value => (String.ofList name, some (String.ofList value))

/-- Takes up an argument; `trailing` tells that two hyphens have gone by. -/
def take (spec : LevelSpec) (trailing : Bool) (l : Level) (word : String) :
    Except UsageError Level :=
  match trailing, word.toList with
  | false, '-' :: '-' :: name =>
    let (name, attached) := splitName name
    takeNamed spec l name attached
  | false, '-' :: c :: letters => takeLetters spec l (c :: letters)
  | _, _ =>
    match trailing, l.pending with
    | false, some (o, none) => .ok { l with pending := some (o, some word) }
    | _, _ => takeFile spec trailing l word

/-- Reads the arguments of a level. Where there are commands, the reading ends at the name of one;
answers that name and the arguments after it. -/
def read (spec : LevelSpec) (trailing : Bool) (l : Level) :
    List String → Except UsageError (Level × Option (String × List String))
  | [] => .ok (l, none)
  | word :: rest =>
    if !trailing && !l.expectsValue && spec.commands.contains word then
      .ok (l, some (word, rest))
    else if !trailing && word == "--" then read spec true l rest
    else
      match take spec trailing l word with
      | .ok l => read spec trailing l rest
      | .error e => .error e

/-- Checks a level that has been read: options that exclude each other come before what is
missing. -/
def check (spec : LevelSpec) (l : Level) : Except UsageError Unit :=
  if l.has "verbose" && l.has "quiet" then .error .conflict
  else if spec.required.all l.has then .ok ()
  else .error .missingArgument

end Level

/-! ## The commands -/

namespace Arguments

/-- The options that all levels share. -/
def sharedOptions : List OptionSpec :=
  [⟨"verbose", some 'v', .flag⟩, ⟨"quiet", some 'q', .flag⟩, ⟨"config", some 'c', .path⟩,
    ⟨"help", some 'h', .help⟩]

/-- The names of the commands. -/
def commandNames : List String := ["parse", "validate", "export", "catalogue"]

/-- What may be given before the command. -/
def topLevel : LevelSpec where
  options := sharedOptions ++ [⟨"version", some 'V', .version⟩]
  file := none
  commands := "help" :: commandNames

/-- The form code. -/
def formCodeOption : OptionSpec := ⟨"form-code", none, .text⟩

/-- The format. -/
def formatOption : OptionSpec := ⟨"format", none, .format⟩

/-- The template file. -/
def templateFile : OptionSpec := ⟨"TEMPLATE", none, .path⟩

/-- What may be given with the command that tells about a template. -/
def parseLevel : LevelSpec where
  options := sharedOptions ++ [formCodeOption, ⟨"check", none, .flag⟩, formatOption]
  file := some templateFile
  required := ["TEMPLATE", "form-code"]

/-- What may be given with the command that validates. -/
def validateLevel : LevelSpec where
  options := sharedOptions ++
    [formCodeOption, ⟨"data", none, .path⟩, ⟨"rules", none, .path⟩, formatOption]
  file := some templateFile
  required := ["TEMPLATE", "form-code"]

/-- What may be given with the command that exports. -/
def exportLevel : LevelSpec where
  options := sharedOptions ++
    [formCodeOption, ⟨"data", none, .path⟩, ⟨"output", some 'o', .path⟩, ⟨"rules", none, .path⟩,
      ⟨"require-valid", none, .flag⟩, formatOption]
  file := some templateFile
  required := ["TEMPLATE", "form-code", "data"]

/-- What may be given with the command that lists the forms. -/
def catalogueLevel : LevelSpec where
  options := sharedOptions ++ [⟨"combos", none, .path⟩, formatOption]
  file := some ⟨"MENU", none, .path⟩
  required := ["MENU"]

/-- Reads the arguments of one level to their end and checks them. -/
def readLevel (spec : LevelSpec) (args : List String) : Except UsageError Level := do
  let (l, _) ← Level.read spec false {} args
  let l ← l.settle
  l.check spec
  return l

/-- The format that is given, or text. -/
def format (l : Level) : OutputFormat := if l.value? "format" == some "json" then .json else .text

/-- A value that is known to be given. -/
def given (l : Level) (name : String) : String := (l.value? name).getD ""

/-- Reads the arguments of a command. -/
def readCommand (name : String) (args : List String) : Except UsageError (Command × Level) :=
  if name = "parse" then do
    let l ← readLevel parseLevel args
    return (.parse {
      template := given l "TEMPLATE", formCode := given l "form-code", check := l.has "check"
      format := format l }, l)
  else if name = "validate" then do
    let l ← readLevel validateLevel args
    return (.validate {
      template := given l "TEMPLATE", formCode := given l "form-code", data := l.value? "data"
      rules := l.value? "rules", format := format l }, l)
  else if name = "export" then do
    let l ← readLevel exportLevel args
    return (.export {
      template := given l "TEMPLATE", formCode := given l "form-code", data := given l "data"
      output := l.value? "output", rules := l.value? "rules"
      requireValid := l.has "require-valid", format := format l }, l)
  else do
    let l ← readLevel catalogueLevel args
    return (.catalogue {
      menu := given l "MENU", combos := l.value? "combos", format := format l }, l)

/-- Help is asked for by a command of its own, with the name of a command or without. -/
def helpOn : List String → UsageError
  | [] => .help
  | [name] => if topLevel.commands.contains name then .help else .unknownCommand
  | _ => .unknownCommand

/-- Reads a command line. The level of the command is checked first; of shared options the one given
there counts. -/
def read (args : List String) : Except UsageError Invocation := do
  let (top, command) ← Level.read topLevel false {} args
  match command with
  | some ("help", rest) => .error (helpOn rest)
  | some (name, rest) =>
    let (command, sub) ← readCommand name rest
    let top ← top.settle
    top.check topLevel
    return {
      command
      verbose := top.has "verbose" || sub.has "verbose"
      quiet := top.has "quiet" || sub.has "quiet"
      settings := (sub.value? "config").or (top.value? "config") }
  | none =>
    let top ← top.settle
    .error (if top.given.isEmpty then .nothing else .missingCommand)

end Arguments

end Filing
