import Filing.Data.Value
import Filing.Path
import Filing.Text.Natural
import Filing.Text.Quoted
import Filing.Toml.Reader

/-!
# Settings

What can be adjusted: the root of template files, the formats of dates, the shape of exported
documents, the weights of the score, and how unknown paths are judged. Everything has a default; a
settings file may name any part of it, but nothing else.

Reading checks the grammar and the types only. `Settings.check` demands besides that names and paths
can be written as elements and that signer and signing date do not share a place.
-/

namespace Filing

open Data (Value fields? field?)

/-- The element names of exported documents. -/
structure DocumentSettings where
  /-- The root element. -/
  root : String := "HSoThueDTu"
  /-- The element below the root that holds the values; paths start there. -/
  body : String := "HSoKhaiThue"
  /-- The element of a table row. -/
  rowElement : String := "Row"
  /-- Where the signing date stands. -/
  signingDatePath : String := "TTinChung/TTinTKhaiThue/TKhaiThue/ngayKy"
  /-- Where the name of the signer stands. -/
  signerPath : String := "TTinChung/TTinTKhaiThue/TKhaiThue/nguoiKy"
deriving DecidableEq, Repr

/-- What an issue costs of the score. -/
structure ScoreWeights where
  /-- The points that an error costs. -/
  error : Nat := 5
  /-- The points that a warning costs. -/
  warning : Nat := 2
deriving DecidableEq, Repr

/-- All settings. -/
structure Settings where
  /-- The root element of template files. -/
  templateRoot : String := "Template"
  /-- The formats in which dates may be entered, tried in this order. -/
  dateFormats : List String := ["%d/%m/%Y", "%Y-%m-%d"]
  /-- The shape of exported documents. -/
  document : DocumentSettings := {}
  /-- The weights of the score. -/
  scoring : ScoreWeights := {}
  /-- Data at a path that the template does not know is an error rather than a warning. -/
  strictUnknownPaths : Bool := false
deriving DecidableEq, Repr

/-! ## Reading -/

/-- Only known names are admitted; `surplus` tells whether a list may be longer than the shape. -/
def settingsShape (surplus : Bool) : Data.Strictness where
  knownNamesOnly := true
  surplusItems := surplus

namespace DocumentSettings

/-- The element names that a record holds. -/
def ofValue? (surplus : Bool) (v : Value) : Option DocumentSettings := do
  let d : DocumentSettings := {}
  match ← fields? (settingsShape surplus)
      ["root", "body", "row_element", "signing_date_path", "signer_path"] v with
  | [root, body, rowElement, signingDatePath, signerPath] =>
    return {
      root := ← field? Value.string? d.root root
      body := ← field? Value.string? d.body body
      rowElement := ← field? Value.string? d.rowElement rowElement
      signingDatePath := ← field? Value.string? d.signingDatePath signingDatePath
      signerPath := ← field? Value.string? d.signerPath signerPath }
  | _ => none

/-- The element names as a record. -/
def toValue (d : DocumentSettings) : Value :=
  .record [("root", .string d.root), ("body", .string d.body),
    ("row_element", .string d.rowElement), ("signing_date_path", .string d.signingDatePath),
    ("signer_path", .string d.signerPath)]

end DocumentSettings

namespace ScoreWeights

/-- The weights that a record holds. -/
def ofValue? (surplus : Bool) (v : Value) : Option ScoreWeights := do
  let w : ScoreWeights := {}
  match ← fields? (settingsShape surplus) ["error_weight", "warning_weight"] v with
  | [error, warning] =>
    return {
      error := ← field? (Value.nat? Text.maxWord32) w.error error
      warning := ← field? (Value.nat? Text.maxWord32) w.warning warning }
  | _ => none

/-- The weights as a record. -/
def toValue (w : ScoreWeights) : Value :=
  .record [("error_weight", .nat w.error), ("warning_weight", .nat w.warning)]

end ScoreWeights

namespace Settings

/-- Whether a record makes unknown paths errors. -/
def strictness? (surplus : Bool) (v : Value) : Option Bool := do
  match ← fields? (settingsShape surplus) ["strict_unknown_paths"] v with
  | [strict] => field? Value.bool? false strict
  | _ => none

/-- The settings that a record holds, without checking that they are consistent. -/
def ofValue? (surplus : Bool) (v : Value) : Option Settings := do
  let s : Settings := {}
  match ← fields? (settingsShape surplus)
      ["template_root", "date_formats", "document", "scoring", "validation"] v with
  | [templateRoot, dateFormats, document, scoring, validation] =>
    return {
      templateRoot := ← field? Value.string? s.templateRoot templateRoot
      dateFormats := ← field? (Value.listOf? Value.string?) s.dateFormats dateFormats
      document := ← field? (DocumentSettings.ofValue? surplus) s.document document
      scoring := ← field? (ScoreWeights.ofValue? surplus) s.scoring scoring
      strictUnknownPaths := ← field? (strictness? surplus) false validation }
  | _ => none

/-- The settings as a record. -/
def toValue (s : Settings) : Value :=
  .record [("template_root", .string s.templateRoot), ("date_formats", .strings s.dateFormats),
    ("document", s.document.toValue), ("scoring", s.scoring.toValue),
    ("validation", .record [("strict_unknown_paths", .bool s.strictUnknownPaths)])]

/-! ## Consistency -/

/-- The element names among the settings, by their place in a settings file. -/
def names (s : Settings) : List (String × String) :=
  [("template_root", s.templateRoot), ("document.root", s.document.root),
    ("document.body", s.document.body), ("document.row_element", s.document.rowElement)]

/-- The paths among the settings, by their place in a settings file. -/
def paths (s : Settings) : List (String × String) :=
  [("document.signing_date_path", s.document.signingDatePath),
    ("document.signer_path", s.document.signerPath)]

end Settings

/-- Why settings are not consistent. -/
inductive Inconsistency where
  /-- A setting is no element name. -/
  | badName (key value : String)
  /-- A setting is no path of elements. -/
  | badPath (key value : String)
  /-- Signing date and signer have one path. -/
  | sharedPath
  /-- No date format is given. -/
  | noDateFormat
deriving DecidableEq, Repr

/-- The wording of an inconsistency. -/
def Inconsistency.message : Inconsistency → String
  | .badName key value => s!"{key} = {Text.quote value} is not a valid XML element name"
  | .badPath key value => s!"{key} = {Text.quote value} is not a valid element path"
  | .sharedPath => "document.signing_date_path and document.signer_path must differ"
  | .noDateFormat => "date_formats must list at least one format"

namespace Settings

/-- The first inconsistency of the settings: names come before paths. -/
def inconsistency? (s : Settings) : Option Inconsistency :=
  match s.names.find? fun e => !Path.isElementName e.2 with
  | some (key, value) => some (.badName key value)
  | none =>
    match s.paths.find? fun e => !Path.isResolvable e.2 with
    | some (key, value) => some (.badPath key value)
    | none =>
      if s.document.signingDatePath = s.document.signerPath then some .sharedPath
      else if s.dateFormats.isEmpty then some .noDateFormat
      else none

/-- The settings are consistent. -/
def check (s : Settings) : Bool := s.inconsistency?.isNone

end Settings

/-- Why a settings file cannot be used. -/
inductive SettingsError where
  /-- It is no TOML, or not of the shape of settings. -/
  | malformed
  /-- The settings are not consistent. -/
  | inconsistent (e : Inconsistency)
deriving DecidableEq, Repr

/-- The settings that a TOML text holds. -/
def Settings.ofToml (text : String) : Except SettingsError Settings :=
  match (Toml.read text).bind (ofValue? true) with
  | none => .error .malformed
  | some s =>
    match s.inconsistency? with
    | some e => .error (.inconsistent e)
    | none => .ok s

end Filing
