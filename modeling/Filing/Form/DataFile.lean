import Filing.Calendar.Format
import Filing.Data.Value
import Filing.Form.Data
import Filing.Json.Reader

/-!
# Form data files

Form data is stored as JSON. Members that are missing have no values, members with unknown names
are ignored, and the members may also be given by position. Of several values for one path or table
the last one counts.
-/

namespace Filing

open Data (Value fields? field?)

namespace KeyMap

/-- A map as a record. -/
def toValue {β : Type} (encode : β → Value) (m : KeyMap β) : Value :=
  .record (m.entries.map fun (k, v) => (k, encode v))

/-- The map that a record holds. -/
def ofValue? {β : Type} (decode : Value → Option β) (v : Value) : Option (KeyMap β) := do
  let members ← v.members?
  let entries ← members.mapM fun (k, v) => (decode v).map (k, ·)
  return KeyMap.ofList entries

end KeyMap

/-- A row as a record. -/
def Row.toValue (r : Row) : Value := KeyMap.toValue .string r

/-- The row that a record holds. -/
def Row.ofValue? (v : Value) : Option Row := KeyMap.ofValue? Value.string? v

/-- The status that a text names; a record with that name and no value is the same. -/
def Status.ofValue? : Value → Option Status
  | .string s => Status.ofName? s
  | .record [(s, .null)] => Status.ofName? s
  | _ => none

/-- Names outside the shape are ignored, and a list may not be longer than it. -/
def formDataShape : Data.Strictness where
  knownNamesOnly := false
  surplusItems := false

namespace Signature

/-- A signature as a record. -/
def toValue (s : Signature) : Value :=
  .record [("signer", .string s.signer), ("date", .string s.date.isoText)]

/-- The signature that a record holds. -/
def ofValue? (v : Value) : Option Signature :=
  match fields? formDataShape ["signer", "date"] v with
  | some [some (.string signer), some (.string date)] =>
    (Calendar.readDate? Calendar.isoFormat date).map (⟨signer, ·⟩)
  | _ => none

end Signature

/-- A signature, or the absent value. -/
def optionalSignature? : Value → Option (Option Signature)
  | .null => some none
  | v => (Signature.ofValue? v).map some

namespace FormData

/-- Form data as a record; an absent signature is left out. -/
def toValue (d : FormData) : Value :=
  .record <|
    [("formCode", .string d.formCode), ("templateVersion", .string d.templateVersion),
      ("values", d.values.toValue .string),
      ("rows", d.tables.toValue fun rows => .list (rows.map Row.toValue))] ++
    (d.signature.toList.map fun s => ("signature", s.toValue)) ++
    [("status", .string d.status.name)]

/-- The form data that a record holds. -/
def ofValue? (v : Value) : Option FormData := do
  match ← fields? formDataShape
      ["formCode", "templateVersion", "values", "rows", "signature", "status"] v with
  | [formCode, templateVersion, values, rows, signature, status] =>
    return {
      formCode := ← field? Value.string? "" formCode
      templateVersion := ← field? Value.string? "" templateVersion
      values := ← field? (KeyMap.ofValue? Value.string?) ∅ values
      tables := ← field? (KeyMap.ofValue? (Value.listOf? Row.ofValue?)) ∅ rows
      signature := ← field? optionalSignature? none signature
      status := ← field? Status.ofValue? .draft status }
  | _ => none

/-- The form data that a JSON text holds. -/
def ofText? (text : String) : Option FormData := (Json.read text).bind ofValue?

end FormData

end Filing
