import Filing.Calendar.Date
import Filing.Form.Template
import Filing.KeyMap

/-!
# Form data

What is filled in for one form: a value for each path, rows for each table, and a signature. The
status tells how far the data has come. It speaks about the data as it stands, so every edit sends
it back to a draft; only a report without errors makes it validated, and only a compliant export of
validated data makes it exported.

Main statements: one equation of `value?` for each edit of a value (`value?_setValue`,
`value?_removeValue`) and one of `rows` for each edit of a table (`rows_pushRow`,
`rows_setRowValue`, `rows_removeRow`).
-/

namespace Filing

open Calendar (Date)

/-- The values of one row, by path inside the row. -/
abbrev Row := KeyMap String

/-- How far form data has come. -/
inductive Status where
  /-- Being filled in, or changed since it was validated. -/
  | draft
  /-- Validated without errors and not changed since. -/
  | validated
  /-- Exported in a compliant document and not changed since. -/
  | exported
deriving DecidableEq, Repr

namespace Status

/-- The name of a status. -/
def name : Status → String
  | .draft => "draft"
  | .validated => "validated"
  | .exported => "exported"

/-- All statuses. -/
def all : List Status := [.draft, .validated, .exported]

/-- The status with a name. -/
def ofName? (s : String) : Option Status := all.find? (·.name == s)

theorem ofName?_name (s : Status) : ofName? s.name = some s := by cases s <;> rfl

end Status

/-- Who signed a declaration, and when. -/
structure Signature where
  /-- The name of the signer. -/
  signer : String
  /-- The day of the signature. -/
  date : Date
deriving DecidableEq

/-- The data filled in for a form. -/
structure FormData where
  /-- The form the data belongs to. -/
  formCode : String := ""
  /-- The version of the form for which the data was entered. -/
  templateVersion : String := ""
  /-- The values of static fields, by path. -/
  values : KeyMap String := ∅
  /-- The rows of the tables, by table. -/
  tables : KeyMap (List Row) := ∅
  /-- The signature, once the declaration is signed. -/
  signature : Option Signature := none
  /-- How far the data has come. -/
  status : Status := .draft
deriving DecidableEq

namespace FormData

/-- Data without values for a template. -/
def forTemplate (t : Template) : FormData where
  formCode := t.formCode
  templateVersion := t.version

/-! ## Values -/

/-- The value at a path. -/
def value? (d : FormData) (path : String) : Option String := d.values.find? path

/-- Sets the value at a path. -/
def setValue (d : FormData) (path value : String) : FormData :=
  { d with values := d.values.insert path value, status := .draft }

/-- Removes the value at a path and answers it; without one nothing changes. -/
def removeValue (d : FormData) (path : String) : FormData × Option String :=
  match d.values.find? path with
  | some value => ({ d with values := d.values.erase path, status := .draft }, some value)
  | none => (d, none)

/-! ## Rows -/

/-- The rows of a table; a table of which nothing is known has none. -/
def rows (d : FormData) (table : String) : List Row := (d.tables.find? table).getD []

/-- Replaces the rows of a table. A table without rows is forgotten. -/
def putRows (d : FormData) (table : String) (rows : List Row) : FormData :=
  let tables := if rows.isEmpty then d.tables.erase table else d.tables.insert table rows
  { d with tables, status := .draft }

/-- Adds a row to a table and answers its ordinal, counted from 1. -/
def pushRow (d : FormData) (table : String) (row : Row) : FormData × Nat :=
  let rows := d.rows table ++ [row]
  (d.putRows table rows, rows.length)

/-- Sets a value in a row, counted from 0, and answers whether there is such a row. -/
def setRowValue (d : FormData) (table : String) (index : Nat) (path value : String) :
    FormData × Bool :=
  if index < (d.rows table).length then
    (d.putRows table ((d.rows table).modify index (·.insert path value)), true)
  else (d, false)

/-- Removes a row, counted from 0, and answers it. -/
def removeRow (d : FormData) (table : String) (index : Nat) : FormData × Option Row :=
  match (d.rows table)[index]? with
  | some row => (d.putRows table ((d.rows table).eraseIdx index), some row)
  | none => (d, none)

/-! ## Signature and status -/

/-- Signs the declaration. -/
def sign (d : FormData) (signature : Signature) : FormData :=
  { d with signature := some signature, status := .draft }

/-- Records whether validation found the data to be valid. -/
def applyVerdict (d : FormData) (valid : Bool) : FormData :=
  { d with status := if valid then .validated else .draft }

/-- Records an export and answers whether the data counts as exported: the document is compliant
and the data was validated. -/
def markExported (d : FormData) (compliant : Bool) : FormData × Bool :=
  if compliant = true ∧ d.status = .validated then ({ d with status := .exported }, true)
  else (d, false)

/-! ## What edits change -/

theorem value?_setValue (d : FormData) (path value p : String) :
    (d.setValue path value).value? p = if p = path then some value else d.value? p :=
  KeyMap.find?_insert ..

theorem value?_removeValue (d : FormData) (path p : String) :
    (d.removeValue path).1.value? p = if p = path then none else d.value? p := by
  unfold removeValue value?
  split
  · exact KeyMap.find?_erase ..
  · split
    · subst p; assumption
    · rfl

theorem rows_putRows (d : FormData) (table t : String) (rows : List Row) :
    (d.putRows table rows).rows t = if t = table then rows else d.rows t := by
  by_cases h : rows = []
  · subst h
    simp only [putRows, FormData.rows, List.isEmpty_nil, if_true, KeyMap.find?_erase]
    split <;> rfl
  · simp only [putRows, FormData.rows, List.isEmpty_iff, h, if_false, KeyMap.find?_insert]
    split <;> rfl

theorem rows_pushRow (d : FormData) (table t : String) (row : Row) :
    (d.pushRow table row).1.rows t = if t = table then d.rows table ++ [row] else d.rows t :=
  d.rows_putRows ..

theorem rows_setRowValue (d : FormData) (table t : String) (index : Nat) (path value : String) :
    (d.setRowValue table index path value).1.rows t =
      if t = table then (d.rows table).modify index (·.insert path value) else d.rows t := by
  by_cases h : index < (d.rows table).length
  · simpa [setRowValue, h] using d.rows_putRows ..
  · rw [List.modify_eq_self (Nat.le_of_not_lt h)]
    by_cases ht : t = table <;> simp [setRowValue, h, ht]

theorem rows_removeRow (d : FormData) (table t : String) (index : Nat) :
    (d.removeRow table index).1.rows t =
      if t = table then (d.rows table).eraseIdx index else d.rows t := by
  unfold removeRow
  cases h : (d.rows table)[index]? with
  | none =>
    rw [List.eraseIdx_of_length_le (List.getElem?_eq_none_iff.1 h)]
    by_cases ht : t = table <;> simp [ht]
  | some row => exact d.rows_putRows ..

end FormData

end Filing
