import Filing.Proofs.Document.Reload
import Filing.Proofs.Validation.Completed
import Filing.Proofs.Validation.WellFormed

/-!
# The verdict on a filed form

Reading a compliant document back completes the data: a field that had no value has the empty text
now. For a template without errors and without default values this does not change how many errors
there are, so the data that is read back is valid exactly when the data that was exported was.
-/

namespace Filing

namespace Assembly

/-- Without a default an absent value is written as the empty text. -/
theorem valueFor_of_default_eq_none {f : Field} (hf : f.default = none)
    (submitted : Option String) : valueFor f submitted = submitted.getD "" := by
  rw [valueFor, hf, Option.or_none]

end Assembly

namespace Export

open Assembly

variable {s : Settings} {t : Template} {d : FormData} {r : Recovered}

/-- Each row has a record that holds what was written for it. -/
theorem forall₂_rows_of_isRecovered (hr : (Assembly.ofFormData s t d).plan.IsRecovered t r)
    {e : String × Table} (he : e ∈ t.tables) (hres : Path.isResolvable e.2.path = true) :
    List.Forall₂ (fun row found => ∃ ordinal, (placedRow e.2 ordinal row).IsRecovered found)
      (d.rows e.2.id) ((r.rows.find? e.2.id).getD []) := by
  rw [List.forall₂_iff_get]
  constructor
  · rw [← length_placedRows, (rows_of_isRecovered hr he hres).length_eq]
  · intro k hrow hfound
    exact ⟨k + 1, isRecovered_getElem? hr he hres (List.getElem?_eq_getElem hrow)
      (List.getElem?_eq_getElem hfound)⟩

section Completed

variable (h : t.IsWellFormed) (hdefaults : ∀ f ∈ t.fields, f.default = none)

include h hdefaults

/-- The value at the path of a field is the submitted one, or the empty text. -/
theorem value?_formData_of_isRecovered
    (hr : (Assembly.ofFormData s t d).plan.IsRecovered t r) {f : Field} (hf : f ∈ t.staticFields) :
    (r.formData t).value? f.path = some ((d.value? f.path).getD "") := by
  have hmem : f ∈ t.fields := (Template.staticFields_sublist t).mem hf
  have hfirst : t.staticFieldAt? f.path = some f := find?_path_of_nodup h.statics hf
  have hentry : (Assembly.ofFormData s t d).plan.statics.find? f.path =
      some ⟨f, (d.value? f.path).getD ""⟩ := by
    rw [find?_statics_ofFormData, if_pos (h.fieldPaths f hmem), hfirst, Option.map_some,
      valueFor_of_default_eq_none (hdefaults f hmem)]
  exact hr.statics f.path _ hentry

/-- The values of a record are those of its row, or the empty text. -/
theorem find?_values_of_isRecovered {e : String × Table} (he : e ∈ t.tables) {ordinal : Nat}
    {row : Row} {found : RowRecord} (hfound : (placedRow e.2 ordinal row).IsRecovered found)
    {f : Field} (hf : f ∈ e.2.rowTemplate) :
    found.values.find? f.path = some ((row.find? f.path).getD "") := by
  have hmem : f ∈ t.fields := (Template.rowTemplate_sublist he).mem hf
  have hfirst := find?_path_of_nodup (h.rows e he) hf
  have hplaced := hfound.values _ (mem_values_placedRow (h.fieldPaths f hmem) hfirst)
  rwa [valueFor_of_default_eq_none (hdefaults f hmem)] at hplaced

/-- The data of the document is the data that was exported, completed. -/
theorem isCompletedBy_formData (hr : (Assembly.ofFormData s t d).plan.IsRecovered t r) :
    d.IsCompletedBy t (r.formData t) := by
  constructor
  · intro f hf
    exact value?_formData_of_isRecovered h hdefaults hr hf
  · intro e he
    rw [Recovered.rows_formData, List.forall₂_map_right_iff]
    refine (forall₂_rows_of_isRecovered hr he (h.tablePaths e he)).imp ?_
    rintro row found ⟨ordinal, hfound⟩ f hf
    exact find?_values_of_isRecovered h hdefaults he hfound hf

end Completed

/-- Reading a compliant document back changes neither the number of errors nor the verdict, for a
template without errors and without default values, where unknown data is no error and no rules are
registered. -/
theorem length_errors_formData (s : Settings) (t : Template) (d : FormData)
    (hdefaults : ∀ f ∈ t.fields, f.default = none) (ht : t.validate.isValid = true)
    (hstrict : s.strictUnknownPaths = false) (hc : (ofFormData s t d).isCompliant = true) :
    ∃ r, Recovered.ofText s t (ofFormData s t d).document = .ok r ∧
      ((r.formData t).validate s t []).errors.length = (d.validate s t []).errors.length ∧
      ((r.formData t).validate s t []).isValid = (d.validate s t []).isValid := by
  obtain ⟨-, r, hread, hr⟩ := isCompliant_iff.1 hc
  have h := Template.isValid_validate_iff_isWellFormed.1 ht
  have hcompleted := isCompletedBy_formData h hdefaults hr
  have hlength := hcompleted.length_errors h.ids hstrict
  refine ⟨r, hread, hlength, ?_⟩
  rw [Bool.eq_iff_iff, Report.isValid, Report.isValid, List.isEmpty_iff_length_eq_zero,
    List.isEmpty_iff_length_eq_zero, hlength]

/-- A form with a required field, a field that needs its parent, and a table of one row. -/
def addressForm : Template where
  version := "1"
  formCode := "02"
  sections := [
    ⟨"header", .static [
      { id := "name", path := "A", control := .text, controlCode := "0", required := true },
      { id := "province", path := "B", control := .text, controlCode := "0" },
      { id := "district", path := "C/D", control := .dependentDropdown, controlCode := "6",
        parent := some "province" }]⟩,
    ⟨"items", .dynamic {
      maxRows := 1, id := "items", path := "E", offsets := ⟨0, 0⟩
      rowTemplate := [
        { id := "item", path := "Q", control := .text, controlCode := "0", required := true }] }⟩]

/-- Data without a name and with a district of no province, with one row too many and one of them
empty, and with a value that the form does not know. -/
def openData : FormData where
  values := KeyMap.ofList [("C/D", "7"), ("Z", "z")]
  tables := KeyMap.ofList [("items", [∅, KeyMap.ofList [("Q", "1")]])]

theorem isCompliant_openData : (ofFormData {} addressForm openData).isCompliant = true :=
  (isCompliant_iff_of_check (by decide)).2 ⟨by decide, by decide +kernel⟩

theorem length_errors_formData_openData :
    (∀ f ∈ addressForm.fields, f.default = none) ∧ addressForm.validate.isValid = true ∧
      Settings.strictUnknownPaths {} = false ∧
      (ofFormData {} addressForm openData).isCompliant = true ∧
      (openData.validate {} addressForm []).errors.length = 4 ∧
      ∃ r, Recovered.ofText {} addressForm (ofFormData {} addressForm openData).document = .ok r ∧
        ((r.formData addressForm).validate {} addressForm []).errors.length =
          (openData.validate {} addressForm []).errors.length ∧
        ((r.formData addressForm).validate {} addressForm []).isValid =
          (openData.validate {} addressForm []).isValid := by
  have hdefaults : ∀ f ∈ addressForm.fields, f.default = none := by decide
  have ht : addressForm.validate.isValid = true := by decide +kernel
  refine ⟨hdefaults, ht, rfl, isCompliant_openData, by decide +kernel, ?_⟩
  exact length_errors_formData {} addressForm openData hdefaults ht rfl isCompliant_openData

end Export

end Filing
