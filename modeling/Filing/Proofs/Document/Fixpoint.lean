import Filing.Proofs.Document.Reload
import Filing.Proofs.Document.RoundTrip
import Filing.Proofs.Form.Fields

/-!
# Exporting again

Where the paths of a form are apart, the data that is made of its document is written exactly as the
data that was exported first: the values that were filled in by default are now submitted, and rows
and signature are the same. So the second document is the first one, and nothing in the data is
without a place any more.
-/

namespace Filing

open Xml (Edit)

/-- A remark on a value, a value of a row, or a table that the template does not know. -/
inductive IsStrayRemark : String → Prop where
  | value (path : String) :
      IsStrayRemark s!"value at '{path}' is not part of the template and was not written"
  | rowValue (place : String) :
      IsStrayRemark s!"row value at '{place}' is not part of the template and was not written"
  | table (id : String) : IsStrayRemark s!"rows for unknown table '{id}' were not written"

namespace Assembly

variable {s : Settings} {t : Template} {d d' : FormData}

/-! ## Data that is written alike -/

/-- The same is written for both data. -/
structure WritesAlike (t : Template) (d d' : FormData) : Prop where
  statics : ∀ f ∈ firstFields t.staticFields,
    valueFor f (d'.value? f.path) = valueFor f (d.value? f.path)
  rows : ∀ e ∈ t.tables, placedRows d' e.2 = placedRows d e.2
  signature : d'.signature = d.signature

theorem WritesAlike.edits_eq (h : WritesAlike t d d') : edits s t d' = edits s t d := by
  have hstatics : (firstFields t.staticFields).map (staticEdit d') =
      (firstFields t.staticFields).map (staticEdit d) := by
    refine List.map_congr_left fun f hf => ?_
    rw [staticEdit, staticEdit, h.statics f hf]
  have htables : (placedTables t.tables).map (tableEdit s d' ·.2) =
      (placedTables t.tables).map (tableEdit s d ·.2) := by
    refine List.map_congr_left fun e he => ?_
    rw [tableEdit, tableEdit, h.rows e (List.mem_filter.1 he).1]
  rw [edits, edits, hstatics, htables, h.signature]

/-- What is written alike gives one document. -/
theorem WritesAlike.document_eq (h : WritesAlike t d d') :
    (Export.ofFormData s t d').document = (Export.ofFormData s t d).document := by
  have hbody : (ofFormData s t d').body = (ofFormData s t d).body := by
    rw [body_ofFormData, body_ofFormData, h.edits_eq]
    rfl
  show ((ofFormData s t d').root s).document = ((ofFormData s t d).root s).document
  rw [root, root, hbody]

/-- Values that stand for what was written for them are written alike. -/
theorem placedRow_eq_of_isExact {table : Table} {k : Nat} {row : Row} {found : RowRecord}
    (h : found.IsExact table k row) :
    placedRow table (k + 1) found.values = placedRow table (k + 1) row := by
  have hvalues : ∀ f ∈ rowFields table,
      valueFor f (found.values.find? f.path) = valueFor f (row.find? f.path) := by
    intro f hf
    rw [rowFields_eq] at hf
    rw [h.values, find?_path_of_mem_firstFields hf]
    rfl
  have hplaced : ((rowFields table).map fun f => Placed.mk f
      (valueFor f (found.values.find? f.path))) =
      (rowFields table).map fun f => Placed.mk f (valueFor f (row.find? f.path)) :=
    List.map_congr_left fun f hf => by rw [hvalues f hf]
  rw [placedRow, placedRow, hplaced]

/-! ## The data of a document -/

/-- Every remark on static fields is about one whose path an earlier one has. -/
theorem mem_warnings_foldl_addStatic {fields : List Field} {a : Assembly} {w : String}
    (hw : w ∈ (fields.foldl (addStatic d) a).warnings) :
    w ∈ a.warnings ∨ ∃ id path first : String,
      w = s!"field '{id}' shares path '{path}' with '{first}' and was not written" := by
  induction fields generalizing a with
  | nil => exact .inl hw
  | cons f fields ih =>
    rcases ih hw with hw | hw
    · unfold addStatic at hw
      split at hw
      · exact .inl hw
      · split at hw
        · next first _ =>
          rcases List.mem_append.1 hw with hw | hw
          · exact .inl hw
          · exact .inr ⟨f.id, f.path, first.field.id, List.mem_singleton.1 hw⟩
        · exact .inl hw
    · exact .inr hw

theorem staticFieldAt?_signing (hfree : ∀ f ∈ t.staticFields,
      f.path ≠ s.document.signingDatePath ∧ f.path ≠ s.document.signerPath) :
    t.staticFieldAt? s.document.signingDatePath = none ∧
      t.staticFieldAt? s.document.signerPath = none := by
  constructor
  · exact List.find?_eq_none.2 fun f hf => by simpa using (hfree f hf).1
  · exact List.find?_eq_none.2 fun f hf => by simpa using (hfree f hf).2

section Reread

variable {r : Recovered} (hr : r.IsExact s t d)

include hr

/-- The value at the path of a field is the one that was written. -/
theorem valueFor_formData {f : Field} (hf : f ∈ firstFields t.staticFields) :
    valueFor f ((r.formData t).value? f.path) = valueFor f (d.value? f.path) := by
  have hfound : (r.formData t).value? f.path = some (valueFor f (d.value? f.path)) := by
    show r.values.find? f.path = _
    rw [hr.values, Template.staticFieldAt?, find?_path_of_mem_firstFields hf]
    rfl
  rw [hfound]
  rfl

theorem unknownPaths_formData : (r.formData t).unknownPaths t = [] := by
  refine List.filter_eq_nil_iff.2 fun path hpath => ?_
  have hvalue : (r.values.find? path).isSome := KeyMap.mem_keys_iff.1 hpath
  rw [hr.values, Option.isSome_map] at hvalue
  rw [Option.isNone_iff_eq_none]
  exact Option.isSome_iff_ne_none.1 hvalue

theorem unknownTables_formData : (r.formData t).unknownTables t = [] := by
  refine List.filter_eq_nil_iff.2 fun id hid => ?_
  obtain ⟨rows, hrows⟩ := Option.isSome_iff_exists.1 (KeyMap.mem_keys_iff.1 hid)
  obtain ⟨found, hfound, -⟩ := Recovered.mem_rowEntries.1 (KeyMap.mem_of_find?_ofList hrows)
  have hcount := hr.rowCount id
  rw [hfound, Option.map_some] at hcount
  cases htable : t.table? id with
  | none =>
    rw [htable] at hcount
    exact absurd hcount (by simp)
  | some table => simp

theorem warnings_start : (start s t (r.formData t)).warnings = [] := by
  have hversion : (r.formData t).templateVersion = t.version := by
    show r.templateVersion.getD t.version = t.version
    rw [hr.templateVersion]
    rfl
  unfold start
  rw [hversion]
  simp

/-- The signature is the one that was written, where no field has a path of it. -/
theorem signature_formData (hfree : ∀ f ∈ t.staticFields,
      f.path ≠ s.document.signingDatePath ∧ f.path ≠ s.document.signerPath) :
    (r.formData t).signature = d.signature := by
  obtain ⟨hnoDate, hnoSigner⟩ := staticFieldAt?_signing hfree
  have hdate := hr.signingDate
  have hsigner := hr.signer
  rw [hnoDate, if_neg (by simp)] at hdate
  rw [hnoSigner, if_neg (by simp)] at hsigner
  show r.signature? = d.signature
  cases hsig : d.signature with
  | none =>
    rw [hsig] at hsigner
    unfold Recovered.signature?
    rw [hsigner]
    rfl
  | some signature =>
    rw [hsig] at hdate hsigner
    exact Recovered.signature?_of_written hdate hsigner

variable (h : t.IsApart s)

include h

/-- The records of a table are as many as its rows, and each is that of the row with its index. -/
theorem exists_records_of_isExact {e : String × Table} (he : e ∈ t.tables) :
    ∃ records, r.rows.find? e.2.id = some records ∧
      records.length = (d.rows e.2.id).length ∧
      ∀ (k : Nat) (row : Row) (found : RowRecord), (d.rows e.2.id)[k]? = some row →
        records[k]? = some found → found.IsExact e.2 k row := by
  have htable : t.table? e.2.id = some e.2 := Template.table?_of_mem h.ids he
  have hcount := hr.rowCount e.2.id
  rw [htable, Option.map_some, Option.map_eq_some_iff] at hcount
  obtain ⟨records, hrecords, hlength⟩ := hcount
  exact ⟨records, hrecords, hlength, fun k row found hrow hfound =>
    hr.rows e.2.id e.2 records k row found htable hrecords hrow hfound⟩

/-- Every row has a record, and every record is that of a row. -/
theorem rows_formData_of_isExact {e : String × Table} (he : e ∈ t.tables) (k : Nat) :
    ((r.formData t).rows e.2.id)[k]? = none ∧ (d.rows e.2.id)[k]? = none ∨
      ∃ row found, (d.rows e.2.id)[k]? = some row ∧ RowRecord.IsExact e.2 k row found ∧
        ((r.formData t).rows e.2.id)[k]? = some found.values := by
  obtain ⟨records, hrecords, hlength, hexact⟩ := exists_records_of_isExact hr h he
  rw [Recovered.rows_formData, hrecords, Option.getD_some, List.getElem?_map]
  cases hrow : (d.rows e.2.id)[k]? with
  | none =>
    have hbound := List.getElem?_eq_none_iff.1 hrow
    rw [List.getElem?_eq_none (by omega)]
    exact .inl ⟨rfl, rfl⟩
  | some row =>
    have hbound : k < records.length := by
      rw [hlength]
      exact (List.getElem?_eq_some_iff.1 hrow).1
    have hfound := List.getElem?_eq_getElem hbound
    rw [hfound]
    exact .inr ⟨row, _, rfl, hexact k row _ hrow hfound, rfl⟩

theorem placedRows_formData {e : String × Table} (he : e ∈ t.tables) :
    placedRows (r.formData t) e.2 = placedRows d e.2 := by
  apply List.ext_getElem?
  intro k
  rw [getElem?_placedRows, getElem?_placedRows]
  rcases rows_formData_of_isExact hr h he k with ⟨hnone, hnone'⟩ | ⟨row, found, hrow, hexact, hfound⟩
  · rw [hnone, hnone']
  · rw [hrow, hfound, Option.map_some, Option.map_some, placedRow_eq_of_isExact hexact]

theorem tableWarnings_formData {e : String × Table} (he : e ∈ t.tables) :
    tableWarnings (r.formData t) e.2 = [] := by
  rw [tableWarnings, if_pos (h.tables e he), List.flatten_eq_nil_iff]
  intro remarks hremarks
  obtain ⟨k, hk⟩ := List.getElem?_of_mem hremarks
  rw [List.getElem?_mapIdx] at hk
  rcases rows_formData_of_isExact hr h he k with ⟨hnone, -⟩ | ⟨row, found, -, hexact, hfound⟩
  · rw [hnone] at hk
    exact absurd hk (by simp)
  · rw [hfound, Option.map_some, Option.some.injEq] at hk
    rw [← hk, rowWarnings, List.map_eq_nil_iff, List.filter_eq_nil_iff]
    intro key hkey
    have hvalue := KeyMap.mem_keys_iff.1 hkey
    rw [hexact.values, Option.isSome_map, ← any_path_eq_isSome] at hvalue
    rw [hvalue]
    decide

theorem fitsWords_formData (hfits : d.FitsWords t) : (r.formData t).FitsWords t := by
  intro e he
  obtain ⟨htemplate, hreport, hlength⟩ := hfits e he
  have hrows := congrArg List.length (placedRows_formData hr h he)
  rw [length_placedRows, length_placedRows] at hrows
  exact ⟨htemplate, hreport, by rw [hrows]; exact hlength⟩

variable (hfree : ∀ f ∈ t.staticFields,
  f.path ≠ s.document.signingDatePath ∧ f.path ≠ s.document.signerPath)

include hfree

theorem writesAlike_formData : WritesAlike t d (r.formData t) where
  statics _ hf := valueFor_formData hr hf
  rows _ he := placedRows_formData hr h he
  signature := signature_formData hr hfree

/-- The only remarks are about fields that share a path. -/
theorem exists_shared_of_mem_warnings {w : String}
    (hw : w ∈ (ofFormData s t (r.formData t)).warnings) : ∃ id path first : String,
      w = s!"field '{id}' shares path '{path}' with '{first}' and was not written" := by
  obtain ⟨hnoDate, hnoSigner⟩ := staticFieldAt?_signing hfree
  have htables : (t.tables.flatMap fun e => tableWarnings (r.formData t) e.2) = [] :=
    List.flatMap_eq_nil_iff.2 fun e he => tableWarnings_formData hr h he
  have hsigning : ((r.formData t).signature.elim [] fun _ =>
      signingWarnings t s.document.signingDatePath ++ signingWarnings t s.document.signerPath) =
        [] := by
    unfold signingWarnings
    rw [hnoDate, hnoSigner]
    cases (r.formData t).signature <;> rfl
  have hunknown : unknownWarnings t (r.formData t) = [] := by
    rw [unknownWarnings, unknownPaths_formData hr, unknownTables_formData hr]
    rfl
  rw [ofFormData_eq, htables, hsigning, hunknown, List.append_nil, List.append_nil,
    List.append_nil] at hw
  rcases mem_warnings_foldl_addStatic hw with hw | hw
  · rw [warnings_start hr] at hw
    exact absurd hw List.not_mem_nil
  · exact hw

end Reread

/-- A remark on shared paths is none on data without a place. -/
theorem not_isStrayRemark_of_shared (id path first : String) : ¬ IsStrayRemark
    s!"field '{id}' shares path '{path}' with '{first}' and was not written" := by
  intro hstray
  generalize hw : s!"field '{id}' shares path '{path}' with '{first}' and was not written" = w
    at hstray
  cases hstray with
  | value path => simpa [toString] using congrArg String.toList hw
  | rowValue place => simpa [toString] using congrArg String.toList hw
  | table id => simpa [toString] using congrArg String.toList hw

end Assembly

namespace Export

/-- With consistent settings and a form whose paths are apart, those of the signature from static
fields as well, the data of a document is exported compliantly and gives the same document, and
nothing in it is without a place. -/
theorem document_formData (s : Settings) (t : Template) (d : FormData) (hs : s.check = true)
    (h : t.IsApart s) (hfree : ∀ f ∈ t.staticFields,
      f.path ≠ s.document.signingDatePath ∧ f.path ≠ s.document.signerPath)
    (hfits : d.FitsWords t) :
    ∃ r, Recovered.ofText s t (ofFormData s t d).document = .ok r ∧
      (ofFormData s t (r.formData t)).isCompliant = true ∧
      (ofFormData s t (r.formData t)).document = (ofFormData s t d).document ∧
      ∀ w ∈ (ofFormData s t (r.formData t)).warnings, ¬ IsStrayRemark w := by
  have hr := Assembly.isExact_of_isApart hs h hfits
  refine ⟨_, Assembly.ofText_document hs t d, ?_, ?_, fun w hw => ?_⟩
  · exact Assembly.isCompliant_of_isSeparated hs h.isPlaced (h.isSeparated _)
      (Assembly.fitsWords_formData hr h hfits)
  · exact (Assembly.writesAlike_formData hr h hfree).document_eq
  · obtain ⟨id, path, first, rfl⟩ := Assembly.exists_shared_of_mem_warnings hr h hfree hw
    exact Assembly.not_isStrayRemark_of_shared id path first

/-- A form whose paths are apart, with two fields that share one and with default values. -/
def presetForm : Template where
  version := "1"
  formCode := "02"
  sections := [
    ⟨"header", .static [
      { id := "a", path := "A", control := .text, controlCode := "0", default := some "x" },
      { id := "b", path := "A", control := .text, controlCode := "0" }]⟩,
    ⟨"items", .dynamic {
      maxRows := 1, id := "items", path := "B/C", offsets := ⟨3, 5⟩
      rowTemplate := [
        { id := "q", path := "Q/R", control := .text, controlCode := "0", default := some "y" },
        { id := "s", path := "S", control := .date, controlCode := "14", required := true }] }⟩]

/-- Signed data for it, with a value, a value of a row and a table that it does not know. -/
def strayData : FormData where
  values := KeyMap.ofList [("Z", "z")]
  tables := KeyMap.ofList [("items", [KeyMap.ofList [("S", " "), ("Z", "z")], ∅]), ("more", [∅])]
  signature := smallData.signature

theorem isApart_presetForm : presetForm.IsApart {} where
  statics := by decide
  tables := by decide
  rows := by decide
  ids := by decide
  outer := by decide
  tablePaths := by decide
  texts := by decide
  inner := by decide

theorem document_formData_strayData :
    Settings.check {} = true ∧ presetForm.IsApart {} ∧
      (∀ f ∈ presetForm.staticFields, f.path ≠ (Settings.document {}).signingDatePath ∧
        f.path ≠ (Settings.document {}).signerPath) ∧
      strayData.FitsWords presetForm ∧
      (ofFormData {} presetForm strayData).warnings ≠ [] ∧
      ∃ r, Recovered.ofText {} presetForm (ofFormData {} presetForm strayData).document = .ok r ∧
        (ofFormData {} presetForm (r.formData presetForm)).isCompliant = true ∧
        (ofFormData {} presetForm (r.formData presetForm)).document =
          (ofFormData {} presetForm strayData).document ∧
        ∀ w ∈ (ofFormData {} presetForm (r.formData presetForm)).warnings, ¬ IsStrayRemark w := by
  have hs : Settings.check {} = true := by decide
  have hfree : ∀ f ∈ presetForm.staticFields, f.path ≠ (Settings.document {}).signingDatePath ∧
      f.path ≠ (Settings.document {}).signerPath := by decide
  have hfits : strayData.FitsWords presetForm := by unfold FormData.FitsWords; decide
  have hw : (Assembly.ofFormData {} presetForm strayData).warnings ≠ [] := by decide +kernel
  exact ⟨hs, isApart_presetForm, hfree, hfits, hw,
    document_formData {} presetForm strayData hs isApart_presetForm hfree hfits⟩

end Export

end Filing
