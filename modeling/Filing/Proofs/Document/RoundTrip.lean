import Filing.Proofs.Document.Layout

/-!
# The round trip is exact

Where the settings are consistent and the paths of a form are apart from each other, the export is
compliant and reading its document gives exactly what was submitted: form and version, one value for
each static path, one record for each row, and the signature, with nothing missing and nothing
added. The values can be any texts.
-/

namespace Filing

open Xml (Edit Node)

/-- The paths of a form are apart: every path has a place, none leads through another, tables share
neither paths nor ids with anything, and the same holds inside each row. -/
structure Template.IsApart (s : Settings) (t : Template) : Prop where
  statics : ∀ f ∈ t.staticFields, Path.isResolvable f.path = true
  tables : ∀ e ∈ t.tables, Path.isResolvable e.2.path = true
  rows : ∀ e ∈ t.tables, ∀ f ∈ e.2.rowTemplate, Path.isResolvable f.path = true
  ids : (t.tables.map (·.2.id)).Nodup
  /-- None of the paths of static fields, tables and signature leads through another. -/
  outer : ∀ p ∈ t.bodyPaths s, ∀ q ∈ t.bodyPaths s, ¬ Path.IsAbove p q
  tablePaths : t.tablePaths.Nodup
  /-- No table has the path of a static field or of the signature. -/
  texts : ∀ p ∈ t.tablePaths, p ∉ t.textPaths s
  inner : ∀ e ∈ t.tables, ∀ f ∈ e.2.rowTemplate, ∀ g ∈ e.2.rowTemplate,
    ¬ Path.IsAbove f.path g.path

/-- The record is that of the submitted row with index `k`: its ordinal is `k + 1`, its numbers are
`k` behind the first ones, and at each path it has the value of the first field there: the submitted
one, else the default, else the empty text. -/
structure RowRecord.IsExact (table : Table) (k : Nat) (row : Row) (found : RowRecord) : Prop where
  ordinal : found.ordinal = some (k + 1)
  templateRow : found.templateRow = some (table.offsets.template + k)
  reportRow : found.reportRow = some (table.offsets.report + k)
  values : ∀ path, found.values.find? path =
    (table.rowTemplate.find? (·.path == path)).map fun f => ((row.find? path).or f.default).getD ""

/-- What was read is the form and the data, and nothing else. -/
structure Recovered.IsExact (s : Settings) (t : Template) (d : FormData) (r : Recovered) :
    Prop where
  formCode : r.formCode = some t.formCode
  templateVersion : r.templateVersion = some t.version
  /-- At each static path the value of the first field there, and no values besides. -/
  values : ∀ path, r.values.find? path =
    (t.staticFieldAt? path).map fun f => ((d.value? path).or f.default).getD ""
  rowCount : ∀ id, (r.rows.find? id).map List.length =
    (t.table? id).map fun _ => (d.rows id).length
  rows : ∀ id table records (k : Nat) (row : Row) (found : RowRecord), t.table? id = some table →
    r.rows.find? id = some records → (d.rows id)[k]? = some row → records[k]? = some found →
      found.IsExact table k row
  /-- The signing date, unless a static field has its path. -/
  signingDate : r.signingDate = if (t.staticFieldAt? s.document.signingDatePath).isSome then none
    else d.signature.map (·.date.dayFirstText)
  /-- The signer, unless a static field has the path. -/
  signer : r.signer = if (t.staticFieldAt? s.document.signerPath).isSome then none
    else d.signature.map (·.signer)

namespace Template.IsApart

variable {s : Settings} {t : Template} (h : t.IsApart s)

include h

theorem isPlaced : t.IsPlaced := ⟨h.statics, h.tables, h.rows, h.ids, h.tablePaths⟩

theorem not_through_row {p : String} (hp : p ∈ t.tablePaths) {q : String} (hq : q ∈ t.bodyPaths s) :
    ¬ Path.segments p ++ [s.document.rowElement] <+: Path.segments q := by
  intro hbegins
  refine h.outer p (List.mem_append_right _ hp) q hq ⟨?_, ?_⟩
  · exact (List.prefix_append _ _).trans hbegins
  · rintro rfl
    have hle := hbegins.length_le
    rw [List.length_append, List.length_singleton] at hle
    omega

/-- Paths that are apart are separated, whatever the data. -/
theorem isSeparated (d : FormData) : t.IsSeparated s d where
  texts p hp q hq := h.outer p (List.mem_append_left _ hp) q hq
  rows _ hp _ hq := h.not_through_row hp hq
  tables _ he _ := h.texts _ (Assembly.path_mem_tablePaths he)
  inner e he _ := h.inner e he

end Template.IsApart

namespace Assembly

section Apart

variable {s : Settings} {t : Template} {d : FormData} (hs : s.check = true) (h : t.IsApart s)

include h

/-- Without a signature nothing stands where it would be. -/
theorem find?_body_of_unsigned (hsig : d.signature = none) {path : String}
    (hres : Path.isResolvable path = true) (hpath : path ∈ t.textPaths s)
    (hfree : t.staticFieldAt? path = none) : (ofFormData s t d).body.find? path = none := by
  have hbody : path ∈ t.bodyPaths s := List.mem_append_left _ hpath
  refine find?_body_eq_none hres (fun e he hthrough => ?_)
    (fun p hp => h.not_through_row hp hbody)
  rcases mem_edits.1 he with ⟨f, hf, rfl⟩ | ⟨entry, hentry, rfl⟩ | ⟨signature, hsome, -⟩
  · have hmem := (mem_of_mem_firstFields hf).1
    have hne : path ≠ f.path := by
      rintro rfl
      exact List.find?_eq_none.1 hfree f hmem (by simp)
    have hfield : f.path ∈ t.bodyPaths s :=
      List.mem_append_left _ (List.mem_append_left _ (List.mem_map_of_mem hmem))
    exact h.outer path hbody f.path hfield ⟨hthrough, hne⟩
  · have htable := path_mem_tablePaths (List.mem_filter.1 hentry).1
    have hne : path ≠ entry.2.path := by
      rintro rfl
      exact h.texts _ htable hpath
    exact h.outer path hbody entry.2.path (List.mem_append_right _ htable) ⟨hthrough, hne⟩
  · rw [hsig] at hsome
    exact absurd hsome (by simp)

/-- A row has the values of the first fields at its paths, and no others. -/
theorem isExact_row (hfits : d.FitsWords t) {e : String × Table} (he : e ∈ t.tables) {k : Nat}
    {row : Row} (hrow : (d.rows e.2.id)[k]? = some row) :
    (Recovered.row e.2.rowTemplate (rowNode s (placedRow e.2 (k + 1) row)).tidy).IsExact
      e.2 k row := by
  have hplaced : placedRow e.2 (k + 1) row ∈ placedRows d e.2 := by
    apply List.mem_of_getElem? (i := k)
    rw [getElem?_placedRows, hrow]
    rfl
  have hrecovered := isRecovered_rows (s := s) (h.isSeparated d) hfits he _ hplaced
  refine ⟨hrecovered.ordinal, hrecovered.templateRow, hrecovered.reportRow, fun path => ?_⟩
  cases hfind : e.2.rowTemplate.find? (·.path == path) with
  | none =>
    exact Recovered.find?_texts_eq_none _ hfind
  | some f =>
    obtain ⟨hmem, rfl⟩ := of_find?_path hfind
    exact hrecovered.values _ (mem_values_placedRow (h.rows e he f hmem) hfind)

/-- A part of the signature is read if there is one and no static field has its path. -/
theorem signingText_of_isApart {path : String} (hpath : path ∈ t.textPaths s)
    (hres : Path.isResolvable path = true) {content : Signature → String}
    (hsigned : ∀ signature, d.signature = some signature → isUnclaimed t path = true →
      Recovered.signingText t (ofFormData s t d).body.tidy path = some (content signature)) :
    Recovered.signingText t (ofFormData s t d).body.tidy path =
      if (t.staticFieldAt? path).isSome then none else d.signature.map content := by
  cases hfield : t.staticFieldAt? path with
  | some f =>
    rw [Recovered.signingText, hfield]
    rfl
  | none =>
    rw [if_neg (by simp)]
    cases hsig : d.signature with
    | none =>
      have hnone := find?_body_of_unsigned h hsig hres hpath hfield
      rw [Node.find?] at hnone
      rw [Recovered.signingText, hfield]
      show ((ofFormData s t d).body.tidy.find? path).map _ = none
      rw [Node.find?, Node.follow?_tidy, hnone]
      rfl
    | some signature =>
      refine hsigned signature hsig ?_
      rw [isUnclaimed, hfield]
      rfl

include hs

/-- At each static path the value of the first field there is read, and nothing elsewhere. -/
theorem find?_values_body (path : String) :
    (Recovered.ofBody s t (ofFormData s t d).body.tidy).values.find? path =
      (t.staticFieldAt? path).map fun f => ((d.value? path).or f.default).getD "" := by
  cases hfield : t.staticFieldAt? path with
  | some f => exact find?_texts_body hs h.isPlaced (h.isSeparated d) hfield
  | none => exact Recovered.find?_texts_eq_none _ hfield

/-- The records of a table are those of its rows, and there are none for other tables. -/
theorem find?_rows_body (id : String) :
    (Recovered.ofBody s t (ofFormData s t d).body.tidy).rows.find? id =
      (t.table? id).map fun table => (placedRows d table).map fun r =>
        Recovered.row table.rowTemplate (rowNode s r).tidy := by
  show (Recovered.tableRows s t _).find? id = _
  cases hfind : t.tables.find? (·.2.id == id) with
  | some e =>
    obtain rfl : e.2.id = id := by simpa using List.find?_some hfind
    rw [find?_tableRows_body hs h.isPlaced (h.isSeparated d).rows
      (List.mem_of_find?_eq_some hfind), Template.table?, hfind]
    rfl
  | none =>
    rw [Template.table?, hfind]
    cases hrows : (Recovered.tableRows s t (ofFormData s t d).body.tidy).find? id with
    | none => rfl
    | some rows =>
      obtain ⟨e, he, hid⟩ := Recovered.exists_table_of_find?_tableRows hrows
      exact absurd (by simpa using hid) (List.find?_eq_none.1 hfind e he)

/-- Everything that is read is what was submitted. -/
theorem isExact_of_isApart (hfits : d.FitsWords t) :
    (Recovered.ofBody s t (ofFormData s t d).body.tidy).IsExact s t d := by
  have hsep := h.isSeparated d
  have hrecovered := isRecovered_of_isSeparated hs h.isPlaced hsep hfits
  have hsigning := (Settings.of_check hs).2.1
  constructor
  · exact hrecovered.formCode
  · exact hrecovered.templateVersion
  · exact find?_values_body hs h
  · intro id
    rw [find?_rows_body hs h]
    cases hfind : t.tables.find? (·.2.id == id) with
    | some e =>
      obtain rfl : e.2.id = id := by simpa using List.find?_some hfind
      rw [Template.table?, hfind, Option.map_some, Option.map_some, Option.map_some,
        List.length_map, length_placedRows]
      rfl
    | none =>
      rw [Template.table?, hfind]
      rfl
  · intro id table records k row found htable hrecords hrow hfound
    obtain ⟨e, hfind, rfl⟩ := Option.map_eq_some_iff.1 htable
    have he : e ∈ t.tables := List.mem_of_find?_eq_some hfind
    obtain rfl : e.2.id = id := by simpa using List.find?_some hfind
    rw [find?_rows_body hs h, htable, Option.map_some] at hrecords
    rw [← Option.some.inj hrecords, List.getElem?_map, getElem?_placedRows, hrow] at hfound
    obtain rfl := Option.some.inj hfound
    exact isExact_row h hfits he hrow
  · exact signingText_of_isApart h (List.mem_append_right _ (by simp))
      (hsigning ("document.signing_date_path", _) (by simp [Settings.paths]))
      fun signature hsig => (signingText_body hs h.isPlaced hsep hsig).1
  · exact signingText_of_isApart h (List.mem_append_right _ (by simp))
      (hsigning ("document.signer_path", _) (by simp [Settings.paths]))
      fun signature hsig => (signingText_body hs h.isPlaced hsep hsig).2

end Apart

end Assembly

namespace Export

/-- With consistent settings and a form whose paths are apart, the export of any data is compliant,
and reading the document gives the form and the data, and nothing else. -/
theorem roundTrip_exact (s : Settings) (t : Template) (d : FormData) (hs : s.check = true)
    (h : t.IsApart s) (hfits : d.FitsWords t) :
    (ofFormData s t d).isCompliant = true ∧
      ∃ r, Recovered.ofText s t (ofFormData s t d).document = .ok r ∧ r.IsExact s t d :=
  ⟨Assembly.isCompliant_of_isSeparated hs h.isPlaced (h.isSeparated d) hfits,
    _, Assembly.ofText_document hs t d, Assembly.isExact_of_isApart hs h hfits⟩

theorem isApart_smallForm : smallForm.IsApart {} where
  statics := by decide
  tables := by decide
  rows := by decide
  ids := by decide
  outer := by decide
  tablePaths := by decide
  texts := by decide
  inner := by decide

theorem roundTrip_exact_smallData :
    Settings.check {} = true ∧ smallForm.IsApart {} ∧ smallData.FitsWords smallForm ∧
      (ofFormData {} smallForm smallData).isCompliant = true ∧
      ∃ r, Recovered.ofText {} smallForm (ofFormData {} smallForm smallData).document = .ok r ∧
        r.IsExact {} smallForm smallData :=
  have hs : Settings.check {} = true := by decide
  have hfits : smallData.FitsWords smallForm := by unfold FormData.FitsWords; decide
  ⟨hs, isApart_smallForm, hfits,
    roundTrip_exact {} smallForm smallData hs isApart_smallForm hfits⟩

end Export

end Filing
