import Filing.Proofs.Calendar.DayFirst
import Filing.Proofs.Document.Compliance
import Filing.Proofs.Document.Lookups

/-!
# Data that comes back

A compliant export without remarks loses nothing: the data made of its document holds every value,
every row and the signature of the data that was exported. Whatever the assembly passes over leaves
a remark, and what it writes is compared; the signing date survives being written as a text.
-/

namespace Filing

/-- Everything in the data is also in other data: every value, as many rows in each table, every
value of each row, and the signature. -/
structure FormData.IsContainedIn (d other : FormData) : Prop where
  values : ∀ path value, d.value? path = some value → other.value? path = some value
  rowCount : ∀ id, (other.rows id).length = (d.rows id).length
  rowValues : ∀ id (k : Nat) (row otherRow : Row), (d.rows id)[k]? = some row →
    (other.rows id)[k]? = some otherRow →
      ∀ key value, row.find? key = some value → otherRow.find? key = some value
  signature : ∀ signature, d.signature = some signature → other.signature = some signature

/-- A signature is made of its parts as they are written. -/
theorem Recovered.signature?_of_written {r : Recovered} {signature : Signature}
    (hdate : r.signingDate = some signature.date.dayFirstText)
    (hsigner : r.signer = some signature.signer) : r.signature? = some signature := by
  unfold Recovered.signature?
  rw [hdate, hsigner]
  simp only [Option.bind_eq_bind, Option.bind_some, Calendar.readDate?_dayFirstText]
  rfl

namespace Export

open Assembly

variable {s : Settings} {t : Template} {d : FormData}

/-! ## What leaves no remark -/

section Remarks

variable (hw : (ofFormData s t d).warnings = [])

include hw

theorem warnings_eq_nil : (t.tables.flatMap fun e => tableWarnings d e.2) = [] ∧
    (d.signature.elim [] fun _ => signingWarnings t s.document.signingDatePath ++
      signingWarnings t s.document.signerPath) = [] ∧
    unknownWarnings t d = [] := by
  have h : (Assembly.ofFormData s t d).warnings = [] := hw
  rw [ofFormData_eq, List.append_eq_nil_iff, List.append_eq_nil_iff, List.append_eq_nil_iff] at h
  exact ⟨h.1.1.2, h.1.2, h.2⟩

/-- Every value belongs to a static field. -/
theorem exists_field_of_value? {path value : String} (hvalue : d.value? path = some value) :
    ∃ f, t.staticFieldAt? path = some f := by
  obtain ⟨-, -, hunknown⟩ := warnings_eq_nil hw
  have hpaths : d.unknownPaths t = [] :=
    List.map_eq_nil_iff.1 (List.append_eq_nil_iff.1 hunknown).1
  have hkey : path ∈ d.values.keys := by
    rw [KeyMap.mem_keys_iff]
    show (d.value? path).isSome
    rw [hvalue]
    rfl
  have hknown := List.filter_eq_nil_iff.1 hpaths path hkey
  cases hfield : t.staticFieldAt? path with
  | some f => exact ⟨f, rfl⟩
  | none => rw [hfield] at hknown; exact absurd rfl hknown

/-- Every table with rows belongs to the template. -/
theorem exists_table_of_rows {id : String} (hrows : d.rows id ≠ []) :
    ∃ e ∈ t.tables, e.2.id = id := by
  obtain ⟨-, -, hunknown⟩ := warnings_eq_nil hw
  have htables : d.unknownTables t = [] :=
    List.map_eq_nil_iff.1 (List.append_eq_nil_iff.1 hunknown).2
  have hkey : id ∈ d.tables.keys := by
    rw [KeyMap.mem_keys_iff]
    cases hfind : d.tables.find? id with
    | some rows => rfl
    | none => exact absurd (by rw [FormData.rows, hfind]; rfl) hrows
  have hknown := List.filter_eq_nil_iff.1 htables id hkey
  cases hfind : t.tables.find? (·.2.id == id) with
  | some e => exact ⟨e, List.mem_of_find?_eq_some hfind, by simpa using List.find?_some hfind⟩
  | none =>
    unfold Template.table? at hknown
    rw [hfind] at hknown
    exact absurd rfl hknown

/-- Every key of a row belongs to a field of the row template. -/
theorem exists_field_of_rowValue {e : String × Table} (he : e ∈ t.tables)
    (hres : Path.isResolvable e.2.path = true) {k : Nat} {row : Row}
    (hrow : (d.rows e.2.id)[k]? = some row) {key value : String}
    (hvalue : row.find? key = some value) : ∃ f ∈ e.2.rowTemplate, f.path = key := by
  obtain ⟨htables, -, -⟩ := warnings_eq_nil hw
  have htable := List.flatMap_eq_nil_iff.1 htables e he
  rw [tableWarnings, if_pos hres, List.flatten_eq_nil_iff] at htable
  have hmem : rowWarnings e.2 (k + 1) row ∈
      (d.rows e.2.id).mapIdx fun i row => rowWarnings e.2 (i + 1) row := by
    apply List.mem_of_getElem? (i := k)
    rw [List.getElem?_mapIdx, hrow]
    rfl
  have hkeys := List.map_eq_nil_iff.1 (htable _ hmem)
  have hkey : key ∈ row.keys := by
    rw [KeyMap.mem_keys_iff, hvalue]
    rfl
  have hknown := List.filter_eq_nil_iff.1 hkeys key hkey
  simpa using hknown

/-- The signature of signed data stands where no field is. -/
theorem isUnclaimed_of_signature {signature : Signature} (hsig : d.signature = some signature) :
    isUnclaimed t s.document.signingDatePath = true ∧
      isUnclaimed t s.document.signerPath = true := by
  obtain ⟨-, hsigning, -⟩ := warnings_eq_nil hw
  rw [hsig, Option.elim_some, List.append_eq_nil_iff] at hsigning
  have hfree : ∀ path, signingWarnings t path = [] → isUnclaimed t path = true := by
    intro path hpath
    unfold signingWarnings at hpath
    unfold isUnclaimed
    cases hfield : t.staticFieldAt? path with
    | none => rfl
    | some f => rw [hfield] at hpath; exact absurd hpath (List.cons_ne_nil _ _)
  exact ⟨hfree _ hsigning.1, hfree _ hsigning.2⟩

end Remarks

/-! ## What is found -/

/-- A submitted value of a row is found in the row that was written for it. -/
theorem rowValue_of_isRecovered {table : Table} {k : Nat} {row : Row} {found : RowRecord}
    (hfound : (placedRow table (k + 1) row).IsRecovered found) {key value : String} {f : Field}
    (hf : f ∈ table.rowTemplate) (hkey : f.path = key) (hres : Path.isResolvable key = true)
    (hvalue : row.find? key = some value) : found.values.find? key = some value := by
  subst hkey
  obtain ⟨g, hg, hpath⟩ := exists_find?_path hf
  have hplaced := hfound.values _ (mem_values_placedRow hres hg)
  rw [hpath, hvalue] at hplaced
  exact hplaced

section Found

variable {r : Recovered} (hr : (Assembly.ofFormData s t d).plan.IsRecovered t r)

include hr

/-- A submitted value is found. -/
theorem value?_of_isRecovered {path value : String} {f : Field}
    (hres : Path.isResolvable path = true) (hfield : t.staticFieldAt? path = some f)
    (hvalue : d.value? path = some value) : r.values.find? path = some value := by
  have hentry : (Assembly.ofFormData s t d).plan.statics.find? path = some ⟨f, value⟩ := by
    rw [find?_statics_ofFormData, if_pos hres, hfield, hvalue]
    rfl
  exact hr.statics path ⟨f, value⟩ hentry

/-- A signature that was written is read back. -/
theorem signature?_of_isRecovered {signature : Signature} (hsig : d.signature = some signature)
    (hdate : isUnclaimed t s.document.signingDatePath = true)
    (hsigner : isUnclaimed t s.document.signerPath = true) :
    r.signature? = some signature := by
  have hfoundDate : r.signingDate = some signature.date.dayFirstText := by
    apply hr.signingDate
    rw [ofFormData_eq, if_pos hdate, hsig]
    rfl
  have hfoundSigner : r.signer = some signature.signer := by
    apply hr.signer
    rw [ofFormData_eq, if_pos hsigner, hsig]
    rfl
  exact Recovered.signature?_of_written hfoundDate hfoundSigner

/-- Every table has as many records as rows. -/
theorem length_rows_formData (hw : (Assembly.ofFormData s t d).warnings = [])
    (htables : ∀ e ∈ t.tables, Path.isResolvable e.2.path = true) {source : String}
    (hread : Recovered.ofText s t source = .ok r) (id : String) :
    ((r.formData t).rows id).length = (d.rows id).length := by
  rw [Recovered.rows_formData, List.length_map]
  by_cases hknown : ∃ e ∈ t.tables, e.2.id = id
  · obtain ⟨e, he, rfl⟩ := hknown
    rw [← (rows_of_isRecovered hr he (htables e he)).length_eq, length_placedRows]
  · -- a table that the template does not have is neither submitted nor read
    have hrows : d.rows id = [] := by
      by_contra hne
      exact hknown (exists_table_of_rows hw hne)
    have hfound : r.rows.find? id = none := by
      cases hfind : r.rows.find? id with
      | none => rfl
      | some rows => exact absurd (Recovered.exists_table_of_ofText hread hfind) hknown
    rw [hrows, hfound]
    rfl

/-- A record is that of the row with its index. -/
theorem isRecovered_getElem? {e : String × Table} (he : e ∈ t.tables)
    (hres : Path.isResolvable e.2.path = true) {k : Nat} {row : Row}
    (hrow : (d.rows e.2.id)[k]? = some row) {found : RowRecord}
    (hfound : ((r.rows.find? e.2.id).getD [])[k]? = some found) :
    (placedRow e.2 (k + 1) row).IsRecovered found := by
  have hplaced : (placedRows d e.2)[k]? = some (placedRow e.2 (k + 1) row) := by
    rw [getElem?_placedRows, hrow]
    rfl
  have hzip : (placedRow e.2 (k + 1) row, found) ∈
      (placedRows d e.2).zip ((r.rows.find? e.2.id).getD []) :=
    List.mem_of_getElem? (List.getElem?_zip_eq_some.2 ⟨hplaced, hfound⟩)
  exact (List.forall₂_iff_zip.1 (rows_of_isRecovered hr he hres)).2 hzip

end Found

/-! ## The result -/

/-- The data made of a compliant document without remarks contains the data that was exported,
whatever the settings. -/
theorem isContainedIn_formData (s : Settings) (t : Template) (d : FormData)
    (hc : (ofFormData s t d).isCompliant = true) (hw : (ofFormData s t d).warnings = []) :
    ∃ r, Recovered.ofText s t (ofFormData s t d).document = .ok r ∧
      d.IsContainedIn (r.formData t) := by
  obtain ⟨hdiscrepancies, r, hread, hr⟩ := isCompliant_iff.1 hc
  obtain ⟨hstatics, htables⟩ := (discrepancies_ofFormData_eq_nil_iff s t d).1 hdiscrepancies
  refine ⟨r, hread, ?_⟩
  constructor
  · intro path value hvalue
    obtain ⟨f, hfield⟩ := exists_field_of_value? hw hvalue
    obtain ⟨hf, hpath⟩ := of_find?_path hfield
    exact value?_of_isRecovered hr (hpath ▸ hstatics f hf) hfield hvalue
  · exact fun id => length_rows_formData hr hw (fun e he => (htables e he).1) hread id
  · intro id k row otherRow hrow hother key value hvalue
    obtain ⟨e, he, rfl⟩ := exists_table_of_rows hw (List.ne_nil_of_mem (List.mem_of_getElem? hrow))
    obtain ⟨hres, hfields⟩ := htables e he
    obtain ⟨f, hf, hkey⟩ := exists_field_of_rowValue hw he hres hrow hvalue
    rw [Recovered.rows_formData, List.getElem?_map, Option.map_eq_some_iff] at hother
    obtain ⟨found, hfound, rfl⟩ := hother
    have hrecovered := isRecovered_getElem? hr he hres hrow hfound
    exact rowValue_of_isRecovered hrecovered hf hkey (hkey ▸ hfields f hf) hvalue
  · intro signature hsig
    obtain ⟨hdate, hsigner⟩ := isUnclaimed_of_signature hw hsig
    exact signature?_of_isRecovered hr hsig hdate hsigner

theorem isContainedIn_formData_smallData :
    (ofFormData {} smallForm smallData).isCompliant = true ∧
      (ofFormData {} smallForm smallData).warnings = [] ∧
      ∃ r, Recovered.ofText {} smallForm (ofFormData {} smallForm smallData).document = .ok r ∧
        smallData.IsContainedIn (r.formData smallForm) :=
  have hw : (Assembly.ofFormData {} smallForm smallData).warnings = [] := by decide +kernel
  ⟨isCompliant_smallData, hw,
    isContainedIn_formData {} smallForm smallData isCompliant_smallData hw⟩

end Export

end Filing
