import Filing.Proofs.Document.Fixpoint
import Filing.Proofs.Validation.Wordings

/-!
# Data without a place in the template

The exporter remarks on data that the template does not know, and validation finds issues with it.
Both go over rows, values and tables on their own. Here the data is listed once; where every table
has a place in the document, the remarks of the one and the issues of the other are this list, in
two wordings.
-/

namespace Filing

/-- A piece of data that the template does not know. -/
inductive Stray where
  /-- A value in a row of a table, rows being counted from 1. -/
  | rowValue (table : String) (ordinal : Nat) (key : String)
  /-- A value of the form. -/
  | value (path : String)
  /-- The rows of a table. -/
  | rows (table : String)
deriving DecidableEq

namespace Stray

/-- Where the data stands: a row value in its row, counted from 1, of its table. -/
def place : Stray → String
  | .rowValue table ordinal key => s!"{table}[{ordinal}]/{key}"
  | .value path => path
  | .rows table => table

/-- What the exporter says about it: the place in quotes, and nothing else of the data. -/
def remark (e : Stray) : String :=
  match e with
  | .rowValue .. => s!"row value at '{e.place}' is not part of the template and was not written"
  | .value _ => s!"value at '{e.place}' is not part of the template and was not written"
  | .rows _ => s!"rows for unknown table '{e.place}' were not written"

/-- What validation says about it. -/
def message : Stray → String
  | .rowValue table _ key => s!"row value for unknown path '{key}' in table '{table}'"
  | .value path => s!"value for path '{path}' is not part of the template"
  | .rows table => s!"rows for unknown table '{table}'"

/-- What validation finds: an issue of the data as a whole, at the place where the data stands. -/
def issue (s : Settings) (e : Stray) : Issue where
  severity := if s.strictUnknownPaths then .error else .warning
  category := .structural
  field := none
  path := e.place
  message := e.message

/-- How the exporter begins its remarks on data that the template does not know. -/
def remarkWordings : List String := ["row value at '", "value at '", "rows for unknown table '"]

/-- How validation begins its messages about such data. -/
def issueWordings : List String :=
  ["row value for unknown path '", "value for path '", "rows for unknown table '"]

/-- The remark begins like those on unknown data. -/
def isRemark (remark : String) : Bool := beginsWith remarkWordings remark

/-- The issue is one of the data as a whole, and its message begins like those of unknown data. -/
def isIssue (i : Issue) : Bool := i.category == .structural && beginsWith issueWordings i.message

theorem isRemark_remark (e : Stray) : isRemark e.remark = true := by
  unfold remark
  cases e
  all_goals
    dsimp only [toString]
    rw [String.append_assoc]
    exact beginsWith_append (by decide) _

theorem isIssue_issue (s : Settings) (e : Stray) : isIssue (e.issue s) = true := by
  refine (Bool.true_and _).trans ?_
  show beginsWith issueWordings e.message = true
  unfold message
  cases e
  all_goals
    dsimp only [toString]
    simp only [String.append_assoc]
    exact beginsWith_append (by decide) _

/-- Messages in another wording are about something else. -/
theorem isIssue_of_beginsWith {i : Issue} {ws : List String} (h : beginsWith ws i.message = true)
    (hapart : AreApart ws issueWordings) : isIssue i = false := by
  rw [isIssue, beginsWith_of_areApart h hapart, Bool.and_false]

end Stray

namespace FormData

open Stray (isRemark isIssue isIssue_of_beginsWith)

/-- The keys of a row of a table without a field. -/
def rowStrays (table : Table) (r : Row × Nat) : List Stray :=
  (strayKeys table r.1).map (.rowValue table.id r.2 ·)

/-- The keys of the rows of a table without a field, row by row. -/
def tableStrays (d : FormData) (e : String × Table) : List Stray :=
  ((d.rows e.2.id).zipIdx 1).flatMap (rowStrays e.2)

/-- The values without a static field, and the tables that are none of the template. -/
def outerStrays (t : Template) (d : FormData) : List Stray :=
  (d.values.keys.filter fun path => ∀ f ∈ t.staticFields, f.path ≠ path).map .value ++
    (d.tables.keys.filter fun id => ∀ e ∈ t.tables, e.2.id ≠ id).map .rows

/-- The data that the template does not know: first that in the rows of its tables, table by table
and row by row. -/
def unknownData (t : Template) (d : FormData) : List Stray :=
  t.tables.flatMap d.tableStrays ++ d.outerStrays t

variable {s : Settings} {t : Template} {d : FormData}

/-! ## Remarks -/

theorem rowWarnings_eq_map (table : Table) (r : Row × Nat) :
    Assembly.rowWarnings table r.2 r.1 = (rowStrays table r).map Stray.remark := by
  rw [Assembly.rowWarnings, filter_not_any_eq_strayKeys, rowStrays, List.map_map]
  rfl

theorem tableWarnings_eq_map {e : String × Table} (he : Path.isResolvable e.2.path = true) :
    Assembly.tableWarnings d e.2 = (d.tableStrays e).map Stray.remark := by
  rw [Assembly.tableWarnings, if_pos he, flatten_mapIdx_succ, tableStrays, List.map_flatMap]
  exact List.flatMap_congr fun r _ => rowWarnings_eq_map e.2 r

theorem unknownWarnings_eq_map :
    Assembly.unknownWarnings t d = (d.outerStrays t).map Stray.remark := by
  rw [Assembly.unknownWarnings, unknownPaths_eq_filter, unknownTables_eq_filter, outerStrays,
    List.map_append, List.map_map, List.map_map]
  rfl

theorem isRemark_of_mem_statics :
    ∀ w ∈ (t.staticFields.foldl (Assembly.addStatic d) (Assembly.start s t d)).warnings,
      isRemark w = false := by
  intro w hw
  rcases Assembly.mem_warnings_foldl_addStatic hw with hstart | ⟨id, path, first, rfl⟩
  · unfold Assembly.start at hstart
    dsimp only at hstart
    split at hstart
    · rw [List.mem_singleton.1 hstart]
      dsimp only [toString]
      simp only [String.append_assoc]
      exact beginsWith_append_of_areApart (by decide) _
    · exact absurd hstart List.not_mem_nil
  · dsimp only [toString]
    simp only [String.append_assoc]
    exact beginsWith_append_of_areApart (by decide) _

theorem isRemark_of_mem_signingWarnings {path : String} :
    ∀ w ∈ Assembly.signingWarnings t path, isRemark w = false := by
  intro w hw
  unfold Assembly.signingWarnings at hw
  cases hf : t.staticFieldAt? path with
  | none =>
    rw [hf] at hw
    exact absurd hw List.not_mem_nil
  | some f =>
    rw [hf] at hw
    rw [List.mem_singleton.1 hw]
    dsimp only [toString]
    simp only [String.append_assoc]
    exact beginsWith_append_of_areApart (by decide) _

theorem filter_isRemark_map (strays : List Stray) :
    (strays.map Stray.remark).filter isRemark = strays.map Stray.remark := by
  refine List.filter_eq_self.2 fun w hw => ?_
  obtain ⟨e, -, rfl⟩ := List.mem_map.1 hw
  exact e.isRemark_remark

/-- Of all remarks of the exporter, those on unknown data are the list of it. -/
theorem filter_isRemark_warnings (hpaths : ∀ e ∈ t.tables, Path.isResolvable e.2.path = true) :
    (Export.ofFormData s t d).warnings.filter isRemark = (d.unknownData t).map Stray.remark := by
  have hsigning : ∀ w ∈ d.signature.elim [] fun _ =>
      Assembly.signingWarnings t s.document.signingDatePath ++
        Assembly.signingWarnings t s.document.signerPath, isRemark w = false := by
    cases d.signature with
    | none => exact fun w hw => absurd hw List.not_mem_nil
    | some signature =>
      rw [Option.elim_some, List.forall_mem_append]
      exact ⟨isRemark_of_mem_signingWarnings, isRemark_of_mem_signingWarnings⟩
  have htables : (t.tables.flatMap fun e => Assembly.tableWarnings d e.2) =
      (t.tables.flatMap d.tableStrays).map Stray.remark := by
    rw [List.map_flatMap]
    exact List.flatMap_congr fun e he => tableWarnings_eq_map (hpaths e he)
  show (Assembly.ofFormData s t d).warnings.filter isRemark = _
  rw [Assembly.ofFormData_eq]
  dsimp only
  rw [htables, unknownWarnings_eq_map, List.filter_append, List.filter_append, List.filter_append,
    filter_eq_nil_of_forall isRemark_of_mem_statics, filter_eq_nil_of_forall hsigning,
    filter_isRemark_map, filter_isRemark_map, List.nil_append, List.append_nil, unknownData,
    List.map_append]

/-! ## Issues -/

theorem filter_isIssue_map (strays : List Stray) :
    (strays.map (Stray.issue s)).filter isIssue = strays.map (Stray.issue s) := by
  refine List.filter_eq_self.2 fun i hi => ?_
  obtain ⟨e, -, rfl⟩ := List.mem_map.1 hi
  exact e.isIssue_issue s

theorem strayKeyIssues_eq_map (table : Table) (r : Row × Nat) :
    strayKeyIssues s table r = (rowStrays table r).map (Stray.issue s) := by
  rw [strayKeyIssues, filter_not_any_eq_strayKeys, rowStrays, List.map_map]
  rfl

theorem isIssue_of_mem_occurrence {o : Occurrence} :
    ∀ i ∈ o.structuralIssues t d, isIssue i = false := by
  intro i hi
  rcases List.mem_append.1 hi with hmissing | hparent
  · exact isIssue_of_beginsWith (beginsWith_missingIssues i hmissing) (by decide)
  · exact isIssue_of_beginsWith (beginsWith_parentIssues i hparent) (by decide)

/-- Of the issues of a row, those on unknown data are the last. -/
theorem filter_isIssue_rowIssues (table : Table) (r : Row × Nat) :
    (rowIssues s t t.resolve.graph d table r.2 r.1).filter isIssue =
      (rowStrays table r).map (Stray.issue s) := by
  have hknown : ∀ i ∈ (rowOccurrences table r.1 r.2).flatMap (·.structuralIssues t d),
      isIssue i = false := by
    intro i hi
    obtain ⟨o, -, hi⟩ := List.mem_flatMap.1 hi
    exact isIssue_of_mem_occurrence i hi
  rw [rowIssues_eq_append, List.filter_append, filter_eq_nil_of_forall hknown, List.nil_append,
    strayKeyIssues_eq_map, filter_isIssue_map]

theorem filter_isIssue_tableIssues (e : String × Table) :
    (d.tableIssues s t t.resolve.graph e.2).filter isIssue =
      (d.tableStrays e).map (Stray.issue s) := by
  have hlength : ∀ i ∈ d.lengthIssues e, isIssue i = false :=
    fun i hi => isIssue_of_beginsWith (beginsWith_lengthIssues i hi) (by decide)
  show (d.lengthIssues e ++ _).filter isIssue = _
  rw [List.filter_append, filter_eq_nil_of_forall hlength, List.nil_append,
    flatten_mapIdx_succ, List.filter_flatMap, tableStrays, List.map_flatMap]
  exact List.flatMap_congr fun r _ => filter_isIssue_rowIssues e.2 r

theorem unknownIssues_eq_map :
    ((d.unknownPaths t).map fun path =>
      unknownIssue s path s!"value for path '{path}' is not part of the template") ++
    ((d.unknownTables t).map fun id => unknownIssue s id s!"rows for unknown table '{id}'") =
      (d.outerStrays t).map (Stray.issue s) := by
  rw [unknownPaths_eq_filter, unknownTables_eq_filter, outerStrays, List.map_append, List.map_map,
    List.map_map]
  rfl

/-- Of all issues of the data as a whole, those on unknown data are the list of it. -/
theorem filter_isIssue_structuralIssues :
    (d.structuralIssues s t).filter isIssue = (d.unknownData t).map (Stray.issue s) := by
  have hform : ∀ i ∈ d.formIssues t, isIssue i = false :=
    fun i hi => isIssue_of_beginsWith (beginsWith_formIssues i hi) (by decide)
  have hstatics : ∀ i ∈ d.staticIssues t t.resolve.graph, isIssue i = false := by
    rw [staticIssues_eq_flatMap]
    intro i hi
    obtain ⟨o, -, hi⟩ := List.mem_flatMap.1 hi
    exact isIssue_of_mem_occurrence i hi
  have htables : (t.tables.flatMap fun e => d.tableIssues s t t.resolve.graph e.2).filter isIssue =
      (t.tables.flatMap d.tableStrays).map (Stray.issue s) := by
    rw [List.filter_flatMap, List.map_flatMap]
    exact List.flatMap_congr fun e _ => filter_isIssue_tableIssues e
  unfold structuralIssues
  dsimp only
  rw [List.append_assoc _ (List.map _ _), unknownIssues_eq_map]
  rw [List.filter_append, List.filter_append, List.filter_append,
    filter_eq_nil_of_forall hform, filter_eq_nil_of_forall hstatics, htables,
    filter_isIssue_map, List.nil_append, List.nil_append, unknownData, List.map_append]

/-- Of all issues of a validation, those on unknown data are the list of it. -/
theorem filter_isIssue_validate (rules : RuleBook) :
    (d.validate s t rules).issues.filter isIssue = (d.unknownData t).map (Stray.issue s) := by
  have hfield : ∀ i ∈ d.staticValueIssues s t ++ d.tableValueIssues s t, isIssue i = false := by
    rw [valueIssues_eq_flatMap]
    intro i hi
    obtain ⟨o, -, hi⟩ := List.mem_flatMap.1 hi
    have hcategory : i.category = .field := by
      unfold Occurrence.complaints at hi
      cases hvalue : o.value? with
      | none =>
        rw [hvalue] at hi
        exact absurd hi List.not_mem_nil
      | some value =>
        rw [hvalue] at hi
        obtain ⟨message, -, rfl⟩ := List.mem_map.1 hi
        rfl
    rw [isIssue, hcategory]
    rfl
  have hrule : ∀ i ∈ (rules.rulesFor t.formCode).flatMap (d.ruleIssues t), isIssue i = false := by
    intro i hi
    obtain ⟨rule, -, hi⟩ := List.mem_flatMap.1 hi
    unfold ruleIssues at hi
    dsimp only at hi
    split at hi
    · exact absurd hi List.not_mem_nil
    · rw [List.mem_singleton.1 hi]
      rfl
  have htemplate : ∀ i ∈ t.issues, isIssue i = false :=
    fun i hi => isIssue_of_beginsWith (t.beginsWith_issues i hi) (by decide)
  show (d.staticValueIssues s t ++ d.tableValueIssues s t ++
    (rules.rulesFor t.formCode).flatMap (d.ruleIssues t) ++
    (t.issues ++ d.structuralIssues s t)).filter isIssue = _
  rw [List.filter_append, List.filter_append (_ ++ _), List.filter_append t.issues,
    filter_eq_nil_of_forall hfield, filter_eq_nil_of_forall hrule,
    filter_eq_nil_of_forall htemplate, filter_isIssue_structuralIssues,
    List.nil_append, List.nil_append, List.nil_append]

/-- Where every table has a place in the document, the exporter remarks on the data that the
template does not know, and validation finds issues with it, one remark and one issue for each piece
of it, in one order and at the same place. -/
theorem unknownData_reported_alike (s : Settings) (t : Template) (rules : RuleBook) (d : FormData)
    (hpaths : ∀ e ∈ t.tables, Path.isResolvable e.2.path = true) :
    (Export.ofFormData s t d).warnings.filter isRemark = (d.unknownData t).map Stray.remark ∧
      (d.validate s t rules).issues.filter isIssue = (d.unknownData t).map (Stray.issue s) :=
  ⟨filter_isRemark_warnings hpaths, filter_isIssue_validate rules⟩

theorem unknownData_reported_alike_strayData :
    (∀ e ∈ Export.presetForm.tables, Path.isResolvable e.2.path = true) ∧
      Export.strayData.unknownData Export.presetForm =
        [.rowValue "items" 1 "Z", .value "Z", .rows "more"] ∧
      (Export.ofFormData {} Export.presetForm Export.strayData).warnings.filter isRemark =
        (Export.strayData.unknownData Export.presetForm).map Stray.remark ∧
      (Export.strayData.validate {} Export.presetForm []).issues.filter isIssue =
        (Export.strayData.unknownData Export.presetForm).map (Stray.issue {}) := by
  have hpaths : ∀ e ∈ Export.presetForm.tables, Path.isResolvable e.2.path = true := by decide
  have hreports := unknownData_reported_alike {} Export.presetForm [] Export.strayData hpaths
  exact ⟨hpaths, by decide, hreports⟩

end FormData

end Filing
