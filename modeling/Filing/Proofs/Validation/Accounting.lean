import Filing.Proofs.Validation.WellFormed
import Mathlib.Data.List.Flatten
import Mathlib.Data.List.Perm.Basic

/-!
# What the errors of a report stand for

A field occurs once in the form, or once in each row of its table. Every error that validation
reports stands for one thing: a complaint about a value, a required value that is not there, a value
whose parent is empty, a broken rule, a table that is too long, a defect of the template, or, if the
settings say so, a piece of data that the template does not know. None of these is passed over and
none is reported twice, so the errors are their sum.
-/

namespace Filing

/-! ## Occurrences -/

/-- A field at a place where it can have a value. -/
structure Occurrence where
  /-- The field. -/
  field : Field
  /-- The values that are submitted there. -/
  values : Row
  /-- The fields of the same row; a field of the form as a whole has none. -/
  siblings : List Field
  /-- The place by its name in reports. -/
  place : String

namespace Occurrence

/-- The value of the field there. -/
def value? (o : Occurrence) : Option String := o.values.find? o.field.path

/-- What is wrong with the value, if there is one. -/
def complaints (s : Settings) (o : Occurrence) : List Issue :=
  o.value?.elim [] fun value => checkValue s.dateFormats o.field value o.place

/-- A required value is not there. -/
def IsMissing (o : Occurrence) : Prop := o.field.required = true ∧ o.value? = none

/-- A parent is looked for in the same row, by its id, and else among the static fields, and there
it has no value, or a blank one. -/
def LacksParent (t : Template) (d : FormData) (o : Occurrence) (parent : Field) : Prop :=
  if parent.id ∈ o.siblings.map (·.id) then isFilled (o.values.find? parent.path) = false
  else t.isRowField parent.id = false ∧ isFilled (d.value? parent.path) = false

/-- A value that means something only below a parent has none. -/
def IsOrphaned (t : Template) (d : FormData) (o : Occurrence) : Prop :=
  (o.field.control = .dependentDropdown ∨ o.field.control = .wardDropdown) ∧
    isFilled o.value? = true ∧ ∃ parent ∈ t.resolve.graph.parent? t o.field.id,
      o.LacksParent t d parent

instance : DecidablePred IsMissing := fun o =>
  inferInstanceAs (Decidable (o.field.required = true ∧ o.value? = none))

instance (t : Template) (d : FormData) (o : Occurrence) : DecidablePred (o.LacksParent t d) :=
  fun parent => inferInstanceAs (Decidable (if parent.id ∈ o.siblings.map (·.id) then
    isFilled (o.values.find? parent.path) = false
    else t.isRowField parent.id = false ∧ isFilled (d.value? parent.path) = false))

instance (t : Template) (d : FormData) : DecidablePred (IsOrphaned t d) := fun o =>
  inferInstanceAs (Decidable ((o.field.control = .dependentDropdown ∨
    o.field.control = .wardDropdown) ∧ isFilled o.value? = true ∧
      ∃ parent ∈ t.resolve.graph.parent? t o.field.id, o.LacksParent t d parent))

/-- What validation says about an occurrence within the whole form. -/
def structuralIssues (t : Template) (d : FormData) (o : Occurrence) : List Issue :=
  missingIssues o.field o.value? o.place ++
    parentIssues t t.resolve.graph (t.rowValue d o.siblings o.values) o.field o.value? o.place

end Occurrence

namespace FormData

/-- The occurrences of the fields of a table in one of its rows. -/
def rowOccurrences (table : Table) (row : Row) (ordinal : Nat) : List Occurrence :=
  table.rowTemplate.map fun f => ⟨f, row, table.rowTemplate, rowPlace table.id ordinal f.path⟩

/-- The occurrences of the fields of a table, row by row. -/
def tableOccurrences (d : FormData) (e : String × Table) : List Occurrence :=
  ((d.rows e.2.id).zipIdx 1).flatMap fun r => rowOccurrences e.2 r.1 r.2

/-- All occurrences of the fields of a form: each static field once, each field of a table once in
each row. -/
def occurrences (t : Template) (d : FormData) : List Occurrence :=
  t.staticFields.map (fun f => ⟨f, d.values, [], f.path⟩) ++ t.tables.flatMap d.tableOccurrences

/-- The value that a rule is asked about: that of its field, if that is a static one. -/
def ruleValue? (t : Template) (d : FormData) (rule : Rule) : Option String :=
  if t.isRowField rule.field then none else (t.field? rule.field).bind (d.value? ·.path)

/-- A rule of the form that has to hold and does not. -/
def Breaks (t : Template) (d : FormData) (e : String × Rule) : Prop :=
  e.1 = t.formCode ∧ e.2.kind = .business ∧ e.2.holds (d.ruleValue? t e.2) d = false

/-- More rows are submitted than the table admits. -/
def Overfills (d : FormData) (e : String × Table) : Prop :=
  e.2.maxRows ≠ 0 ∧ e.2.maxRows < (d.rows e.2.id).length

/-- The keys of a row that no field of the table has for its path. -/
def strayKeys (table : Table) (row : Row) : List String :=
  row.keys.filter fun key => ∀ f ∈ table.rowTemplate, f.path ≠ key

/-- What is submitted without a place in the template: the paths of values, the keys of the rows of
each table, and the ids of tables. -/
def strays (t : Template) (d : FormData) : List String :=
  d.values.keys.filter (fun path => ∀ f ∈ t.staticFields, f.path ≠ path) ++
    (t.tables.flatMap fun e => (d.rows e.2.id).flatMap (strayKeys e.2)) ++
    d.tables.keys.filter fun id => ∀ e ∈ t.tables, e.2.id ≠ id

instance (t : Template) (d : FormData) : DecidablePred (d.Breaks t) := fun e =>
  inferInstanceAs (Decidable (e.1 = t.formCode ∧ e.2.kind = .business ∧
    e.2.holds (d.ruleValue? t e.2) d = false))

instance (d : FormData) : DecidablePred d.Overfills := fun e =>
  inferInstanceAs (Decidable (e.2.maxRows ≠ 0 ∧ e.2.maxRows < (d.rows e.2.id).length))

end FormData

/-! ## Counting errors -/

theorem Report.length_errors (r : Report) : r.errors.length = r.issues.countP (·.isError) :=
  List.countP_eq_length_filter.symm

theorem countP_isError_of_forall {l : List Issue} {b : Bool} (h : ∀ i ∈ l, i.isError = b) :
    l.countP (·.isError) = if b then l.length else 0 := by
  cases b with
  | true => rw [if_pos rfl, List.countP_eq_length.2 h]
  | false =>
    rw [if_neg Bool.false_ne_true, List.countP_eq_zero]
    intro i hi
    rw [h i hi]
    exact Bool.false_ne_true

/-! ## Occurrences -/

namespace Occurrence

variable {t : Template} {d : FormData}

theorem isError_of_mem_complaints {s : Settings} {o : Occurrence} :
    ∀ i ∈ o.complaints s, i.isError = true := by
  unfold complaints
  cases o.value? with
  | none => exact fun i hi => absurd hi List.not_mem_nil
  | some value =>
    intro i hi
    obtain ⟨message, -, rfl⟩ := List.mem_map.1 hi
    rfl

theorem countP_missingIssues (o : Occurrence) :
    (missingIssues o.field o.value? o.place).countP (·.isError) =
      if o.IsMissing then 1 else 0 := by
  have hmissing : o.IsMissing ↔ (o.field.required && o.value?.isNone) = true := by
    rw [IsMissing, Bool.and_eq_true, Option.isNone_iff_eq_none]
  unfold missingIssues
  simp only [hmissing]
  split <;> rfl

theorem lacksParent_iff {o : Occurrence} {parent : Field} : o.LacksParent t d parent ↔
    ∃ v, t.rowValue d o.siblings o.values parent = some v ∧ isFilled v = false := by
  have hsibling : o.siblings.any (·.id == parent.id) = true ↔
      parent.id ∈ o.siblings.map (·.id) := by
    simp
  unfold LacksParent Template.rowValue Template.staticValue
  by_cases hrow : parent.id ∈ o.siblings.map (·.id)
  · rw [if_pos hrow, if_pos (hsibling.2 hrow)]
    simp
  · rw [if_neg hrow, if_neg (mt hsibling.1 hrow)]
    cases t.isRowField parent.id <;> simp

theorem countP_parentIssues (o : Occurrence) :
    (parentIssues t t.resolve.graph (t.rowValue d o.siblings o.values) o.field o.value?
      o.place).countP (·.isError) = if o.IsOrphaned t d then 1 else 0 := by
  unfold parentIssues IsOrphaned
  simp only [lacksParent_iff, ← Template.requiresParent_iff]
  by_cases hneeds : (o.field.control.requiresParent && isFilled o.value?) = true
  · obtain ⟨hcontrol, hfilled⟩ := Bool.and_eq_true_iff.1 hneeds
    rw [if_pos hneeds]
    cases hparent : t.resolve.graph.parent? t o.field.id with
    | none => simp
    | some parent =>
      cases hvalue : t.rowValue d o.siblings o.values parent with
      | none => simp [hvalue]
      | some v =>
        cases hv : isFilled v <;>
          simp [hcontrol, hfilled, hvalue, hv, structuralError, Issue.isError]
  · rw [if_neg hneeds, if_neg]
    · rfl
    · rintro ⟨hcontrol, hfilled, -⟩
      exact hneeds (Bool.and_eq_true_iff.2 ⟨hcontrol, hfilled⟩)

end Occurrence

namespace FormData

variable {s : Settings} {t : Template} {d : FormData}

/-! ## The parts of a report -/

theorem valueIssues_eq_flatMap :
    d.staticValueIssues s t ++ d.tableValueIssues s t =
      (d.occurrences t).flatMap (·.complaints s) := by
  unfold staticValueIssues tableValueIssues occurrences
  rw [List.flatMap_append, List.flatMap_map, List.flatMap_assoc]
  refine congrArg _ (List.flatMap_congr fun e _ => ?_)
  dsimp only
  rw [flatten_mapIdx_succ, tableOccurrences, List.flatMap_assoc]
  refine List.flatMap_congr fun r _ => ?_
  rw [rowOccurrences, List.flatMap_map]
  rfl

theorem countP_ruleIssues (rules : RuleBook) :
    ((rules.rulesFor t.formCode).flatMap (d.ruleIssues t)).countP (·.isError) =
      rules.countP (d.Breaks t ·) := by
  have hvalue : ∀ rule : Rule,
      (ruleField? t rule).bind (d.value? ·.path) = d.ruleValue? t rule := by
    intro rule
    unfold ruleField? ruleValue?
    cases t.isRowField rule.field <;> cases t.field? rule.field <;> rfl
  have hone : ∀ rule : Rule, (d.ruleIssues t rule).countP (·.isError) =
      if rule.kind = .business ∧ rule.holds (d.ruleValue? t rule) d = false then 1 else 0 := by
    intro rule
    unfold ruleIssues
    simp only [hvalue]
    cases hholds : rule.holds (d.ruleValue? t rule) d <;> cases hkind : rule.kind <;>
      simp [Issue.isError, RuleKind.severity]
  unfold RuleBook.rulesFor
  rw [List.flatMap_map, countP_flatMap_of_forall fun e => hone e.2, List.countP_filter]
  refine List.countP_congr fun e _ => ?_
  rw [Bool.and_eq_true, beq_iff_eq, decide_eq_true_eq, decide_eq_true_eq, and_comm]
  rfl

/-- The issue of a table with too many rows. -/
def lengthIssues (d : FormData) (e : String × Table) : List Issue :=
  let rows := d.rows e.2.id
  if e.2.isExceededBy rows.length then
    [structuralError none e.2.path
      s!"table '{e.2.id}' has {rows.length} rows, more than the maximum {e.2.maxRows}"]
  else []

/-- The issues of the keys of a row that belong to no field. -/
def strayKeyIssues (s : Settings) (table : Table) (r : Row × Nat) : List Issue :=
  (r.1.keys.filter fun key => !table.rowTemplate.any (·.path == key)).map fun key =>
    unknownIssue s (rowPlace table.id r.2 key)
      s!"row value for unknown path '{key}' in table '{table.id}'"

theorem rowIssues_eq_append (table : Table) (r : Row × Nat) :
    rowIssues s t t.resolve.graph d table r.2 r.1 =
      (rowOccurrences table r.1 r.2).flatMap (·.structuralIssues t d) ++
        strayKeyIssues s table r := by
  rw [rowOccurrences, List.flatMap_map]
  rfl

theorem tableIssues_perm (e : String × Table) :
    (d.tableIssues s t t.resolve.graph e.2).Perm
      ((d.tableOccurrences e).flatMap (·.structuralIssues t d) ++ (d.lengthIssues e ++
        ((d.rows e.2.id).zipIdx 1).flatMap (strayKeyIssues s e.2))) := by
  have hrows : ((d.rows e.2.id).mapIdx fun i row =>
      rowIssues s t t.resolve.graph d e.2 (i + 1) row).flatten =
        ((d.rows e.2.id).zipIdx 1).flatMap fun r =>
          (rowOccurrences e.2 r.1 r.2).flatMap (·.structuralIssues t d) ++
            strayKeyIssues s e.2 r := by
    rw [flatten_mapIdx_succ]
    exact List.flatMap_congr fun r _ => rowIssues_eq_append e.2 r
  show (d.lengthIssues e ++ _).Perm _
  rw [hrows, tableOccurrences, List.flatMap_assoc]
  exact ((List.flatMap_append_perm ..).symm.append_left _).trans (List.perm_append_comm_assoc ..)

theorem staticIssues_eq_flatMap : d.staticIssues t t.resolve.graph =
    (t.staticFields.map fun f => (⟨f, d.values, [], f.path⟩ : Occurrence)).flatMap
      (·.structuralIssues t d) := by
  rw [List.flatMap_map]
  rfl

/-- The issues of static fields and tables, sorted by what they are about. -/
theorem fieldIssues_perm :
    (d.staticIssues t t.resolve.graph ++
      t.tables.flatMap fun e => d.tableIssues s t t.resolve.graph e.2).Perm
      ((d.occurrences t).flatMap (·.structuralIssues t d) ++ (t.tables.flatMap d.lengthIssues ++
        t.tables.flatMap fun e => ((d.rows e.2.id).zipIdx 1).flatMap (strayKeyIssues s e.2))) := by
  have htables := List.Perm.flatMap_left t.tables fun e _ =>
    tableIssues_perm (s := s) (t := t) (d := d) e
  have hsorted := (htables.trans (List.flatMap_append_perm ..).symm).trans
    ((List.flatMap_append_perm ..).symm.append_left _)
  rw [staticIssues_eq_flatMap, occurrences, List.flatMap_append, List.append_assoc,
    List.flatMap_assoc]
  exact hsorted.append_left _

theorem countP_lengthIssues (e : String × Table) :
    (d.lengthIssues e).countP (·.isError) = if d.Overfills e then 1 else 0 := by
  have hover : d.Overfills e ↔ e.2.isExceededBy (d.rows e.2.id).length = true := by
    rw [Overfills, Table.isExceededBy, Bool.and_eq_true, bne_iff_ne, decide_eq_true_eq]
  unfold lengthIssues
  simp only [hover]
  split <;> rfl

/-! ## Data without a place -/

theorem isError_unknownIssue (place message : String) :
    (unknownIssue s place message).isError = s.strictUnknownPaths := by
  cases hstrict : s.strictUnknownPaths <;> simp [unknownIssue, Issue.isError, hstrict]

theorem unknownPaths_eq_filter : d.unknownPaths t =
    d.values.keys.filter fun path => ∀ f ∈ t.staticFields, f.path ≠ path := by
  refine List.filter_congr fun path _ => ?_
  rw [Bool.eq_iff_iff, Option.isNone_iff_eq_none, Template.staticFieldAt?, List.find?_eq_none]
  simp

theorem unknownTables_eq_filter : d.unknownTables t =
    d.tables.keys.filter fun id => ∀ e ∈ t.tables, e.2.id ≠ id := by
  refine List.filter_congr fun id _ => ?_
  rw [Bool.eq_iff_iff, Option.isNone_iff_eq_none, Template.table?, Option.map_eq_none_iff,
    List.find?_eq_none]
  simp

theorem filter_not_any_eq_strayKeys (table : Table) (row : Row) :
    (row.keys.filter fun key => !table.rowTemplate.any (·.path == key)) = strayKeys table row := by
  refine List.filter_congr fun key _ => ?_
  rw [Bool.eq_iff_iff]
  simp

theorem length_strayKeyIssues (table : Table) (r : Row × Nat) :
    (strayKeyIssues s table r).length = (strayKeys table r.1).length := by
  rw [strayKeyIssues, List.length_map, filter_not_any_eq_strayKeys]

theorem countP_strayKeyIssues :
    (t.tables.flatMap fun e => ((d.rows e.2.id).zipIdx 1).flatMap
      (strayKeyIssues s e.2)).countP (·.isError) =
      if s.strictUnknownPaths then
        (t.tables.flatMap fun e => (d.rows e.2.id).flatMap (strayKeys e.2)).length else 0 := by
  have hrows : ∀ e : String × Table,
      (((d.rows e.2.id).zipIdx 1).flatMap (strayKeyIssues s e.2)).length =
        ((d.rows e.2.id).flatMap (strayKeys e.2)).length := by
    intro e
    conv => rhs; rw [← List.zipIdx_map_fst 1 (d.rows e.2.id), List.flatMap_map]
    rw [List.length_flatMap, List.length_flatMap]
    exact congrArg List.sum (List.map_congr_left fun r _ => length_strayKeyIssues e.2 r)
  rw [countP_isError_of_forall (b := s.strictUnknownPaths)]
  · rw [List.length_flatMap, List.length_flatMap, List.map_congr_left fun e _ => hrows e]
  · intro i hi
    obtain ⟨e, -, hi⟩ := List.mem_flatMap.1 hi
    obtain ⟨r, -, hi⟩ := List.mem_flatMap.1 hi
    obtain ⟨key, -, rfl⟩ := List.mem_map.1 hi
    exact isError_unknownIssue ..

theorem countP_map_unknownIssue (places : List String) (message : String → String) :
    (places.map fun place => unknownIssue s place (message place)).countP (·.isError) =
      if s.strictUnknownPaths then places.length else 0 := by
  rw [countP_isError_of_forall (b := s.strictUnknownPaths), List.length_map]
  intro i hi
  obtain ⟨place, -, rfl⟩ := List.mem_map.1 hi
  exact isError_unknownIssue ..

theorem countP_formIssues : (d.formIssues t).countP (·.isError) = 0 := by
  unfold formIssues
  split <;> rfl

/-! ## The whole report -/

theorem countP_fieldIssues :
    (d.staticIssues t t.resolve.graph ++
      t.tables.flatMap fun e => d.tableIssues s t t.resolve.graph e.2).countP (·.isError) =
      (d.occurrences t).countP (·.IsMissing) + (d.occurrences t).countP (·.IsOrphaned t d) +
        t.tables.countP (d.Overfills ·) +
        if s.strictUnknownPaths then
          (t.tables.flatMap fun e => (d.rows e.2.id).flatMap (strayKeys e.2)).length else 0 := by
  have hoccurrences : ((d.occurrences t).flatMap (·.structuralIssues t d)).countP (·.isError) =
      (d.occurrences t).countP (·.IsMissing) + (d.occurrences t).countP (·.IsOrphaned t d) := by
    have hsplit := (List.flatMap_append_perm (d.occurrences t)
      (fun o => missingIssues o.field o.value? o.place)
      fun o => parentIssues t t.resolve.graph (t.rowValue d o.siblings o.values) o.field o.value?
        o.place).symm
    refine (hsplit.countP_eq _).trans ?_
    rw [List.countP_append, countP_flatMap_of_forall Occurrence.countP_missingIssues,
      countP_flatMap_of_forall Occurrence.countP_parentIssues]
  rw [fieldIssues_perm.countP_eq, List.countP_append, List.countP_append, hoccurrences,
    countP_flatMap_of_forall countP_lengthIssues, countP_strayKeyIssues, Nat.add_assoc _ _ (ite ..)]

/-- Every error stands for one thing that is wrong, and everything that is wrong has its error: the
number of errors is that of the defects of the template, the complaints about values, the broken
rules, the missing values, the values without a parent, the tables that are too long, and, if the
settings are strict, the data without a place in the template. -/
theorem length_errors_validate (s : Settings) (t : Template) (rules : RuleBook) (d : FormData) :
    (d.validate s t rules).errors.length =
      t.validate.errors.length +
      ((d.occurrences t).flatMap (·.complaints s)).length +
      rules.countP (d.Breaks t ·) +
      (d.occurrences t).countP (·.IsMissing) +
      (d.occurrences t).countP (·.IsOrphaned t d) +
      t.tables.countP (d.Overfills ·) +
      if s.strictUnknownPaths then (d.strays t).length else 0 := by
  have hvalues : (d.staticValueIssues s t ++ d.tableValueIssues s t).countP (·.isError) =
      ((d.occurrences t).flatMap (·.complaints s)).length := by
    rw [valueIssues_eq_flatMap, countP_isError_of_forall (b := true), if_pos rfl]
    intro i hi
    obtain ⟨o, -, hi⟩ := List.mem_flatMap.1 hi
    exact Occurrence.isError_of_mem_complaints i hi
  have hstrays : (if s.strictUnknownPaths then (d.strays t).length else 0) =
      (if s.strictUnknownPaths then
        (t.tables.flatMap fun e => (d.rows e.2.id).flatMap (strayKeys e.2)).length else 0) +
      (if s.strictUnknownPaths then (d.unknownPaths t).length else 0) +
      if s.strictUnknownPaths then (d.unknownTables t).length else 0 := by
    rw [strays, ← unknownPaths_eq_filter, ← unknownTables_eq_filter, List.length_append,
      List.length_append]
    split <;> omega
  have htemplate : t.validate.errors.length = t.issues.countP (·.isError) :=
    Report.length_errors _
  have hfields := countP_fieldIssues (s := s) (t := t) (d := d)
  rw [List.countP_append] at hfields
  rw [Report.length_errors, Report.issues, List.countP_append, List.countP_append, hstrays,
    htemplate]
  show (d.staticValueIssues s t ++ d.tableValueIssues s t).countP _ +
    ((rules.rulesFor t.formCode).flatMap (d.ruleIssues t)).countP _ +
    (t.issues ++ d.structuralIssues s t).countP _ = _
  rw [hvalues, countP_ruleIssues, structuralIssues]
  simp only [List.countP_append, countP_map_unknownIssue, countP_formIssues]
  omega

end FormData

end Filing
