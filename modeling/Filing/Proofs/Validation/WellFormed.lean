import Filing.Proofs.Dependency.Links
import Filing.Proofs.Earlier
import Filing.Proofs.Form.Fields
import Filing.Proofs.Lists
import Filing.Validation.Validate

/-!
# Well-formed templates

A template is well formed when its fields refer to each other without gaps and circles, ids are
unique, bounds leave room, and every path has a place of its own among those it could be confused
with. The check of a template reports errors exactly for templates that are not; a selection stored
in an unknown field is the one thing that only deserves a warning.
-/

namespace Filing

open Relation (TransGen)

theorem Report.isValid_iff {r : Report} :
    r.isValid = true ↔ ∀ i ∈ r.issues, i.severity ≠ .error := by
  rw [isValid, errors, List.isEmpty_iff, List.filter_eq_nil_iff]
  simp only [Issue.isError, beq_iff_eq, ne_eq]

namespace Template

/-- What a template has to be for its forms to be filed. -/
structure IsWellFormed (t : Template) : Prop where
  parents : ∀ f ∈ t.fields, ∀ id, f.parent = some id → t.Names id
  children : ∀ f ∈ t.fields, ∀ id, f.child = some id → t.Names id
  acyclic : ∀ id, ¬ TransGen t.Links id id
  ids : (t.fields.map (·.id)).Nodup
  ranges : ∀ f ∈ t.fields, ∀ min max, f.min = some min → f.max = some max → ¬ max < min
  selections : ∀ f ∈ t.fields, f.control = .dependentDropdown ∨ f.control = .wardDropdown →
    ∃ id, f.parent = some id
  fieldPaths : ∀ f ∈ t.fields, Path.isResolvable f.path = true
  tablePaths : ∀ e ∈ t.tables, Path.isResolvable e.2.path = true
  statics : (t.staticFields.map (·.path)).Nodup
  rows : ∀ e ∈ t.tables, (e.2.rowTemplate.map (·.path)).Nodup
  tables : (t.tables.map (·.2.path)).Nodup
  tableIds : (t.tables.map (·.2.id)).Nodup

variable {t : Template}

/-! ## Dependencies -/

theorem dependencyIssues_iff : (∀ i ∈ t.dependencyIssues, i.severity ≠ .error) ↔
    ((∀ f ∈ t.fields, ∀ id, f.parent = some id → t.Names id) ∧
      (∀ f ∈ t.fields, ∀ id, f.child = some id → t.Names id) ∧ ∀ id, ¬ TransGen t.Links id id) := by
  have hnil : (∀ i ∈ t.dependencyIssues, i.severity ≠ .error) ↔ t.resolve.defects = [] := by
    unfold dependencyIssues
    cases t.resolve.defects with
    | nil => simp
    | cons d defects => simp [TemplateDefect.issue, structuralError]
  rw [hnil, defects_resolve_eq_nil_iff, ← and_assoc]
  exact and_congr_left' forall₂_and

/-! ## Fields -/

theorem requiresParent_iff {c : Control} :
    c.requiresParent = true ↔ c = .dependentDropdown ∨ c = .wardDropdown := by
  cases c <;> simp [Control.requiresParent]

theorem severity_issue (field : Option String) (path : String) (d : TemplateDefect) :
    (d.issue field path).severity = .error := rfl

/-- An issue that is reported under a condition only is an error under that condition. -/
theorem forall_mem_ite_iff {c : Prop} [Decidable c] {i : Issue} (hi : i.severity = .error) :
    (∀ j ∈ if c then [i] else [], j.severity ≠ .error) ↔ ¬ c := by
  split
  · next h => simp [hi, h]
  · next h => simp [h]

theorem invertedRange?_eq_none_iff {f : Field} : f.invertedRange? = none ↔
    ∀ min max, f.min = some min → f.max = some max → ¬ max < min := by
  unfold Field.invertedRange?
  split
  · next min max hmin hmax =>
    rw [ite_eq_right_iff]
    refine ⟨fun h min' max' hmin' hmax' hlt => ?_, fun h hlt => absurd hlt (h min max hmin hmax)⟩
    obtain rfl := Option.some.inj (hmin.symm.trans hmin')
    obtain rfl := Option.some.inj (hmax.symm.trans hmax')
    exact absurd (h hlt) (by simp)
  · next h => exact iff_of_true rfl fun min max hmin hmax => (h min max hmin hmax).elim

theorem fieldIssues_iff {f : Field} : (∀ i ∈ t.fieldIssues f, i.severity ≠ .error) ↔
    (∀ min max, f.min = some min → f.max = some max → ¬ max < min) ∧
    (f.control = .dependentDropdown ∨ f.control = .wardDropdown → ∃ id, f.parent = some id) ∧
    Path.isResolvable f.path = true := by
  have hparent : ¬ (f.control.requiresParent && f.parent.isNone) = true ↔
      (f.control = .dependentDropdown ∨ f.control = .wardDropdown → ∃ id, f.parent = some id) := by
    rw [← requiresParent_iff, ← Option.isSome_iff_exists]
    cases f.control.requiresParent <;> cases f.parent <;> simp
  unfold fieldIssues
  rw [List.forall_mem_append, List.forall_mem_append, List.forall_mem_append, and_assoc, and_assoc]
  refine and_congr ?_ (and_congr ?_ ((and_iff_left ?_).trans ?_))
  · rw [← invertedRange?_eq_none_iff]
    cases f.invertedRange? <;> simp [severity_issue]
  · rw [forall_mem_ite_iff (severity_issue _ _ _), hparent]
  · intro i hi
    split at hi
    · split at hi
      · exact absurd hi List.not_mem_nil
      · rw [List.mem_singleton.1 hi]
        exact fun h => Severity.noConfusion h
    · exact absurd hi List.not_mem_nil
  · split
    · next h => simp [h]
    · next h => simp [h, severity_issue]

theorem fieldsIssues_iff : (∀ i ∈ t.fieldsIssues, i.severity ≠ .error) ↔
    (t.fields.map (·.id)).Nodup ∧ ∀ f ∈ t.fields, ∀ i ∈ t.fieldIssues f, i.severity ≠ .error := by
  have hown : ∀ p : List Field × Field,
      (∀ i ∈ (if p.1.any (·.id == p.2.id) then
          [(TemplateDefect.duplicateField p.2.id).issue (some p.2.id) p.2.path] else []) ++
        t.fieldIssues p.2, i.severity ≠ .error) ↔
      (∀ b ∈ p.1, b.id ≠ p.2.id) ∧ ∀ i ∈ t.fieldIssues p.2, i.severity ≠ .error := by
    intro p
    rw [List.forall_mem_append, forall_mem_ite_iff (severity_issue _ _ _)]
    simp
  have hfields := forall_mem_withEarlier (l := t.fields)
    (p := fun f => ∀ i ∈ t.fieldIssues f, i.severity ≠ .error)
  unfold fieldsIssues
  rw [List.forall_mem_flatMap, nodup_map_iff_withEarlier, ← hfields, ← forall₂_and]
  exact forall₂_congr fun p _ => hown p

/-! ## Paths and tables -/

/-- Where ids are unique, two fields that collide have different ids, so every collision is
reported. -/
theorem collisionIssues_iff {fields : List Field} (hids : (fields.map (·.id)).Nodup) :
    (∀ i ∈ collisionIssues fields, i.severity ≠ .error) ↔ (fields.map (·.path)).Nodup := by
  have hid := nodup_map_iff_withEarlier.1 hids
  unfold collisionIssues
  rw [List.forall_mem_flatMap, nodup_map_iff_withEarlier]
  refine forall₂_congr fun ⟨earlier, f⟩ hp => ?_
  dsimp only
  cases hfind : earlier.find? (·.path == f.path) with
  | none =>
    have hnone : ∀ b ∈ earlier, b.path ≠ f.path := by simpa using hfind
    exact iff_of_true (by simp) hnone
  | some first =>
    have hmem := List.mem_of_find?_eq_some hfind
    have hpath : first.path = f.path := by simpa using List.find?_some hfind
    have hne : first.id ≠ f.id := hid _ hp first hmem
    exact iff_of_false (by simp [hne, severity_issue]) fun h => h first hmem hpath

theorem pathIssues_iff (hids : (t.fields.map (·.id)).Nodup) :
    (∀ i ∈ t.pathIssues, i.severity ≠ .error) ↔
      (t.staticFields.map (·.path)).Nodup ∧
        ∀ e ∈ t.tables, (e.2.rowTemplate.map (·.path)).Nodup := by
  unfold pathIssues
  rw [List.forall_mem_append, List.forall_mem_flatMap,
    collisionIssues_iff (hids.sublist ((staticFields_sublist t).map _))]
  exact and_congr_right' (forall₂_congr fun e he =>
    collisionIssues_iff (hids.sublist ((rowTemplate_sublist he).map _)))

theorem tableIssues_iff : (∀ i ∈ t.tableIssues, i.severity ≠ .error) ↔
    (∀ e ∈ t.tables, Path.isResolvable e.2.path = true) ∧ (t.tables.map (·.2.path)).Nodup ∧
      (t.tables.map (·.2.id)).Nodup := by
  have htables := forall_mem_withEarlier (l := t.tables)
    (p := fun e => Path.isResolvable e.2.path = true)
  unfold tableIssues
  rw [List.forall_mem_flatMap, nodup_map_iff_withEarlier, nodup_map_iff_withEarlier, ← htables,
    ← forall₂_and, ← forall₂_and]
  refine forall₂_congr fun ⟨earlier, sectionId, table⟩ _ => ?_
  rw [List.forall_mem_append, List.forall_mem_append, and_assoc]
  refine and_congr ?_ (and_congr ?_ ?_)
  · split
    · next h => simp [h]
    · next h => simp [h, severity_issue]
  · cases hfind : earlier.reverse.find? (·.2.path == table.path) with
    | none =>
      have hnone : ∀ b ∈ earlier, b.2.path ≠ table.path := by simpa using hfind
      exact iff_of_true (by simp) hnone
    | some first =>
      have hmem := List.mem_reverse.1 (List.mem_of_find?_eq_some hfind)
      have hpath : first.2.path = table.path := by simpa using List.find?_some hfind
      exact iff_of_false (by simp [severity_issue]) fun h => h first hmem hpath
  · rw [forall_mem_ite_iff (severity_issue _ _ _)]
    simp

/-! ## The whole check -/

theorem isValid_validate_iff_isWellFormed : t.validate.isValid = true ↔ t.IsWellFormed := by
  rw [Report.isValid_iff]
  show (∀ i ∈ [] ++ [] ++ t.issues, _) ↔ _
  rw [List.nil_append, List.nil_append]
  unfold issues
  rw [List.forall_mem_append, List.forall_mem_append, List.forall_mem_append,
    dependencyIssues_iff, fieldsIssues_iff, tableIssues_iff]
  constructor
  · rintro ⟨⟨⟨⟨hparents, hchildren, hacyclic⟩, hids, hfields⟩, hpaths⟩, htablePaths, htables,
      htableIds⟩
    have hfield := fun f hf => fieldIssues_iff.1 (hfields f hf)
    obtain ⟨hstatics, hrows⟩ := (pathIssues_iff hids).1 hpaths
    exact ⟨hparents, hchildren, hacyclic, hids, fun f hf => (hfield f hf).1,
      fun f hf => (hfield f hf).2.1, fun f hf => (hfield f hf).2.2, htablePaths, hstatics, hrows,
      htables, htableIds⟩
  · intro h
    refine ⟨⟨⟨⟨h.parents, h.children, h.acyclic⟩, h.ids, fun f hf => ?_⟩, ?_⟩, h.tablePaths,
      h.tables, h.tableIds⟩
    · exact fieldIssues_iff.2 ⟨h.ranges f hf, h.selections f hf, h.fieldPaths f hf⟩
    · exact (pathIssues_iff h.ids).2 ⟨h.statics, h.rows⟩

/-! ## Defects and one warning -/

/-- The field stores its selection in a field that does not exist. -/
def losesSelection (t : Template) (f : Field) : Bool :=
  f.selected.any fun id => !t.fields.any (·.id == id)

section Wording

variable {p : Issue → Prop}
  (hdefect : ∀ field path (defect : TemplateDefect), p (defect.issue field path))

include hdefect

theorem forall_dependencyIssues : ∀ i ∈ t.dependencyIssues, p i := by
  intro i hi
  obtain ⟨d, -, rfl⟩ := List.mem_map.1 hi
  exact hdefect _ _ d

theorem forall_collisionIssues (fields : List Field) : ∀ i ∈ collisionIssues fields, p i := by
  unfold collisionIssues
  rw [List.forall_mem_flatMap]
  intro e _
  dsimp only
  split
  · split <;> simp [hdefect]
  · simp

theorem forall_pathIssues : ∀ i ∈ t.pathIssues, p i := by
  unfold pathIssues
  rw [List.forall_mem_append, List.forall_mem_flatMap]
  exact ⟨forall_collisionIssues hdefect _, fun e _ => forall_collisionIssues hdefect _⟩

theorem forall_tableIssues : ∀ i ∈ t.tableIssues, p i := by
  unfold tableIssues
  rw [List.forall_mem_flatMap]
  intro e _
  dsimp only
  rw [List.forall_mem_append, List.forall_mem_append]
  refine ⟨⟨?_, ?_⟩, ?_⟩
  · split <;> simp [hdefect]
  · split <;> simp [hdefect]
  · split <;> simp [hdefect]

/-- The part of the issues of a template that is about its fields one by one words defects, and
selections that are lost. -/
theorem forall_fieldsIssues
    (hselection : ∀ (field : Option String) (path id selected : String), p {
      severity := .warning
      category := .structural
      field
      path
      message := s!"field '{id}' stores its selection in unknown field '{selected}'" }) :
    ∀ i ∈ t.fieldsIssues, p i := by
  have hfield : ∀ f : Field, ∀ i ∈ t.fieldIssues f, p i := by
    intro f
    unfold fieldIssues
    rw [List.forall_mem_append, List.forall_mem_append, List.forall_mem_append]
    refine ⟨⟨⟨?_, ?_⟩, ?_⟩, ?_⟩
    · split <;> simp [hdefect]
    · split <;> simp [hdefect]
    · split <;> simp [hdefect]
    · split
      · next selected _ =>
        have hlost := hselection (some f.id) f.path f.id selected
        split
        · exact fun i hi => absurd hi List.not_mem_nil
        · exact fun i hi => List.mem_singleton.1 hi ▸ hlost
      · exact fun i hi => absurd hi List.not_mem_nil
  unfold fieldsIssues
  rw [List.forall_mem_flatMap]
  intro e _
  dsimp only
  rw [List.forall_mem_append]
  refine ⟨?_, hfield e.2⟩
  split <;> simp [hdefect]

end Wording

theorem filter_not_isError_eq_nil {l : List Issue} (h : ∀ i ∈ l, i.severity = .error) :
    l.filter (!·.isError) = [] := by
  rw [List.filter_eq_nil_iff]
  intro i hi
  simp [Issue.isError, h i hi]

theorem severity_dependencyIssues : ∀ i ∈ t.dependencyIssues, i.severity = .error :=
  forall_dependencyIssues severity_issue

theorem severity_pathIssues : ∀ i ∈ t.pathIssues, i.severity = .error :=
  forall_pathIssues severity_issue

theorem severity_tableIssues : ∀ i ∈ t.tableIssues, i.severity = .error :=
  forall_tableIssues severity_issue

theorem map_warnings_fieldIssues (f : Field) :
    ((t.fieldIssues f).filter (!·.isError)).map (fun i => (i.field, i.path)) =
      if t.losesSelection f then [(some f.id, f.path)] else [] := by
  unfold fieldIssues
  rw [List.filter_append, filter_not_isError_eq_nil, List.nil_append]
  · unfold losesSelection
    cases f.selected with
    | none => rfl
    | some selected =>
      have hknown : (t.field? selected).isSome = t.fields.any (·.id == selected) := by
        rw [field?_eq_find?, Bool.eq_iff_iff, List.find?_isSome, List.any_eq_true]
      cases hany : t.fields.any (·.id == selected) <;> simp [hknown, hany, Issue.isError]
  · rw [List.forall_mem_append, List.forall_mem_append]
    refine ⟨⟨?_, ?_⟩, ?_⟩
    · split <;> simp [severity_issue]
    · split <;> simp [severity_issue]
    · split <;> simp [severity_issue]

theorem map_warnings_fieldsIssues :
    (t.fieldsIssues.filter (!·.isError)).map (fun i => (i.field, i.path)) =
      (t.fields.filter t.losesSelection).map fun f => (some f.id, f.path) := by
  rw [← flatMap_ite_singleton t.losesSelection]
  conv => rhs; rw [← map_snd_withEarlier t.fields, List.flatMap_map]
  unfold fieldsIssues
  rw [List.filter_flatMap, List.map_flatMap]
  refine List.flatMap_congr fun p _ => ?_
  dsimp only
  rw [List.filter_append, filter_not_isError_eq_nil, List.nil_append, map_warnings_fieldIssues]
  split <;> simp [severity_issue]

/-- The check of a template reports no error exactly when the template is well formed, and a warning
for each field, in order, that stores its selection in an unknown one, and no other warning. -/
theorem errors_validate_eq_nil_iff (t : Template) :
    (t.validate.errors = [] ↔ t.IsWellFormed) ∧
      t.validate.warnings.map (fun i => (i.field, i.path)) =
        (t.fields.filter t.losesSelection).map fun f => (some f.id, f.path) := by
  constructor
  · rw [← isValid_validate_iff_isWellFormed, Report.isValid, List.isEmpty_iff]
  · show (t.issues.filter fun i => !i.isError).map _ = _
    unfold issues
    rw [List.filter_append, List.filter_append, List.filter_append,
      filter_not_isError_eq_nil severity_dependencyIssues,
      filter_not_isError_eq_nil severity_pathIssues,
      filter_not_isError_eq_nil severity_tableIssues, List.nil_append, List.append_nil,
      List.append_nil, map_warnings_fieldsIssues]

end Template

end Filing
