import Filing.Proofs.Validation.Ranges
import Filing.Proofs.Validation.Wordings

/-!
# Required fields

A required field that is left out is missing from the form as a whole; one that is left blank is an
empty value. The two are found in different parts of validation. Together they name each place
where a required field has nothing in it, once, and a blank value is not looked at any further.
-/

namespace Filing

/-- The message begins like those about required fields. -/
def Issue.isRequirement (i : Issue) : Bool := beginsWith ["required field '"] i.message

namespace Occurrence

/-- There is a value, with nothing in it. -/
def IsBlank (o : Occurrence) : Prop := ∃ value ∈ o.value?, Text.trim value = ""

instance : DecidablePred IsBlank := fun o =>
  inferInstanceAs (Decidable (∃ value ∈ o.value?, Text.trim value = ""))

/-- The issue of a required field that was left out. -/
def missingIssue (o : Occurrence) : Issue :=
  structuralError (some o.field.id) o.place s!"required field '{o.field.id}' is missing"

/-- The issue of a required field that was left blank. -/
def emptyIssue (o : Occurrence) : Issue :=
  o.field.complaint o.place s!"required field '{o.field.id}' is empty"

/-! ## Values -/

theorem isRequirement_missingIssue (o : Occurrence) : o.missingIssue.isRequirement = true := by
  unfold missingIssue Issue.isRequirement
  dsimp only [toString, structuralError]
  simp only [String.append_assoc]
  exact beginsWith_append (by decide) _

theorem isRequirement_emptyIssue (o : Occurrence) : o.emptyIssue.isRequirement = true := by
  unfold emptyIssue Issue.isRequirement
  dsimp only [toString, Field.complaint]
  simp only [String.append_assoc]
  exact beginsWith_append (by decide) _

/-- A blank value is looked at for nothing but being required. -/
theorem complaints_of_isBlank {s : Settings} {o : Occurrence} (h : o.IsBlank) :
    o.complaints s = if o.field.required then [o.emptyIssue] else [] := by
  obtain ⟨value, hvalue, hblank⟩ := h
  rw [complaints, Option.mem_def.1 hvalue, Option.elim_some, checkValue_eq_map, valueComplaints,
    if_neg (Bool.eq_false_iff.1 (Text.trim_eq_empty_iff.1 hblank))]
  split <;> rfl

theorem isRequirement_of_mem_complaints {s : Settings} {o : Occurrence} (h : ¬o.IsBlank) :
    ∀ i ∈ o.complaints s, i.isRequirement = false := by
  intro i hi
  unfold complaints at hi
  cases hvalue : o.value? with
  | none =>
    rw [hvalue] at hi
    exact absurd hi List.not_mem_nil
  | some value =>
    have hfilled : Text.hasContent value = true := by
      by_contra hcontent
      exact h ⟨value, hvalue, Text.trim_eq_empty_iff.2 (Bool.not_eq_true _ ▸ hcontent)⟩
    rw [hvalue, Option.elim_some, checkValue_eq_map, valueComplaints, if_pos hfilled] at hi
    obtain ⟨m, hm, rfl⟩ := List.mem_map.1 hi
    rcases List.mem_append.1 hm with hform | hlength
    · exact beginsWith_formComplaints m hform
    · exact beginsWith_of_areApart (beginsWith_lengthComplaints m hlength) (by decide)

theorem filter_isRequirement_complaints (s : Settings) (o : Occurrence) :
    (o.complaints s).filter (·.isRequirement) =
      if o.field.required ∧ o.IsBlank then [o.emptyIssue] else [] := by
  by_cases hblank : o.IsBlank
  · rw [complaints_of_isBlank hblank,
      List.filter_eq_self.2 (forall_mem_ite_singleton o.isRequirement_emptyIssue)]
    simp only [hblank, and_true]
  · rw [if_neg (mt And.right hblank),
      filter_eq_nil_of_forall (isRequirement_of_mem_complaints hblank)]

theorem filter_not_isRequirement_complaints (s : Settings) (o : Occurrence) :
    (o.complaints s).filter (!·.isRequirement) = if ¬o.IsBlank then o.complaints s else [] := by
  by_cases hblank : o.IsBlank
  · have hempty : (!o.emptyIssue.isRequirement) = false :=
      congrArg not o.isRequirement_emptyIssue
    rw [if_neg (not_not_intro hblank), complaints_of_isBlank hblank]
    exact filter_eq_nil_of_forall (forall_mem_ite_singleton hempty)
  · rw [if_pos hblank, List.filter_eq_self]
    exact fun i hi => congrArg not (isRequirement_of_mem_complaints hblank i hi)

/-! ## The form as a whole -/

theorem filter_isRequirement_structuralIssues (t : Template) (d : FormData) (o : Occurrence) :
    (o.structuralIssues t d).filter (·.isRequirement) =
      if o.IsMissing then [o.missingIssue] else [] := by
  have hparent : ∀ i ∈ parentIssues t t.resolve.graph (t.rowValue d o.siblings o.values) o.field
      o.value? o.place, i.isRequirement = false :=
    fun i hi => beginsWith_of_areApart (beginsWith_parentIssues i hi) (by decide)
  have hmissing : missingIssues o.field o.value? o.place =
      if o.IsMissing then [o.missingIssue] else [] := by
    simp only [missingIssues, IsMissing, Bool.and_eq_true, Option.isNone_iff_eq_none]
    rfl
  rw [structuralIssues, List.filter_append, filter_eq_nil_of_forall hparent, List.append_nil,
    hmissing, List.filter_eq_self.2 (forall_mem_ite_singleton o.isRequirement_missingIssue)]

/-- A place cannot be left out and left blank at once. -/
theorem countP_missing_add_countP_blank (os : List Occurrence) :
    os.countP (·.IsMissing) + os.countP (fun o => o.field.required ∧ o.IsBlank) =
      os.countP fun o => o.field.required ∧ (o.value? = none ∨ o.IsBlank) := by
  have hone : ∀ o : Occurrence, (if o.IsMissing then 1 else 0) +
      (if o.field.required ∧ o.IsBlank then 1 else 0) =
        if o.field.required ∧ (o.value? = none ∨ o.IsBlank) then 1 else 0 := by
    intro o
    unfold IsMissing
    by_cases hnone : o.value? = none
    · have hblank : ¬o.IsBlank := by
        rintro ⟨value, hvalue, -⟩
        exact Option.some_ne_none value (hvalue.symm.trans hnone)
      simp only [hnone, hblank, and_true, and_false, or_false, if_false, Nat.add_zero]
    · simp only [hnone, and_false, false_or, if_false, Nat.zero_add]
  induction os with
  | nil => rfl
  | cons o os ih =>
    rw [List.countP_cons, List.countP_cons, List.countP_cons, ← ih]
    simp only [decide_eq_true_eq]
    have hadd := hone o
    omega

end Occurrence

namespace FormData

open Occurrence

variable {s : Settings} {t : Template} {d : FormData}

theorem filter_isRequirement_occurrences (os : List Occurrence) :
    (os.flatMap (·.structuralIssues t d)).filter (·.isRequirement) =
      (os.filter (·.IsMissing)).map missingIssue := by
  refine filter_flatMap_eq_map fun o _ => ?_
  rw [filter_isRequirement_structuralIssues]
  simp only [decide_eq_true_eq]

theorem filter_isRequirement_tableIssues (e : String × Table) :
    (d.tableIssues s t t.resolve.graph e.2).filter (·.isRequirement) =
      ((d.tableOccurrences e).filter (·.IsMissing)).map missingIssue := by
  have hlength : ∀ i ∈ d.lengthIssues e, i.isRequirement = false :=
    fun i hi => beginsWith_of_areApart (beginsWith_lengthIssues i hi) (by decide)
  have hstray : ∀ r, ∀ i ∈ strayKeyIssues s e.2 r, i.isRequirement = false :=
    fun r i hi => beginsWith_of_areApart (beginsWith_strayKeyIssues i hi) (by decide)
  show (d.lengthIssues e ++ _).filter _ = _
  rw [List.filter_append, filter_eq_nil_of_forall hlength, List.nil_append, flatten_mapIdx_succ,
    List.filter_flatMap, tableOccurrences, List.filter_flatMap, List.map_flatMap]
  refine List.flatMap_congr fun r _ => ?_
  rw [rowIssues_eq_append, List.filter_append, filter_isRequirement_occurrences,
    filter_eq_nil_of_forall (hstray r), List.append_nil]

theorem filter_isRequirement_structural (rules : RuleBook) :
    (d.validate s t rules).structural.filter (·.isRequirement) =
      ((d.occurrences t).filter (·.IsMissing)).map missingIssue := by
  have htemplate : ∀ i ∈ t.issues, i.isRequirement = false :=
    fun i hi => beginsWith_of_areApart (t.beginsWith_issues i hi) (by decide)
  have hform : ∀ i ∈ d.formIssues t, i.isRequirement = false :=
    fun i hi => beginsWith_of_areApart (beginsWith_formIssues i hi) (by decide)
  have hunknown : ∀ {start : String}, AreApart [start] ["required field '"] →
      ∀ (places : List String) (more : String → String), ∀ i ∈ places.map fun place =>
        unknownIssue s place (start ++ more place), i.isRequirement = false := by
    intro start hapart places more i hi
    obtain ⟨place, -, rfl⟩ := List.mem_map.1 hi
    exact beginsWith_append_of_areApart hapart _
  have hpaths : ∀ i ∈ (d.unknownPaths t).map fun path =>
      unknownIssue s path s!"value for path '{path}' is not part of the template",
      i.isRequirement = false := by
    dsimp only [toString]
    simp only [String.append_assoc]
    exact hunknown (by decide) _ _
  have hids : ∀ i ∈ (d.unknownTables t).map fun id =>
      unknownIssue s id s!"rows for unknown table '{id}'", i.isRequirement = false := by
    dsimp only [toString]
    simp only [String.append_assoc]
    exact hunknown (by decide) _ _
  show (t.issues ++ d.structuralIssues s t).filter _ = _
  rw [structuralIssues]
  dsimp only
  rw [List.filter_append, filter_eq_nil_of_forall htemplate, List.filter_append, List.filter_append,
    List.filter_append, List.filter_append, filter_eq_nil_of_forall hform,
    filter_eq_nil_of_forall hpaths, filter_eq_nil_of_forall hids, staticIssues_eq_flatMap,
    filter_isRequirement_occurrences, List.filter_flatMap,
    List.flatMap_congr fun e _ => filter_isRequirement_tableIssues e, occurrences,
    List.filter_append, List.map_append, List.filter_flatMap, List.map_flatMap]
  simp only [List.nil_append, List.append_nil]

theorem filter_isRequirement_field (rules : RuleBook) :
    (d.validate s t rules).field.filter (·.isRequirement) =
      ((d.occurrences t).filter fun o => o.field.required ∧ o.IsBlank).map emptyIssue := by
  show (d.staticValueIssues s t ++ d.tableValueIssues s t).filter _ = _
  rw [valueIssues_eq_flatMap]
  refine filter_flatMap_eq_map fun o _ => ?_
  rw [filter_isRequirement_complaints]
  simp only [decide_eq_true_eq]

/-- A required field is complained about once at each place where it has nothing in it: as missing
if there is no value, and as empty if the value is blank. Nothing else is said of blank values. -/
theorem filter_isRequirement_validate (s : Settings) (t : Template) (rules : RuleBook)
    (d : FormData) :
    (d.validate s t rules).structural.filter (·.isRequirement) =
      ((d.occurrences t).filter (·.IsMissing)).map missingIssue ∧
    (d.validate s t rules).field.filter (·.isRequirement) =
      ((d.occurrences t).filter fun o => o.field.required ∧ o.IsBlank).map emptyIssue ∧
    ((d.validate s t rules).structural.filter (·.isRequirement)).length +
        ((d.validate s t rules).field.filter (·.isRequirement)).length =
      (d.occurrences t).countP (fun o => o.field.required ∧ (o.value? = none ∨ o.IsBlank)) ∧
    (d.validate s t rules).field.filter (!·.isRequirement) =
      ((d.occurrences t).filter fun o => ¬o.IsBlank).flatMap (·.complaints s) := by
  have hmissing := filter_isRequirement_structural (s := s) (t := t) (d := d) rules
  have hempty := filter_isRequirement_field (s := s) (t := t) (d := d) rules
  refine ⟨hmissing, hempty, ?_, ?_⟩
  · rw [hmissing, hempty, List.length_map, List.length_map, ← List.countP_eq_length_filter,
      ← List.countP_eq_length_filter]
    exact countP_missing_add_countP_blank _
  · show (d.staticValueIssues s t ++ d.tableValueIssues s t).filter _ = _
    rw [valueIssues_eq_flatMap, List.filter_flatMap, ← flatMap_ite_nil]
    refine List.flatMap_congr fun o _ => ?_
    rw [filter_not_isRequirement_complaints]
    simp only [decide_eq_true_eq]

end FormData

end Filing
