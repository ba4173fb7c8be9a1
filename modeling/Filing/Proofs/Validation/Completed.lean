import Filing.Proofs.Validation.Accounting
import Mathlib.Data.List.Forall2

/-!
# Empty texts in place of nothing

Data is completed when every field that has no value gets the empty text. A required field without a
value was missing before and is empty now, which is one error either way; nothing else is held
against an empty text, and a parent is as empty with it as without. So completed data has as many
errors as before.
-/

namespace Filing

/-- Other data has the value of each field of a form, or the empty text where there is none. -/
structure FormData.IsCompletedBy (t : Template) (d other : FormData) : Prop where
  statics : ∀ f ∈ t.staticFields, other.value? f.path = some ((d.value? f.path).getD "")
  rows : ∀ e ∈ t.tables, List.Forall₂ (fun row otherRow : Row => ∀ f ∈ e.2.rowTemplate,
    otherRow.find? f.path = some ((row.find? f.path).getD "")) (d.rows e.2.id) (other.rows e.2.id)

theorem isFilled_completed (value : Option String) :
    isFilled (some (value.getD "")) = isFilled value := by
  cases value with
  | none => rfl
  | some v => rfl

/-! ## Parents -/

namespace Template

variable {t : Template}

theorem of_field? {id : String} {f : Field} (h : t.field? id = some f) :
    f ∈ t.fields ∧ f.id = id := by
  rw [field?_eq_find?] at h
  exact ⟨List.mem_of_find?_eq_some h, by simpa using List.find?_some h⟩

/-- A field that is found by its id outside all tables is a static one. -/
theorem mem_staticFields_of_field? {id : String} {f : Field} (h : t.field? id = some f)
    (hrow : t.isRowField id = false) : f ∈ t.staticFields := by
  obtain ⟨l, hlocation, hfield⟩ := Option.bind_eq_some_iff.1 h
  obtain ⟨sec, hsection, hposition⟩ := Option.bind_eq_some_iff.1 hfield
  rw [isRowField, sectionOf?, hlocation, Option.bind_some, hsection] at hrow
  have hstatic : sec ∈ t.sections.filter (!·.isDynamic) := by
    rw [List.mem_filter]
    exact ⟨List.mem_of_getElem? hsection, by simpa using hrow⟩
  exact List.mem_flatMap.2 ⟨sec, hstatic, List.mem_of_getElem? hposition⟩

theorem field?_of_parent? {g : DependencyGraph} {id : String} {parent : Field}
    (h : g.parent? t id = some parent) : t.field? parent.id = some parent := by
  obtain ⟨own, -, hfield⟩ := List.mem_filterMap.1 (List.mem_of_mem_head? h)
  rw [(of_field? hfield).2]
  exact hfield

end Template

namespace Occurrence

variable {s : Settings} {t : Template} {d d' : FormData} {o other : Occurrence}

/-! ## One occurrence -/

/-- All that validation says about an occurrence. -/
def issues (s : Settings) (t : Template) (d : FormData) (o : Occurrence) : List Issue :=
  o.complaints s ++ o.structuralIssues t d

theorem countP_issues (o : Occurrence) : (o.issues s t d).countP (·.isError) =
    (o.complaints s).length + (if o.IsMissing then 1 else 0) +
      if o.IsOrphaned t d then 1 else 0 := by
  rw [issues, structuralIssues, List.countP_append, List.countP_append, countP_missingIssues,
    countP_parentIssues, countP_isError_of_forall isError_of_mem_complaints, if_pos rfl,
    Nat.add_assoc]

theorem not_isMissing_of_value? {v : String} (h : o.value? = some v) : ¬ o.IsMissing := by
  rintro ⟨-, hnone⟩
  rw [h] at hnone
  exact absurd hnone (by simp)

/-- The same occurrence with empty texts in place of nothing. -/
structure IsCompletedBy (t : Template) (o other : Occurrence) : Prop where
  field : other.field = o.field
  siblings : other.siblings = o.siblings
  place : other.place = o.place
  value : other.value? = some (o.value?.getD "")
  values : ∀ f ∈ o.siblings, other.values.find? f.path = some ((o.values.find? f.path).getD "")
  /-- A field with the id of a sibling is one. -/
  own : ∀ f ∈ t.fields, f.id ∈ o.siblings.map (·.id) → f ∈ o.siblings

theorem length_checkValue_empty (formats : List String) (f : Field) (place : String) :
    (checkValue formats f "" place).length = if f.required = true then 1 else 0 := by
  have hempty : Text.hasContent "" = false := by decide
  rw [checkValue, List.length_map, valueComplaints, hempty]
  cases f.required <;> rfl

namespace IsCompletedBy

variable (h : IsCompletedBy t o other)

include h

/-- What was missing is empty, and one complaint about it takes the place of the other. -/
theorem complaints_add_missing :
    (other.complaints s).length + (if other.IsMissing then 1 else 0) =
      (o.complaints s).length + if o.IsMissing then 1 else 0 := by
  have hcomplaints : other.complaints s =
      checkValue s.dateFormats o.field (o.value?.getD "") o.place := by
    rw [complaints, h.value, h.field, h.place]
    rfl
  rw [if_neg (not_isMissing_of_value? h.value), hcomplaints, Nat.add_zero]
  cases hvalue : o.value? with
  | none =>
    -- a required field was missing and is empty now, any other was and is in order
    have hmissing : o.IsMissing ↔ o.field.required = true := by
      rw [IsMissing, hvalue]
      simp
    rw [Option.getD_none, length_checkValue_empty, complaints, hvalue]
    simp only [hmissing, Option.elim_none, List.length_nil, Nat.zero_add]
  | some v =>
    rw [if_neg (not_isMissing_of_value? hvalue), complaints, hvalue]
    rfl

/-- A parent is empty exactly when it was. -/
theorem lacksParent_iff (hd : d.IsCompletedBy t d') {parent : Field}
    (hparent : t.field? parent.id = some parent) :
    other.LacksParent t d' parent ↔ o.LacksParent t d parent := by
  unfold LacksParent
  rw [h.siblings]
  -- the value of a parent in the same row is one of the row, that of any other a static one
  by_cases hsibling : parent.id ∈ o.siblings.map (·.id)
  · have hmem := h.own parent (Template.of_field? hparent).1 hsibling
    rw [if_pos hsibling, if_pos hsibling, h.values parent hmem, isFilled_completed]
  · rw [if_neg hsibling, if_neg hsibling]
    refine and_congr_right fun hrow => ?_
    have hstatic := Template.mem_staticFields_of_field? hparent hrow
    rw [hd.statics parent hstatic, isFilled_completed]

theorem isOrphaned_iff (hd : d.IsCompletedBy t d') :
    other.IsOrphaned t d' ↔ o.IsOrphaned t d := by
  unfold IsOrphaned
  rw [h.field, h.value, isFilled_completed]
  refine and_congr_right fun _ => and_congr_right fun _ => exists_congr fun parent => ?_
  refine and_congr_right fun hlink => h.lacksParent_iff hd ?_
  exact Template.field?_of_parent? (Option.mem_def.1 hlink)

/-- An occurrence has as many errors when it is completed. -/
theorem countP_issues_eq (hd : d.IsCompletedBy t d') :
    (other.issues s t d').countP (·.isError) = (o.issues s t d).countP (·.isError) := by
  have horphaned : (if other.IsOrphaned t d' then 1 else 0) =
      if o.IsOrphaned t d then 1 else 0 := by
    simp only [h.isOrphaned_iff hd]
  rw [countP_issues, countP_issues, h.complaints_add_missing, horphaned]

end IsCompletedBy

end Occurrence

/-! ## All occurrences -/

theorem forall₂_zipIdx {α β : Type} {R : α → β → Prop} {l : List α} {l' : List β}
    (h : List.Forall₂ R l l') (n : Nat) :
    List.Forall₂ (fun a b => R a.1 b.1 ∧ a.2 = b.2) (l.zipIdx n) (l'.zipIdx n) := by
  induction h generalizing n with
  | nil => exact .nil
  | cons hab _ ih => exact .cons ⟨hab, rfl⟩ (ih (n + 1))

theorem countP_flatMap_of_forall₂ {α β γ : Type} {R : α → β → Prop} {q : γ → Bool}
    {f : α → List γ} {g : β → List γ} {l : List α} {l' : List β} (h : List.Forall₂ R l l')
    (hR : ∀ a b, R a b → (g b).countP q = (f a).countP q) :
    (l'.flatMap g).countP q = (l.flatMap f).countP q := by
  induction h with
  | nil => rfl
  | cons hab _ ih =>
    rw [List.flatMap_cons, List.flatMap_cons, List.countP_append, List.countP_append, hR _ _ hab,
      ih]

namespace FormData

variable {s : Settings} {t : Template} {d other : FormData}

theorem forall₂_rowOccurrences (hids : (t.fields.map (·.id)).Nodup) {e : String × Table}
    (he : e ∈ t.tables) {row otherRow : Row} (ordinal : Nat)
    (hrow : ∀ f ∈ e.2.rowTemplate, otherRow.find? f.path = some ((row.find? f.path).getD "")) :
    List.Forall₂ (Occurrence.IsCompletedBy t) (rowOccurrences e.2 row ordinal)
      (rowOccurrences e.2 otherRow ordinal) := by
  unfold rowOccurrences
  rw [List.forall₂_map_left_iff, List.forall₂_map_right_iff, List.forall₂_same]
  intro f hf
  exact {
    field := rfl
    siblings := rfl
    place := rfl
    value := hrow f hf
    values := hrow
    own := fun g hg => (Template.mem_map_id_rowTemplate_iff hids he hg).1 }

namespace IsCompletedBy

variable (h : d.IsCompletedBy t other)

include h

/-- Completed data has the same occurrences, each of them completed. -/
theorem forall₂_occurrences (hids : (t.fields.map (·.id)).Nodup) :
    List.Forall₂ (Occurrence.IsCompletedBy t) (d.occurrences t) (other.occurrences t) := by
  unfold occurrences
  refine List.rel_append ?_ ?_
  · rw [List.forall₂_map_left_iff, List.forall₂_map_right_iff, List.forall₂_same]
    intro f hf
    exact {
      field := rfl
      siblings := rfl
      place := rfl
      value := h.statics f hf
      values := fun g hg => absurd hg List.not_mem_nil
      own := fun g _ hg => absurd hg List.not_mem_nil }
  · have hsame : List.Forall₂ (fun e e' => e = e' ∧ e ∈ t.tables) t.tables t.tables :=
      List.forall₂_same.2 fun e he => ⟨rfl, he⟩
    refine List.rel_flatMap hsame ?_
    rintro e _ ⟨rfl, he⟩
    refine List.rel_flatMap (forall₂_zipIdx (h.rows e he) 1) ?_
    rintro ⟨row, ordinal⟩ ⟨otherRow, _⟩ ⟨hrow, rfl⟩
    exact forall₂_rowOccurrences hids he ordinal hrow

theorem countP_overfills : t.tables.countP (other.Overfills ·) = t.tables.countP (d.Overfills ·) := by
  refine List.countP_congr fun e he => ?_
  rw [decide_eq_true_eq, decide_eq_true_eq, Overfills, Overfills, (h.rows e he).length_eq]

end IsCompletedBy

/-- Without rules, and where unknown data is no error, the errors are those of the template, of the
occurrences of its fields, and of tables that are too long. -/
theorem length_errors_of_lenient (hstrict : s.strictUnknownPaths = false) :
    (d.validate s t []).errors.length = t.issues.countP (·.isError) +
      ((d.occurrences t).flatMap (·.issues s t d)).countP (·.isError) +
      t.tables.countP (d.Overfills ·) := by
  have hissues := List.flatMap_append_perm (d.occurrences t) (·.complaints s)
    (·.structuralIssues t d)
  have hfields := (fieldIssues_perm (s := s) (t := t) (d := d)).countP_eq (·.isError)
  rw [List.countP_append, List.countP_append, List.countP_append,
    countP_flatMap_of_forall countP_lengthIssues, countP_strayKeyIssues, if_neg (by simp [hstrict])]
    at hfields
  rw [Report.length_errors, Report.issues]
  show ((d.staticValueIssues s t ++ d.tableValueIssues s t) ++ [] ++
    (t.issues ++ d.structuralIssues s t)).countP _ = _
  have hoccurrences : ((d.occurrences t).flatMap (·.issues s t d)).countP (·.isError) =
      ((d.occurrences t).flatMap (·.complaints s)).countP (·.isError) +
        ((d.occurrences t).flatMap (·.structuralIssues t d)).countP (·.isError) := by
    rw [← List.countP_append]
    exact (hissues.countP_eq _).symm
  rw [hoccurrences, valueIssues_eq_flatMap, structuralIssues]
  simp only [List.countP_append, countP_map_unknownIssue, countP_formIssues, hstrict,
    List.countP_nil]
  rw [if_neg (by simp), if_neg (by simp)]
  omega

/-- Completed data has as many errors. -/
theorem IsCompletedBy.length_errors (h : d.IsCompletedBy t other)
    (hids : (t.fields.map (·.id)).Nodup) (hstrict : s.strictUnknownPaths = false) :
    (other.validate s t []).errors.length = (d.validate s t []).errors.length := by
  have hoccurrences := countP_flatMap_of_forall₂ (q := (·.isError)) (f := (·.issues s t d))
    (g := (·.issues s t other)) (h.forall₂_occurrences hids) fun o o' ho => ho.countP_issues_eq h
  rw [length_errors_of_lenient hstrict, length_errors_of_lenient hstrict, hoccurrences,
    h.countP_overfills]

end FormData

end Filing
