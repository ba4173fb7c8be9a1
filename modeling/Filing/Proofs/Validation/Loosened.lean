import Filing.Proofs.Validation.WellFormed
import Mathlib.Data.List.Forall2

/-!
# Data that stays valid

Whether data is valid depends on its values field by field: each value must suit its field, a
required one must be there, and one that depends on a parent needs the parent filled. A blank in
place of a value without content changes none of this, and neither does dropping the rows of a
table. So valid data stays valid when some of its empty places are given a blank.
-/

namespace Filing

/-! ## Fields and their values -/

/-- Validation finds no error in a value, or in its absence. -/
structure Field.IsSatisfied (t : Template) (parentValue : Field → Option (Option String))
    (f : Field) (value : Option String) : Prop where
  /-- A value suits its field. -/
  suits : ∀ v, value = some v → valueComplaints ({} : Settings).dateFormats f v = []
  /-- A required value is there. -/
  present : f.required = true → value.isSome = true
  /-- A value that depends on a parent in sight comes with one. -/
  parent : f.control.requiresParent = true → isFilled value = true →
    ∀ parent, t.resolve.graph.parent? t f.id = some parent →
      ∀ v, parentValue parent = some v → isFilled v = true

theorem checkValue_eq_nil_iff {formats : List String} {f : Field} {value place : String} :
    (∀ i ∈ checkValue formats f value place, i.severity ≠ .error) ↔
      valueComplaints formats f value = [] := by
  unfold checkValue
  cases valueComplaints formats f value <;> simp

theorem missingIssues_iff {f : Field} {value : Option String} {place : String} :
    (∀ i ∈ missingIssues f value place, i.severity ≠ .error) ↔
      (f.required = true → value.isSome = true) := by
  unfold missingIssues structuralError
  cases f.required <;> cases value <;> simp

theorem parentIssues_iff {t : Template} {parentValue : Field → Option (Option String)} {f : Field}
    {value : Option String} {place : String} :
    (∀ i ∈ parentIssues t t.resolve.graph parentValue f value place, i.severity ≠ .error) ↔
      (f.control.requiresParent = true → isFilled value = true →
        ∀ parent, t.resolve.graph.parent? t f.id = some parent →
          ∀ v, parentValue parent = some v → isFilled v = true) := by
  unfold parentIssues structuralError
  split
  · next h =>
    obtain ⟨hrequires, hfilled⟩ := Bool.and_eq_true_iff.1 h
    cases hparent : t.resolve.graph.parent? t f.id with
    | none => simp
    | some parent =>
      cases hvalue : parentValue parent with
      | none => simp [hvalue]
      | some v => cases hv : isFilled v <;> simp [hrequires, hfilled, hvalue, hv]
  · next h =>
    refine iff_of_true (fun i hi => absurd hi List.not_mem_nil) fun hrequires hfilled => ?_
    exact absurd (Bool.and_eq_true_iff.2 ⟨hrequires, hfilled⟩) h

/-- All that validation says about one value. -/
theorem isSatisfied_iff {t : Template} {parentValue : Field → Option (Option String)} {f : Field}
    {value : Option String} {place : String} :
    f.IsSatisfied t parentValue value ↔
      (∀ i ∈ value.elim [] fun v => checkValue ({} : Settings).dateFormats f v place,
        i.severity ≠ .error) ∧
      ∀ i ∈ missingIssues f value place ++
        parentIssues t t.resolve.graph parentValue f value place, i.severity ≠ .error := by
  rw [List.forall_mem_append, missingIssues_iff, parentIssues_iff]
  constructor
  · rintro ⟨hsuits, hpresent, hparent⟩
    refine ⟨?_, hpresent, hparent⟩
    cases value with
    | none => exact fun i hi => absurd hi List.not_mem_nil
    | some v => exact checkValue_eq_nil_iff.2 (hsuits v rfl)
  · rintro ⟨hsuits, hpresent, hparent⟩
    refine ⟨?_, hpresent, hparent⟩
    rintro v rfl
    exact checkValue_eq_nil_iff.1 hsuits

/-! ## Valid data -/

/-- The data satisfies the fields of a form. -/
structure FormData.Satisfies (t : Template) (d : FormData) : Prop where
  statics : ∀ f ∈ t.staticFields, f.IsSatisfied t (t.staticValue d) (d.value? f.path)
  bounded : ∀ e ∈ t.tables, e.2.isExceededBy (d.rows e.2.id).length = false
  rows : ∀ e ∈ t.tables, ∀ row ∈ d.rows e.2.id, ∀ f ∈ e.2.rowTemplate,
    f.IsSatisfied t (t.rowValue d e.2.rowTemplate row) (row.find? f.path)

theorem forall_mem_flatten_mapIdx {α β : Type} {l : List α} {f : Nat → α → List β}
    {p : β → Prop} : (∀ b ∈ (l.mapIdx f).flatten, p b) ↔
      ∀ i a, l[i]? = some a → ∀ b ∈ f i a, p b := by
  constructor
  · intro h i a ha b hb
    refine h b (List.mem_flatten.2 ⟨f i a, List.mem_of_getElem? (i := i) ?_, hb⟩)
    rw [List.getElem?_mapIdx, ha]
    rfl
  · intro h b hb
    obtain ⟨bs, hbs, hb⟩ := List.mem_flatten.1 hb
    obtain ⟨i, hi⟩ := List.getElem?_of_mem hbs
    rw [List.getElem?_mapIdx, Option.map_eq_some_iff] at hi
    obtain ⟨a, ha, rfl⟩ := hi
    exact h i a ha b hb

namespace FormData

variable {t : Template} {d : FormData}

theorem severity_unknownIssue {place message : String} :
    (unknownIssue {} place message).severity ≠ .error :=
  show Severity.warning ≠ .error by decide

theorem severity_formIssues : ∀ i ∈ d.formIssues t, i.severity ≠ .error := by
  unfold formIssues
  split <;> simp

theorem exceededIssues_iff {table : Table} {count : Nat} {message : String} :
    (∀ i ∈ if table.isExceededBy count then [structuralError none table.path message] else [],
      i.severity ≠ .error) ↔ table.isExceededBy count = false := by
  unfold structuralError
  cases table.isExceededBy count <;> simp

theorem staticIssues_iff :
    ((∀ i ∈ d.staticValueIssues {} t, i.severity ≠ .error) ∧
      ∀ i ∈ d.staticIssues t t.resolve.graph, i.severity ≠ .error) ↔
      ∀ f ∈ t.staticFields, f.IsSatisfied t (t.staticValue d) (d.value? f.path) := by
  unfold staticValueIssues staticIssues
  rw [List.forall_mem_flatMap, List.forall_mem_flatMap, ← forall₂_and]
  exact forall₂_congr fun f _ => isSatisfied_iff.symm

theorem rowIssues_iff {table : Table} {ordinal : Nat} {row : Row} :
    ((∀ i ∈ rowValueIssues {} table ordinal row, i.severity ≠ .error) ∧
      ∀ i ∈ rowIssues {} t t.resolve.graph d table ordinal row, i.severity ≠ .error) ↔
      ∀ f ∈ table.rowTemplate,
        f.IsSatisfied t (t.rowValue d table.rowTemplate row) (row.find? f.path) := by
  have hunknown : ∀ i ∈ (row.keys.filter fun key =>
      !table.rowTemplate.any (·.path == key)).map fun key =>
        unknownIssue {} (rowPlace table.id ordinal key)
          s!"row value for unknown path '{key}' in table '{table.id}'", i.severity ≠ .error := by
    intro i hi
    obtain ⟨key, -, rfl⟩ := List.mem_map.1 hi
    exact severity_unknownIssue
  unfold rowValueIssues rowIssues
  rw [List.forall_mem_append, and_iff_left hunknown, List.forall_mem_flatMap,
    List.forall_mem_flatMap, ← forall₂_and]
  exact forall₂_congr fun f _ => isSatisfied_iff.symm

theorem tableIssues_iff {table : Table} :
    ((∀ i ∈ ((d.rows table.id).mapIdx fun i row => rowValueIssues {} table (i + 1) row).flatten,
        i.severity ≠ .error) ∧
      ∀ i ∈ d.tableIssues {} t t.resolve.graph table, i.severity ≠ .error) ↔
      table.isExceededBy (d.rows table.id).length = false ∧
        ∀ row ∈ d.rows table.id, ∀ f ∈ table.rowTemplate,
          f.IsSatisfied t (t.rowValue d table.rowTemplate row) (row.find? f.path) := by
  unfold tableIssues
  rw [List.forall_mem_append, exceededIssues_iff, forall_mem_flatten_mapIdx,
    forall_mem_flatten_mapIdx]
  constructor
  · rintro ⟨hvalues, hbounded, hrows⟩
    refine ⟨hbounded, fun row hrow => ?_⟩
    obtain ⟨i, hi⟩ := List.getElem?_of_mem hrow
    exact rowIssues_iff.1 ⟨hvalues i row hi, hrows i row hi⟩
  · rintro ⟨hbounded, hrows⟩
    refine ⟨fun i row hi => ?_, hbounded, fun i row hi => ?_⟩
    · exact (rowIssues_iff.2 (hrows row (List.mem_of_getElem? hi))).1
    · exact (rowIssues_iff.2 (hrows row (List.mem_of_getElem? hi))).2

/-- Under the default settings and without rules, data is valid when its template is and the data
satisfies every field. -/
theorem isValid_validate_iff :
    (d.validate {} t []).isValid = true ↔ t.validate.isValid = true ∧ d.Satisfies t := by
  have hunknown : ∀ (places : List String) (message : String → String),
      ∀ i ∈ places.map fun place => unknownIssue {} place (message place),
        i.severity ≠ .error := by
    intro places message i hi
    obtain ⟨place, -, rfl⟩ := List.mem_map.1 hi
    exact severity_unknownIssue
  have htables : ((∀ i ∈ d.tableValueIssues {} t, i.severity ≠ .error) ∧
      ∀ i ∈ t.tables.flatMap fun e => d.tableIssues {} t t.resolve.graph e.2,
        i.severity ≠ .error) ↔
      ∀ e ∈ t.tables, e.2.isExceededBy (d.rows e.2.id).length = false ∧
        ∀ row ∈ d.rows e.2.id, ∀ f ∈ e.2.rowTemplate,
          f.IsSatisfied t (t.rowValue d e.2.rowTemplate row) (row.find? f.path) := by
    unfold tableValueIssues
    rw [List.forall_mem_flatMap, List.forall_mem_flatMap, ← forall₂_and]
    exact forall₂_congr fun e _ => tableIssues_iff
  rw [Report.isValid_iff, Report.isValid_iff]
  show (∀ i ∈ (d.staticValueIssues {} t ++ d.tableValueIssues {} t) ++ [] ++
    (t.issues ++ d.structuralIssues {} t), _) ↔ (∀ i ∈ [] ++ [] ++ t.issues, _) ∧ _
  unfold structuralIssues
  simp only [List.forall_mem_append, List.append_nil, List.nil_append]
  constructor
  · rintro ⟨⟨hvalues, hrowValues⟩, htemplate, ⟨⟨⟨-, hstatics⟩, htable⟩, -⟩, -⟩
    have hall := htables.1 ⟨hrowValues, htable⟩
    exact ⟨htemplate, staticIssues_iff.1 ⟨hvalues, hstatics⟩, fun e he => (hall e he).1,
      fun e he => (hall e he).2⟩
  · rintro ⟨htemplate, hstatics, hbounded, hrows⟩
    obtain ⟨hvalues, hstatic⟩ := staticIssues_iff.2 hstatics
    obtain ⟨hrowValues, htable⟩ := htables.2 fun e he => ⟨hbounded e he, hrows e he⟩
    exact ⟨⟨hvalues, hrowValues⟩, htemplate,
      ⟨⟨⟨severity_formIssues, hstatic⟩, htable⟩, hunknown _ _⟩, hunknown _ _⟩

/-- Rules only make fewer data valid. -/
theorem isValid_validate_nil {rules : RuleBook} (h : (d.validate {} t rules).isValid = true) :
    (d.validate {} t []).isValid = true := by
  rw [Report.isValid_iff] at h ⊢
  intro i hi
  refine h i ?_
  rcases List.mem_append.1 hi with hi | hi
  · rcases List.mem_append.1 hi with hi | hi
    · exact List.mem_append_left _ (List.mem_append_left _ hi)
    · exact absurd hi List.not_mem_nil
  · exact List.mem_append_right _ hi

end FormData

/-! ## Blanks -/

/-- The value is the same, or a blank stands where nothing did. -/
def Blanked (value other : Option String) : Prop :=
  other = value ∨ (isFilled value = false ∧ other = some " ")

theorem Blanked.isFilled_eq {value other : Option String} (h : Blanked value other) :
    isFilled other = isFilled value := by
  rcases h with rfl | ⟨hempty, rfl⟩
  · rfl
  · rw [hempty]
    rfl

/-- A field that is satisfied by nothing is satisfied by a blank. -/
theorem Field.IsSatisfied.of_blanked {t : Template}
    {parentValue otherValue : Field → Option (Option String)} {f : Field}
    {value other : Option String} (h : f.IsSatisfied t parentValue value)
    (hblanked : Blanked value other)
    (hparent : ∀ parent, (otherValue parent).map isFilled = (parentValue parent).map isFilled) :
    f.IsSatisfied t otherValue other := by
  refine ⟨?_, ?_, ?_⟩
  · intro v hv
    rcases hblanked with rfl | ⟨hempty, rfl⟩
    · exact h.suits v hv
    · obtain rfl := Option.some.inj hv
      have hrequired : f.required = false := by
        by_contra hreq
        rw [Bool.not_eq_false] at hreq
        obtain ⟨w, rfl⟩ := Option.isSome_iff_exists.1 (h.present hreq)
        have hsuits := h.suits w rfl
        have hcontent : Text.hasContent w = false := hempty
        rw [valueComplaints, hcontent, hreq] at hsuits
        exact absurd hsuits (List.cons_ne_nil _ _)
      have hblank : Text.hasContent " " = false := by decide
      rw [valueComplaints, hblank, hrequired]
      rfl
  · intro hrequired
    rcases hblanked with rfl | ⟨-, rfl⟩
    · exact h.present hrequired
    · rfl
  · intro hrequires hfilled parent hlink v hv
    have hsame := hparent parent
    rw [hv, Option.map_some] at hsame
    obtain ⟨w, hw, heq⟩ := Option.map_eq_some_iff.1 hsame.symm
    rw [← heq]
    exact h.parent hrequires (hblanked.isFilled_eq ▸ hfilled) parent hlink w hw

/-- Blanks were put where nothing stood, and tables were emptied. -/
structure FormData.Loosened (d other : FormData) : Prop where
  /-- The values are the same, up to blanks. -/
  values : ∀ path, Blanked (d.value? path) (other.value? path)
  /-- A table is empty or has the same rows, up to blanks. -/
  rows : ∀ id, other.rows id = [] ∨ List.Forall₂
    (fun row otherRow : Row => ∀ key, Blanked (row.find? key) (otherRow.find? key))
    (d.rows id) (other.rows id)

namespace FormData.Loosened

variable {t : Template} {d other : FormData}

theorem staticValue_eq (h : d.Loosened other) (parent : Field) :
    (t.staticValue other parent).map isFilled = (t.staticValue d parent).map isFilled := by
  unfold Template.staticValue
  split
  · rfl
  · rw [Option.map_some, Option.map_some, (h.values parent.path).isFilled_eq]

theorem rowValue_eq (h : d.Loosened other) {rowTemplate : List Field} {row otherRow : Row}
    (hrow : ∀ key, Blanked (row.find? key) (otherRow.find? key)) (parent : Field) :
    (t.rowValue other rowTemplate otherRow parent).map isFilled =
      (t.rowValue d rowTemplate row parent).map isFilled := by
  unfold Template.rowValue
  split
  · rw [Option.map_some, Option.map_some, (hrow parent.path).isFilled_eq]
  · exact h.staticValue_eq parent

theorem satisfies (h : d.Loosened other) (hd : d.Satisfies t) : other.Satisfies t := by
  refine ⟨?_, ?_, ?_⟩
  · intro f hf
    exact (hd.statics f hf).of_blanked (h.values f.path) h.staticValue_eq
  · intro e he
    rcases h.rows e.2.id with hnil | hrows
    · rw [hnil]
      simp [Table.isExceededBy]
    · rw [← hrows.length_eq]
      exact hd.bounded e he
  · intro e he otherRow hother f hf
    rcases h.rows e.2.id with hnil | hrows
    · rw [hnil] at hother
      exact absurd hother List.not_mem_nil
    · obtain ⟨i, hi⟩ := List.getElem?_of_mem hother
      have hlt : i < (d.rows e.2.id).length := by
        rw [hrows.length_eq]
        exact (List.getElem?_eq_some_iff.1 hi).1
      have hrow : ((d.rows e.2.id)[i], otherRow) ∈ (d.rows e.2.id).zip (other.rows e.2.id) :=
        List.mem_of_getElem? (List.getElem?_zip_eq_some.2 ⟨List.getElem?_eq_getElem hlt, hi⟩)
      have hblanked := (List.forall₂_iff_zip.1 hrows).2 hrow
      exact (hd.rows e he _ (List.getElem_mem hlt) f hf).of_blanked (hblanked f.path)
        (h.rowValue_eq hblanked)

/-- Valid data stays valid. -/
theorem isValid (h : d.Loosened other) (hd : (d.validate {} t []).isValid = true) :
    (other.validate {} t []).isValid = true := by
  obtain ⟨htemplate, hsat⟩ := isValid_validate_iff.1 hd
  exact isValid_validate_iff.2 ⟨htemplate, h.satisfies hsat⟩

end FormData.Loosened

end Filing
