import Filing.Proofs.Form.Fields
import Filing.Proofs.Lists

/-!
# The index agrees with a search

The look-ups of a template by id all go through the index of places. They answer as a search through
the fields in the order of the document does, also where ids are repeated, within a section or across
sections, and where sections are empty.
-/

namespace Filing.Template

variable {t : Template} {id : String}

/-! ## The number of a place -/

/-- How many fields stand before a place. -/
def rank (t : Template) (l : FieldLocation) : Nat :=
  ((t.sections.take l.sectionIndex).flatMap (·.fields)).length + l.position

/-- The fields with the numbers of their places are the fields numbered in their order. -/
theorem map_rank_located (t : Template) :
    t.located.map (fun e => (e.1, t.rank e.2)) = t.fields.zipIdx := by
  rw [fields, zipIdx_flatMap, located, List.map_flatMap]
  simp only [List.map_map]
  rfl

/-- No two fields have places with one number. -/
theorem nodup_map_rank_located (t : Template) : (t.located.map fun e => t.rank e.2).Nodup := by
  have hranks : (t.located.map fun e => t.rank e.2) = List.range t.fields.length := by
    rw [List.range_eq_range', ← List.zipIdx_map_snd, ← map_rank_located, List.map_map]
    rfl
  exact hranks ▸ List.nodup_range

/-- The number of the place of an id is that of the first field with the id. -/
theorem map_rank_location? (t : Template) (id : String) :
    (t.location? id).map t.rank = t.fields.findIdx? (·.id == id) := by
  rw [← map_snd_find?_zipIdx, ← map_rank_located, List.find?_map, location?_eq_find?,
    Option.map_map, Option.map_map]
  rfl

/-- The place of an id is the place of the template that has the number of the first field with the
id. -/
theorem location?_eq_some_iff {l : FieldLocation} :
    t.location? id = some l ↔
      (t.fieldAt? l).isSome ∧ t.fields.findIdx? (·.id == id) = some (t.rank l) := by
  have hthere : ∀ {l}, t.location? id = some l → ∃ f, (f, l) ∈ t.located := by
    intro l hl
    rw [location?_eq_find?] at hl
    obtain ⟨e, hfirst, rfl⟩ := Option.map_eq_some_iff.1 hl
    exact ⟨e.1, List.mem_of_find?_eq_some hfirst⟩
  constructor
  · intro hl
    obtain ⟨f, hf⟩ := hthere hl
    rw [mem_located_iff.1 hf, ← map_rank_location?, hl]
    exact ⟨rfl, rfl⟩
  · rintro ⟨hsome, hrank⟩
    rw [← map_rank_location?] at hrank
    obtain ⟨first, hfirst, hnumber⟩ := Option.map_eq_some_iff.1 hrank
    obtain ⟨f, hf⟩ := Option.isSome_iff_exists.1 hsome
    obtain ⟨g, hg⟩ := hthere hfirst
    have heq := List.inj_on_of_nodup_map t.nodup_map_rank_located hg (mem_located_iff.2 hf) hnumber
    rw [hfirst, (Prod.mk.inj heq).2]

/-! ## Sections -/

/-- The section of an id is the first one that contains a field with the id. -/
theorem sectionOf?_eq_find? (t : Template) (id : String) :
    t.sectionOf? id = t.sections.find? (·.fields.any (·.id == id)) := by
  have hscan : t.sectionOf? id =
      ((t.sections.flatMap fun s => s.fields.map fun f => (f, some s)).find? (·.1.id == id)).bind
        (·.2) := by
    have hsections : t.located.map (fun e => (e.1, t.sections[e.2.sectionIndex]?)) =
        t.sections.flatMap fun s => s.fields.map fun f => (f, some s) :=
      map_located fun s f l hs => by rw [hs]
    rw [← hsections, List.find?_map, sectionOf?, location?_eq_find?, Option.bind_map,
      Option.bind_map]
    rfl
  rw [hscan]
  exact bind_find?_flatMap (·.fields) (·.id == id) t.sections

/-! ## The number of fields -/

theorem fieldCount_eq_length (t : Template) : t.fieldCount = t.fields.length := by
  have hcount : ∀ (l : List Section) (n : Nat),
      l.foldl (fun n s => n + s.fields.length) n = n + (l.flatMap (·.fields)).length := by
    intro l
    induction l with
    | nil => exact fun n => rfl
    | cons s rest ih =>
      intro n
      rw [List.foldl_cons, ih, List.flatMap_cons, List.length_append, Nat.add_assoc]
  rw [fieldCount, hcount, Nat.zero_add, fields]

/-! ## Look-ups -/

/-- The look-ups by an id answer as a search through the fields does. -/
structure IsIndexed (t : Template) (id : String) : Prop where
  /-- The field is the first one with the id. -/
  field : t.field? id = t.fields.find? (·.id == id)
  /-- There is none exactly if no field has the id. -/
  missing : t.field? id = none ↔ ∀ f ∈ t.fields, f.id ≠ id
  /-- The place is where that very field stands, also if there are others equal to it. -/
  location : ∀ l, t.location? id = some l ↔
    (t.fieldAt? l).isSome ∧ t.fields.findIdx? (·.id == id) = some (t.rank l)
  /-- At the place are the field and its section. -/
  located : ∀ l, t.location? id = some l → ∃ s f, t.sections[l.sectionIndex]? = some s ∧
    s.fields[l.position]? = some f ∧ t.sectionOf? id = some s ∧ t.field? id = some f
  /-- The section is the first one that contains a field with the id. -/
  sectionOf : t.sectionOf? id = t.sections.find? (·.fields.any (·.id == id))
  /-- The field is one of a row exactly if the section is dynamic. -/
  rowField : t.isRowField id = true ↔ ∃ s, t.sectionOf? id = some s ∧ s.isDynamic = true

/-- In every template the look-ups by an id answer as a search through the fields does, and the fields
counted section by section are as many as the fields listed. -/
theorem isIndexed_and_fieldCount (t : Template) :
    (∀ id, t.IsIndexed id) ∧ t.fieldCount = t.fields.length := by
  refine ⟨fun id => ?_, t.fieldCount_eq_length⟩
  exact {
    field := t.field?_eq_find? id
    missing := by
      rw [field?_eq_find?, List.find?_eq_none]
      simp only [beq_iff_eq]
    location := fun l => location?_eq_some_iff
    located := by
      intro l hl
      obtain ⟨f, hf⟩ := Option.isSome_iff_exists.1 (location?_eq_some_iff.1 hl).1
      obtain ⟨s, hs, hposition⟩ := Option.bind_eq_some_iff.1 hf
      refine ⟨s, f, hs, hposition, ?_, ?_⟩
      · rw [sectionOf?, hl, Option.bind_some, hs]
      · rw [field?, hl, Option.bind_some, hf]
    sectionOf := t.sectionOf?_eq_find? id
    rowField := by
      rw [isRowField]
      cases t.sectionOf? id with
      | none => simp
      | some s => simp }

end Filing.Template
