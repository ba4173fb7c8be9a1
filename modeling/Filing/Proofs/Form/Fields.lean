import Filing.Form.Template
import Filing.Proofs.KeyMaps
import Mathlib.Data.List.Flatten
import Mathlib.Data.List.Nodup

/-!
# The fields of a template

The fields of one section, or of the static ones, are some of all fields in the same order. Each
field has a place, and the index leads from an id to the place of the first field that has it.
-/

namespace Filing.Template

variable {t : Template}

theorem staticFields_sublist (t : Template) : t.staticFields.Sublist t.fields :=
  List.filter_sublist.flatMap _

theorem rowTemplate_sublist {e : String × Table} (he : e ∈ t.tables) :
    e.2.rowTemplate.Sublist t.fields := by
  obtain ⟨⟨id, content⟩, hs, heq⟩ := List.mem_filterMap.1 he
  obtain ⟨table, htable, rfl⟩ := Option.map_eq_some_iff.1 heq
  cases content with
  | static cells => exact absurd htable (by simp [Section.table?])
  | dynamic own =>
    obtain rfl := Option.some.inj htable
    exact List.sublist_flatten_of_mem (List.mem_map.2 ⟨_, hs, rfl⟩)

/-- Where the tables have different ids, each is found by its own. -/
theorem table?_of_mem (hids : (t.tables.map (·.2.id)).Nodup) {e : String × Table}
    (he : e ∈ t.tables) : t.table? e.2.id = some e.2 := by
  have hsome : (t.tables.find? (·.2.id == e.2.id)).isSome :=
    List.find?_isSome.2 ⟨e, he, by simp⟩
  obtain ⟨first, hfirst⟩ := Option.isSome_iff_exists.1 hsome
  have hid : first.2.id = e.2.id := by simpa using List.find?_some hfirst
  rw [table?, hfirst, List.inj_on_of_nodup_map hids (List.mem_of_find?_eq_some hfirst) he hid]
  rfl

/-- Where ids are unique, the id of a field stands in a row template only if the field does, so
looking for a parent by its id finds that field. -/
theorem mem_map_id_rowTemplate_iff (hids : (t.fields.map (·.id)).Nodup) {e : String × Table}
    (he : e ∈ t.tables) {parent : Field} (hparent : parent ∈ t.fields) :
    parent.id ∈ e.2.rowTemplate.map (·.id) ↔ parent ∈ e.2.rowTemplate := by
  refine ⟨fun h => ?_, List.mem_map_of_mem⟩
  obtain ⟨f, hf, hid⟩ := List.mem_map.1 h
  have hfields : f ∈ t.fields := (rowTemplate_sublist he).mem hf
  exact List.inj_on_of_nodup_map hids hfields hparent hid ▸ hf

/-! ## Places -/

/-- The fields with their places, in the order of the document. -/
def located (t : Template) : List (Field × FieldLocation) :=
  t.sections.zipIdx.flatMap fun e => e.1.fields.zipIdx.map fun p => (p.1, ⟨e.2, p.2⟩)

/-- A field is listed with a place exactly if it stands there. -/
theorem mem_located_iff {f : Field} {l : FieldLocation} :
    (f, l) ∈ t.located ↔ t.fieldAt? l = some f := by
  rw [fieldAt?, Option.bind_eq_some_iff, located, List.mem_flatMap]
  constructor
  · rintro ⟨⟨s, i⟩, hs, hmem⟩
    obtain ⟨⟨g, j⟩, hg, heq⟩ := List.mem_map.1 hmem
    obtain ⟨rfl, rfl⟩ := Prod.mk.inj heq
    exact ⟨s, List.mk_mem_zipIdx_iff_getElem?.1 hs, List.mk_mem_zipIdx_iff_getElem?.1 hg⟩
  · rintro ⟨s, hs, hf⟩
    exact ⟨(s, l.sectionIndex), List.mk_mem_zipIdx_iff_getElem?.2 hs,
      List.mem_map.2 ⟨(f, l.position), List.mk_mem_zipIdx_iff_getElem?.2 hf, rfl⟩⟩

/-- What is made of the fields and their places, but depends on the field and its section alone, is
made section by section. -/
theorem map_located {γ : Type} {g : Field × FieldLocation → γ} {h : Section → Field → γ}
    (hgh : ∀ s f l, t.sections[l.sectionIndex]? = some s → g (f, l) = h s f) :
    t.located.map g = t.sections.flatMap fun s => s.fields.map (h s) := by
  have hsection : ∀ e ∈ t.sections.zipIdx,
      (e.1.fields.zipIdx.map fun p => (p.1, (⟨e.2, p.2⟩ : FieldLocation))).map g =
        e.1.fields.map (h e.1) := by
    intro e he
    have hthere : t.sections[e.2]? = some e.1 := List.mk_mem_zipIdx_iff_getElem?.1 he
    calc (e.1.fields.zipIdx.map fun p => (p.1, (⟨e.2, p.2⟩ : FieldLocation))).map g
        = e.1.fields.zipIdx.map fun p => h e.1 p.1 := by
          rw [List.map_map]
          exact List.map_congr_left fun p _ => hgh e.1 p.1 ⟨e.2, p.2⟩ hthere
      _ = (e.1.fields.zipIdx.map (·.1)).map (h e.1) := (List.map_map ..).symm
      _ = e.1.fields.map (h e.1) := by rw [List.zipIdx_map_fst]
  calc t.located.map g
      = t.sections.zipIdx.flatMap fun e => e.1.fields.map (h e.1) := by
        rw [located, List.map_flatMap, List.flatMap_congr hsection]
    _ = (t.sections.zipIdx.map (·.1)).flatMap fun s => s.fields.map (h s) := by
        rw [List.flatMap_map]
    _ = t.sections.flatMap fun s => s.fields.map (h s) := by rw [List.zipIdx_map_fst]

theorem map_fst_located (t : Template) : t.located.map (·.1) = t.fields := by
  rw [fields, map_located (h := fun _ f => f) fun _ _ _ _ => rfl]
  simp only [List.map_id']

/-- The index is made of the fields with their places, one after the other. -/
theorem index_eq_foldl (t : Template) :
    t.index = t.located.foldl (fun index e => index.insertNew e.1.id e.2) ∅ := by
  rw [located, List.foldl_flatMap]
  simp only [List.foldl_map]
  rfl

/-- The place of an id is that of the first field with the id. -/
theorem location?_eq_find? (t : Template) (id : String) :
    t.location? id = (t.located.find? (·.1.id == id)).map (·.2) := by
  rw [location?, index_eq_foldl, KeyMap.find?_foldl_insertNew, KeyMap.find?_empty, Option.none_or]

/-- The field with an id is the first one that has it. -/
theorem field?_eq_find? (t : Template) (id : String) :
    t.field? id = t.fields.find? (·.id == id) := by
  have hfield : t.field? id = (t.located.find? (·.1.id == id)).map (·.1) := by
    rw [field?, location?_eq_find?]
    cases hfirst : t.located.find? (·.1.id == id) with
    | none => rfl
    | some e => exact mem_located_iff.1 (List.mem_of_find?_eq_some hfirst)
  rw [hfield, ← map_fst_located, List.find?_map]
  rfl

end Filing.Template
