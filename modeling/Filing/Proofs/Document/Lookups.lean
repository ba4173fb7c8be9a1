import Filing.Document.Recovered
import Filing.Proofs.KeyMaps
import Mathlib.Data.List.Nodup

/-!
# What a reader looks up

A declaration is read field by field and table by table. Here each answer is given for one path or
one table: a value is the text at its path, the rows of a table are the children of the element at
its path, and the data made of a declaration has the values and the rows that were read.
-/

namespace Filing.Recovered

open Xml (Node)

/-- All entries that are made for a path hold the text that is found there. -/
theorem mem_textEntries {node : Node} {fields : List Field} {path text : String} :
    (path, text) ∈ (fields.filterMap fun f =>
      (node.find? f.path).map fun n => (f.path, n.text)) ↔
    ∃ f ∈ fields, f.path = path ∧ (node.find? path).map (·.text) = some text := by
  rw [List.mem_filterMap]
  refine exists_congr fun f => and_congr_right fun _ => ?_
  rw [Option.map_eq_some_iff, Option.map_eq_some_iff]
  constructor
  · rintro ⟨n, hn, heq⟩
    obtain ⟨rfl, rfl⟩ := Prod.mk.inj heq
    exact ⟨rfl, n, hn, rfl⟩
  · rintro ⟨rfl, n, hn, rfl⟩
    exact ⟨n, hn, rfl⟩

/-- The text at the path of a field is read, and nothing at other paths. -/
theorem find?_texts (node : Node) (fields : List Field) (path : String) :
    (texts node fields).find? path =
      if ∃ f ∈ fields, f.path = path then (node.find? path).map (·.text) else none := by
  split
  · next hfield =>
    obtain ⟨f, hf, hpath⟩ := hfield
    cases hread : (node.find? path).map (·.text) with
    | some text =>
      have hentry := mem_textEntries.2 ⟨f, hf, hpath, hread⟩
      refine KeyMap.find?_ofList_eq_some hentry fun w hw => ?_
      obtain ⟨-, -, -, hw⟩ := mem_textEntries.1 hw
      exact Option.some.inj (hw.symm.trans hread)
    | none =>
      refine KeyMap.find?_ofList_eq_none fun w hw => ?_
      obtain ⟨-, -, -, hw⟩ := mem_textEntries.1 hw
      rw [hread] at hw
      exact absurd hw (by simp)
  · next hfield =>
    refine KeyMap.find?_ofList_eq_none fun w hw => hfield ?_
    obtain ⟨f, hf, hpath, -⟩ := mem_textEntries.1 hw
    exact ⟨f, hf, hpath⟩

theorem find?_texts_eq_none (node : Node) {fields : List Field} {path : String}
    (h : fields.find? (·.path == path) = none) : (texts node fields).find? path = none := by
  rw [find?_texts, if_neg]
  rintro ⟨f, hf, hpath⟩
  exact List.find?_eq_none.1 h f hf (by simpa using hpath)

/-! ## Tables -/

variable {s : Settings} {t : Template} {body : Node}

/-- Rows are read for tables of the template only. -/
theorem exists_table_of_find?_tableRows {id : String} {rows : List RowRecord}
    (h : (tableRows s t body).find? id = some rows) : ∃ e ∈ t.tables, e.2.id = id := by
  obtain ⟨e, he, hrows⟩ := List.mem_filterMap.1 (KeyMap.mem_of_find?_ofList h)
  obtain ⟨container, -, heq⟩ := Option.map_eq_some_iff.1 hrows
  exact ⟨e, he, (Prod.mk.inj heq).1⟩

theorem exists_table_of_ofText {source : String} {r : Recovered} (h : ofText s t source = .ok r)
    {id : String} {rows : List RowRecord} (hrows : r.rows.find? id = some rows) :
    ∃ e ∈ t.tables, e.2.id = id := by
  unfold ofText at h
  split at h
  · exact absurd h (by simp)
  · split at h
    · obtain rfl := Except.ok.inj h
      exact exists_table_of_find?_tableRows hrows
    · exact absurd h (by simp)

/-- Rows are read for every table whose path leads somewhere. -/
theorem isSome_find?_tableRows {e : String × Table} (he : e ∈ t.tables)
    (hfound : (body.find? e.2.path).isSome) : ((tableRows s t body).find? e.2.id).isSome := by
  obtain ⟨container, hcontainer⟩ := Option.isSome_iff_exists.1 hfound
  have hentry : (e.2.id, (container.childrenNamed s.document.rowElement).map
      (row e.2.rowTemplate)) ∈ t.tables.filterMap fun e' =>
        (body.find? e'.2.path).map fun container =>
          (e'.2.id, (container.childrenNamed s.document.rowElement).map
            (row e'.2.rowTemplate)) := by
    rw [List.mem_filterMap]
    exact ⟨e, he, by rw [hcontainer]; rfl⟩
  exact KeyMap.isSome_find?_ofList hentry

/-- Where the tables have different ids, each is read at its own path. -/
theorem find?_tableRows (hids : (t.tables.map (·.2.id)).Nodup) {e : String × Table}
    (he : e ∈ t.tables) :
    (tableRows s t body).find? e.2.id = (body.find? e.2.path).map fun container =>
      (container.childrenNamed s.document.rowElement).map (row e.2.rowTemplate) := by
  have hmem : ∀ rows, (e.2.id, rows) ∈ (t.tables.filterMap fun e' =>
      (body.find? e'.2.path).map fun container =>
        (e'.2.id, (container.childrenNamed s.document.rowElement).map (row e'.2.rowTemplate))) ↔
      (body.find? e.2.path).map (fun container =>
        (container.childrenNamed s.document.rowElement).map (row e.2.rowTemplate)) =
          some rows := by
    intro rows
    rw [List.mem_filterMap, Option.map_eq_some_iff]
    constructor
    · rintro ⟨e', he', hrows⟩
      obtain ⟨container, hcontainer, heq⟩ := Option.map_eq_some_iff.1 hrows
      obtain ⟨hid, rfl⟩ := Prod.mk.inj heq
      obtain rfl := List.inj_on_of_nodup_map hids he' he hid
      exact ⟨container, hcontainer, rfl⟩
    · rintro ⟨container, hcontainer, rfl⟩
      exact ⟨e, he, Option.map_eq_some_iff.2 ⟨container, hcontainer, rfl⟩⟩
  cases hread : (body.find? e.2.path).map fun container =>
      (container.childrenNamed s.document.rowElement).map (row e.2.rowTemplate) with
  | some rows =>
    refine KeyMap.find?_ofList_eq_some ((hmem rows).2 hread) fun w hw => ?_
    exact Option.some.inj (((hmem _).1 hw).symm.trans hread)
  | none =>
    refine KeyMap.find?_ofList_eq_none fun w hw => ?_
    rw [(hmem _).1 hw] at hread
    exact absurd hread (by simp)

/-! ## The data of a declaration -/

/-- Tables without records are left out. -/
theorem mem_rowEntries {r : Recovered} {id : String} {rows : List Row} :
    (id, rows) ∈ (r.rows.entries.filterMap fun entry =>
      if entry.2.isEmpty then none else some (entry.1, entry.2.map (·.values))) ↔
    ∃ found, r.rows.find? id = some found ∧ found ≠ [] ∧ found.map (·.values) = rows := by
  rw [List.mem_filterMap]
  constructor
  · rintro ⟨⟨id', found⟩, hfound, heq⟩
    by_cases hnil : found = []
    · simp [hnil] at heq
    · simp only [List.isEmpty_iff, hnil, if_false, Option.some.injEq, Prod.mk.injEq] at heq
      obtain ⟨rfl, rfl⟩ := heq
      exact ⟨found, KeyMap.mem_entries_iff.1 hfound, hnil, rfl⟩
  · rintro ⟨found, hfound, hnil, rfl⟩
    exact ⟨(id, found), KeyMap.mem_entries_iff.2 hfound, by simp [hnil]⟩

/-- The data has the rows that were read. -/
theorem rows_formData (t : Template) (r : Recovered) (id : String) :
    (r.formData t).rows id = ((r.rows.find? id).getD []).map (·.values) := by
  show ((KeyMap.ofList _).find? id).getD [] = _
  cases hfind : r.rows.find? id with
  | none =>
    rw [KeyMap.find?_ofList_eq_none]
    · rfl
    · intro w hw
      obtain ⟨found, hfound, -⟩ := mem_rowEntries.1 hw
      rw [hfind] at hfound
      exact absurd hfound (by simp)
  | some found =>
    by_cases hnil : found = []
    · rw [KeyMap.find?_ofList_eq_none, hnil]
      · rfl
      · intro w hw
        obtain ⟨found', hfound', hne, -⟩ := mem_rowEntries.1 hw
        rw [hfind, Option.some.injEq] at hfound'
        exact hne (hfound' ▸ hnil)
    · rw [KeyMap.find?_ofList_eq_some (mem_rowEntries.2 ⟨found, hfind, hnil, rfl⟩)]
      · rfl
      · intro w hw
        obtain ⟨found', hfound', -, rfl⟩ := mem_rowEntries.1 hw
        rw [hfind, Option.some.injEq] at hfound'
        rw [hfound']

end Filing.Recovered
