import Filing.Form.Operation
import Filing.Proofs.KeyMaps

/-!
# What an edit leaves alone

An edit addresses one part of form data: the value at a path, one value of a row, the rows of a
table, or the signature. It is either refused, and then nothing at all has changed, or it takes
effect, and then data without the addressed part is what it was before, except that it is a draft.
As maps are lists of entries, sameness takes in the order of paths, tables and rows.

Removing the last row of a table forgets the table, so however the operations follow each other, no
table is ever left without rows.

Main statement: `FormData.isEditedLocally_and_hasNoEmptyTable`.
-/

namespace Filing

namespace KeyMap

variable {β : Type}

/-- The map with the value of a key changed. -/
def mapAt (m : KeyMap β) (k : String) (f : β → β) : KeyMap β where
  entries := m.entries.map fun e => (e.1, if e.1 = k then f e.2 else e.2)
  sorted := List.pairwise_map.2 m.sorted

theorem erase_insert (m : KeyMap β) (k : String) (v : β) : (m.insert k v).erase k = m.erase k := by
  apply ext_find?
  intro k'
  rw [find?_erase, find?_erase, find?_insert]
  split <;> rfl

theorem erase_erase (m : KeyMap β) (k : String) : (m.erase k).erase k = m.erase k := by
  apply ext_find?
  intro k'
  rw [find?_erase, find?_erase]
  split <;> rfl

theorem find?_mapAt (m : KeyMap β) (k k' : String) (f : β → β) :
    (m.mapAt k f).find? k' = (m.find? k').map fun v => if k' = k then f v else v := by
  have hall : ∀ l : List (String × β),
      findValue? k' (l.map fun e => (e.1, if e.1 = k then f e.2 else e.2)) =
        (findValue? k' l).map fun v => if k' = k then f v else v := by
    intro l
    induction l with
    | nil => rfl
    | cons e rest ih =>
      obtain ⟨x, v⟩ := e
      rw [List.map_cons, findValue?, findValue?, ih]
      by_cases hx : k' = x
      · simp [hx]
      · simp [hx]
  exact hall m.entries

/-- A value that was entered and then changed leaves no trace where the change forgets it. -/
theorem mapAt_insert {m : KeyMap β} {k : String} {v w : β} {f : β → β} (hv : m.find? k = some v)
    (hw : f w = f v) : (m.insert k w).mapAt k f = m.mapAt k f := by
  apply ext_find?
  intro k'
  rw [find?_mapAt, find?_mapAt, find?_insert]
  by_cases hk : k' = k
  · simp [hk, hv, hw]
  · simp [hk]

end KeyMap

/-! ## Parts of form data -/

/-- What an edit addresses. -/
inductive Part where
  | value (path : String)
  | cell (table : String) (index : Nat) (path : String)
  | rows (table : String)
  | signature

namespace FormData

/-- The data without one part. -/
def without (d : FormData) : Part → FormData
  | .value path => { d with values := d.values.erase path }
  | .cell table index path =>
    { d with tables := d.tables.mapAt table fun rows => rows.modify index (·.erase path) }
  | .rows table => { d with tables := d.tables.erase table }
  | .signature => { d with signature := none }

/-- An edit of a part: when it is refused nothing has changed, and when it is done, nothing but the
part, and the data is a draft. -/
structure IsEdit (part : Part) (done : Bool) (d edited : FormData) : Prop where
  refused : done = false → edited = d
  elsewhere : done = true → edited.without part = { d.without part with status := .draft }

theorem IsEdit.of_done {part : Part} {d edited : FormData}
    (h : edited.without part = { d.without part with status := .draft }) :
    IsEdit part true d edited where
  refused hdone := absurd hdone (by decide)
  elsewhere _ := h

theorem IsEdit.of_refused (part : Part) (d : FormData) : IsEdit part false d d where
  refused _ := rfl
  elsewhere hdone := absurd hdone (by decide)

/-! ## The edits -/

variable (d : FormData)

theorem isEdit_setValue (path value : String) :
    IsEdit (.value path) true d (d.setValue path value) := by
  apply IsEdit.of_done
  rw [setValue, without, KeyMap.erase_insert]
  rfl

theorem isEdit_removeValue (path : String) :
    IsEdit (.value path) (d.removeValue path).2.isSome d (d.removeValue path).1 := by
  unfold removeValue
  cases d.values.find? path with
  | none => exact .of_refused _ d
  | some value =>
    apply IsEdit.of_done
    rw [without, KeyMap.erase_erase]
    rfl

theorem without_putRows (table : String) (rows : List Row) :
    (d.putRows table rows).without (.rows table) =
      { d.without (.rows table) with status := .draft } := by
  unfold putRows without
  cases rows with
  | nil => simp [KeyMap.erase_erase]
  | cons row rows => simp [KeyMap.erase_insert]

theorem isEdit_pushRow (table : String) (row : Row) :
    IsEdit (.rows table) true d (d.pushRow table row).1 :=
  .of_done (d.without_putRows table _)

theorem isEdit_removeRow (table : String) (index : Nat) :
    IsEdit (.rows table) (d.removeRow table index).2.isSome d (d.removeRow table index).1 := by
  unfold removeRow
  cases (d.rows table)[index]? with
  | none => exact .of_refused _ d
  | some row => exact .of_done (d.without_putRows table _)

theorem find?_tables_of_lt {table : String} {index : Nat} (h : index < (d.rows table).length) :
    d.tables.find? table = some (d.rows table) := by
  unfold rows at h ⊢
  cases hfind : d.tables.find? table with
  | some rows => rfl
  | none =>
    rw [hfind] at h
    exact absurd h (Nat.not_lt_zero index)

theorem isEdit_setRowValue (table : String) (index : Nat) (path value : String) :
    IsEdit (.cell table index path) (d.setRowValue table index path value).2 d
      (d.setRowValue table index path value).1 := by
  unfold setRowValue
  split
  · next hlt =>
    apply IsEdit.of_done
    have hne : (d.rows table).modify index (·.insert path value) ≠ [] := by
      intro hnil
      have hlength := congrArg List.length hnil
      rw [List.length_modify, List.length_nil] at hlength
      omega
    -- without the cell, the row with the new value is the row from before
    have hrow : ((d.rows table).modify index (·.insert path value)).modify index (·.erase path) =
        (d.rows table).modify index (·.erase path) := by
      rw [List.modify_modify_eq]
      congr 1
      funext row
      exact KeyMap.erase_insert row path value
    have htables := KeyMap.mapAt_insert (f := fun rows => rows.modify index (·.erase path))
      (d.find?_tables_of_lt hlt) hrow
    simp only [putRows, without, List.isEmpty_iff, hne, if_false]
    rw [htables]
  · exact .of_refused _ d

theorem isEdit_sign (signature : Signature) : IsEdit .signature true d (d.sign signature) :=
  .of_done rfl

/-! ## Tables without rows -/

/-- Every table has a row. -/
def HasNoEmptyTable (d : FormData) : Prop := ∀ entry ∈ d.tables.entries, entry.2 ≠ []

variable {d}

theorem hasNoEmptyTable_iff :
    d.HasNoEmptyTable ↔ ∀ table, d.tables.find? table ≠ some [] := by
  constructor
  · intro h table hfind
    exact h _ (KeyMap.mem_entries_iff.2 hfind) rfl
  · rintro h ⟨table, rows⟩ hmem rfl
    exact h table (KeyMap.mem_entries_iff.1 hmem)

theorem HasNoEmptyTable.putRows (h : d.HasNoEmptyTable) (table : String) (rows : List Row) :
    (d.putRows table rows).HasNoEmptyTable := by
  rw [hasNoEmptyTable_iff] at h ⊢
  intro other
  unfold FormData.putRows
  cases rows with
  | nil =>
    show (d.tables.erase table).find? other ≠ some []
    rw [KeyMap.find?_erase]
    split
    · exact nofun
    · exact h other
  | cons row rows =>
    show (d.tables.insert table (row :: rows)).find? other ≠ some []
    rw [KeyMap.find?_insert]
    split
    · exact nofun
    · exact h other

end FormData

theorem Operation.hasNoEmptyTable_apply (op : Operation) {d : FormData} (h : d.HasNoEmptyTable) :
    (op.apply d).HasNoEmptyTable := by
  cases op with
  | setValue path value => exact h
  | removeValue path =>
    simp only [apply, FormData.removeValue]
    split
    · exact h
    · exact h
  | pushRow table row => exact h.putRows table _
  | setRowValue table index path value =>
    simp only [apply, FormData.setRowValue]
    split
    · exact h.putRows table _
    · exact h
  | removeRow table index =>
    simp only [apply, FormData.removeRow]
    split
    · exact h.putRows table _
    · exact h
  | sign signature => exact h
  | applyReport report => exact h
  | markExported compliant =>
    simp only [apply, FormData.markExported]
    split
    · exact h
    · exact h

namespace FormData

theorem HasNoEmptyTable.run {d : FormData} (h : d.HasNoEmptyTable) (ops : List Operation) :
    (d.run ops).HasNoEmptyTable := by
  induction ops generalizing d with
  | nil => exact h
  | cons op ops ih => exact ih (op.hasNoEmptyTable_apply h)

/-! ## All operations -/

theorem exists_split_of_removeRow {d : FormData} {table : String} {index : Nat} {row : Row}
    (h : (d.rows table)[index]? = some row) :
    ∃ before after, d.rows table = before ++ row :: after ∧ before.length = index ∧
      (d.removeRow table index).1.rows table = before ++ after := by
  obtain ⟨hlt, hrow⟩ := List.getElem?_eq_some_iff.1 h
  refine ⟨(d.rows table).take index, (d.rows table).drop (index + 1), ?_, ?_, ?_⟩
  · rw [← hrow, ← List.drop_eq_getElem_cons hlt, List.take_append_drop]
  · rw [List.length_take]
    omega
  · rw [rows_removeRow, if_pos rfl, List.eraseIdx_eq_take_drop_succ]

/-- Each edit of the data is refused or done, changes only the part that it addresses, and leaves
there what it is to leave there; reports and exports change the status only. -/
structure IsEditedLocally (d : FormData) : Prop where
  setValue : ∀ path value, IsEdit (.value path) true d (d.setValue path value) ∧
    (d.setValue path value).value? path = some value
  removeValue : ∀ path,
    IsEdit (.value path) (d.removeValue path).2.isSome d (d.removeValue path).1 ∧
    (d.removeValue path).2 = d.value? path ∧ (d.removeValue path).1.value? path = none
  /-- The answer is the number of rows that the table has now. -/
  pushRow : ∀ table row, IsEdit (.rows table) true d (d.pushRow table row).1 ∧
    (d.pushRow table row).1.rows table = d.rows table ++ [row] ∧
    (d.pushRow table row).2 = ((d.pushRow table row).1.rows table).length
  setRowValue : ∀ table index path value,
    IsEdit (.cell table index path) (d.setRowValue table index path value).2 d
      (d.setRowValue table index path value).1 ∧
    ((d.setRowValue table index path value).2 = true ↔ index < (d.rows table).length) ∧
    ((d.setRowValue table index path value).2 = true →
      ∃ row, ((d.setRowValue table index path value).1.rows table)[index]? = some row ∧
        row.find? path = some value)
  /-- The answer is the row that is taken out from between the others. -/
  removeRow : ∀ table index,
    IsEdit (.rows table) (d.removeRow table index).2.isSome d (d.removeRow table index).1 ∧
    (d.removeRow table index).2 = (d.rows table)[index]? ∧
    ∀ row, (d.removeRow table index).2 = some row →
      ∃ before after, d.rows table = before ++ row :: after ∧ before.length = index ∧
        (d.removeRow table index).1.rows table = before ++ after
  sign : ∀ signature, IsEdit .signature true d (d.sign signature) ∧
    (d.sign signature).signature = some signature
  applyReport : ∀ report, { d.applyReport report with status := d.status } = d
  markExported : ∀ compliant,
    ((d.markExported compliant).2 = true ↔ compliant = true ∧ d.status = .validated) ∧
    ((d.markExported compliant).2 = false → (d.markExported compliant).1 = d) ∧
    ((d.markExported compliant).2 = true →
      (d.markExported compliant).1 = { d with status := .exported })

theorem isEditedLocally (d : FormData) : d.IsEditedLocally where
  setValue path value := by
    refine ⟨d.isEdit_setValue path value, ?_⟩
    rw [value?_setValue, if_pos rfl]
  removeValue path := by
    refine ⟨d.isEdit_removeValue path, ?_, ?_⟩
    · unfold FormData.removeValue value?
      cases d.values.find? path <;> rfl
    · rw [value?_removeValue, if_pos rfl]
  pushRow table row := by
    have hrows : (d.pushRow table row).1.rows table = d.rows table ++ [row] := by
      rw [rows_pushRow, if_pos rfl]
    refine ⟨d.isEdit_pushRow table row, hrows, ?_⟩
    rw [hrows]
    rfl
  setRowValue table index path value := by
    have hdone : (d.setRowValue table index path value).2 = true ↔
        index < (d.rows table).length := by
      unfold FormData.setRowValue
      split
      · next h => exact iff_of_true rfl h
      · next h => exact iff_of_false Bool.false_ne_true h
    refine ⟨d.isEdit_setRowValue table index path value, hdone, fun h => ?_⟩
    have hlt := hdone.1 h
    refine ⟨(d.rows table)[index].insert path value, ?_, KeyMap.find?_insert_self _ path value⟩
    rw [rows_setRowValue, if_pos rfl, List.getElem?_modify_eq, List.getElem?_eq_getElem hlt]
    rfl
  removeRow table index := by
    have hanswer : (d.removeRow table index).2 = (d.rows table)[index]? := by
      unfold FormData.removeRow
      cases (d.rows table)[index]? <;> rfl
    refine ⟨d.isEdit_removeRow table index, hanswer, fun row hrow => ?_⟩
    exact exists_split_of_removeRow (hanswer.symm.trans hrow)
  sign signature := ⟨d.isEdit_sign signature, rfl⟩
  applyReport _ := rfl
  markExported compliant := by
    unfold FormData.markExported
    split
    · next h => exact ⟨iff_of_true rfl h, nofun, fun _ => rfl⟩
    · next h => exact ⟨iff_of_false Bool.false_ne_true h, fun _ => rfl, nofun⟩

/-- Edits are atomic and local, whatever the data; and from new data on, no operations ever lead to
a table without rows. -/
theorem isEditedLocally_and_hasNoEmptyTable :
    (∀ d : FormData, d.IsEditedLocally) ∧
      ∀ formCode templateVersion ops, ((new formCode templateVersion).run ops).HasNoEmptyTable := by
  refine ⟨isEditedLocally, fun formCode templateVersion ops => HasNoEmptyTable.run ?_ ops⟩
  intro entry hmem
  exact absurd hmem List.not_mem_nil

end FormData

end Filing
