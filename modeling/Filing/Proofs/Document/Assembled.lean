import Filing.Document.Assembly
import Filing.Proofs.Earlier
import Filing.Proofs.KeyMaps
import Filing.Proofs.Segments
import Filing.Proofs.Xml.Edits
import Filing.Proofs.Xml.ReadBack
import Filing.Xml.Writer
import Mathlib.Data.List.Induction

/-!
# What is assembled

The assembly goes through fields, tables and signature one after the other. Here its result is
stated at once: the body is the empty one after a list of edits, the plan has an entry for each
path, each table and each part of the signature that has a place, and the remarks and discrepancies
are those of the fields and tables in turn.
-/

namespace Filing

open Xml (Edit Node)

namespace Assembly

/-! ## Fields that are written -/

/-- The fields of a list that are written: those with a place, the first at each path. -/
def firstFields (fields : List Field) : List Field :=
  ((withEarlier fields).filter fun (earlier, f) =>
    Path.isResolvable f.path && !earlier.any (·.path == f.path)).map (·.2)

theorem rowFields_eq (t : Table) : rowFields t = firstFields t.rowTemplate := rfl

theorem firstFields_append_singleton (fields : List Field) (f : Field) :
    firstFields (fields ++ [f]) =
      firstFields fields ++
        if Path.isResolvable f.path && !fields.any (·.path == f.path) then [f] else [] := by
  unfold firstFields
  rw [withEarlier_append_singleton, List.filter_append, List.map_append]
  cases h : Path.isResolvable f.path && !fields.any (·.path == f.path) with
  | true => simp [List.filter, h]
  | false => simp [List.filter, h]

theorem of_find?_path {fields : List Field} {path : String} {f : Field}
    (h : fields.find? (·.path == path) = some f) : f ∈ fields ∧ f.path = path :=
  ⟨List.mem_of_find?_eq_some h, by simpa using List.find?_some h⟩

theorem exists_find?_path {fields : List Field} {f : Field} (hf : f ∈ fields) :
    ∃ first, fields.find? (·.path == f.path) = some first ∧ first.path = f.path := by
  have hsome : (fields.find? (·.path == f.path)).isSome := by
    rw [List.find?_isSome]
    exact ⟨f, hf, by simp⟩
  obtain ⟨first, hfirst⟩ := Option.isSome_iff_exists.1 hsome
  exact ⟨first, hfirst, (of_find?_path hfirst).2⟩

theorem any_path_eq_isSome (fields : List Field) (path : String) :
    fields.any (·.path == path) = (fields.find? (·.path == path)).isSome := by
  rw [Bool.eq_iff_iff, List.any_eq_true, List.find?_isSome]

theorem mem_of_mem_firstFields {fields : List Field} {f : Field} (h : f ∈ firstFields fields) :
    f ∈ fields ∧ Path.isResolvable f.path = true := by
  induction fields using List.reverseRecOn with
  | nil => exact absurd h List.not_mem_nil
  | append_singleton fields g ih =>
    rw [firstFields_append_singleton] at h
    rcases List.mem_append.1 h with h | h
    · exact ⟨List.mem_append_left _ (ih h).1, (ih h).2⟩
    · split at h
      · next hg =>
        obtain rfl := List.mem_singleton.1 h
        exact ⟨by simp, (Bool.and_eq_true_iff.1 hg).1⟩
      · exact absurd h List.not_mem_nil

/-- At each path the first field is written, if the path has a place. -/
theorem find?_firstFields (fields : List Field) (path : String) :
    (firstFields fields).find? (·.path == path) =
      if Path.isResolvable path then fields.find? (·.path == path) else none := by
  induction fields using List.reverseRecOn with
  | nil => simp [firstFields, withEarlier]
  | append_singleton fields f ih =>
    rw [firstFields_append_singleton, List.find?_append, ih]
    by_cases hres : Path.isResolvable path = true
    · rw [if_pos hres, if_pos hres, List.find?_append]
      cases hfind : fields.find? (·.path == path) with
      | some first => rfl
      | none =>
        rw [Option.none_or, Option.none_or]
        by_cases hf : f.path = path
        · subst hf
          rw [any_path_eq_isSome, hfind, hres]
          simp
        · split <;> simp [hf]
    · rw [if_neg hres, if_neg hres, Option.none_or]
      split
      · next hcond =>
        have hf : f.path ≠ path := by
          rintro rfl
          exact hres (Bool.and_eq_true_iff.1 hcond).1
        simp [hf]
      · rfl

/-- The first field at a path with a place is written. -/
theorem mem_firstFields_of_find? {fields : List Field} {path : String} {f : Field}
    (hres : Path.isResolvable path = true) (hf : fields.find? (·.path == path) = some f) :
    f ∈ firstFields fields := by
  apply List.mem_of_find?_eq_some (p := (·.path == path))
  rw [find?_firstFields, if_pos hres, hf]

/-- No two of the fields that are written share a path. -/
theorem nodup_firstFields (fields : List Field) :
    ((firstFields fields).map (·.path)).Nodup := by
  induction fields using List.reverseRecOn with
  | nil => exact List.nodup_nil
  | append_singleton fields f ih =>
    rw [firstFields_append_singleton]
    split
    · next hcond =>
      rw [List.map_append, List.nodup_append]
      refine ⟨ih, by simp, ?_⟩
      intro p hp q hq heq
      obtain ⟨g, hg, rfl⟩ := List.mem_map.1 hp
      obtain rfl : q = f.path := by simpa using hq
      have hmem := (mem_of_mem_firstFields hg).1
      simp only [Bool.and_eq_true, Bool.not_eq_true', List.any_eq_false, beq_iff_eq] at hcond
      exact hcond.2 g hmem heq
    · rwa [List.append_nil]

/-- Each of the fields that are written is the first at its path. -/
theorem find?_path_of_mem_firstFields {fields : List Field} {f : Field}
    (hf : f ∈ firstFields fields) : fields.find? (·.path == f.path) = some f := by
  obtain ⟨hmem, hres⟩ := mem_of_mem_firstFields hf
  obtain ⟨first, hfirst, hpath⟩ := exists_find?_path hmem
  have hwritten := mem_firstFields_of_find? hres hfirst
  rw [hfirst, List.inj_on_of_nodup_map (nodup_firstFields fields) hwritten hf hpath]

/-- Where paths are unique every field is the first at its path. -/
theorem find?_path_of_nodup {fields : List Field} (hpaths : (fields.map (·.path)).Nodup)
    {f : Field} (hf : f ∈ fields) : fields.find? (·.path == f.path) = some f := by
  obtain ⟨first, hfirst, hpath⟩ := exists_find?_path hf
  rw [hfirst, List.inj_on_of_nodup_map hpaths (of_find?_path hfirst).1 hf hpath]

/-! ## Static fields -/

section Statics

variable (d : FormData)

/-- Writing a static field. -/
def staticEdit (f : Field) : Edit :=
  .text (Path.segments f.path) (valueFor f (d.value? f.path))

/-- A field is entered at its path unless one is there already. -/
theorem find?_addStatic (a : Assembly) (f : Field) (path : String) :
    (addStatic d a f).plan.statics.find? path =
      (a.plan.statics.find? path).or
        (if Path.isResolvable path ∧ f.path = path then some ⟨f, valueFor f (d.value? path)⟩
        else none) := by
  unfold addStatic
  split
  · next hres =>
    -- a path without a place: nothing is entered, and it is not the path in question
    rw [Bool.not_eq_true', ← Bool.not_eq_true] at hres
    have hother : ¬ (Path.isResolvable path ∧ f.path = path) := by
      rintro ⟨hplace, rfl⟩
      exact hres hplace
    rw [if_neg hother, Option.or_none]
    rfl
  · next hres =>
    rw [Bool.not_eq_true', Bool.not_eq_false] at hres
    cases hfirst : a.plan.statics.find? f.path with
    | some first =>
      by_cases hf : f.path = path
      · subst hf
        show a.plan.statics.find? f.path = _
        rw [hfirst, Option.some_or]
      · rw [if_neg (fun h => hf h.2), Option.or_none]
        rfl
    | none =>
      show (a.plan.statics.insert f.path _).find? path = _
      rw [KeyMap.find?_insert]
      by_cases hf : f.path = path
      · subst hf
        rw [if_pos rfl, if_pos ⟨hres, rfl⟩, hfirst, Option.none_or]
      · rw [if_neg (Ne.symm hf), if_neg (fun h => hf h.2), Option.or_none]

/-- Each path with a place has an entry for the first field there. -/
theorem find?_foldl_addStatic (fields : List Field) (a : Assembly) (path : String) :
    (fields.foldl (addStatic d) a).plan.statics.find? path =
      (a.plan.statics.find? path).or
        (if Path.isResolvable path then
          (fields.find? (·.path == path)).map fun f => ⟨f, valueFor f (d.value? path)⟩
        else none) := by
  induction fields generalizing a with
  | nil => simp
  | cons f fields ih =>
    rw [List.foldl_cons, ih, find?_addStatic, List.find?_cons, Option.or_assoc]
    congr 1
    by_cases hf : f.path = path
    · have hbeq : (f.path == path) = true := by simpa using hf
      rw [hbeq]
      split
      · next h => rw [if_pos h.1, if_pos h.1, Option.map_some, Option.some_or]
      · next h =>
        have hres : ¬ Path.isResolvable path = true := fun hres => h ⟨hres, hf⟩
        rw [if_neg hres, if_neg hres, Option.none_or]
    · have hbeq : (f.path == path) = false := by simpa using hf
      rw [hbeq, if_neg (fun h => hf h.2), Option.none_or]

/-- The fields that are written are put into the body in turn. -/
theorem body_foldl_addStatic (fields : List Field) {a : Assembly} (ha : a.plan.statics = ∅) :
    (fields.foldl (addStatic d) a).body =
      Edit.applyAll ((firstFields fields).map (staticEdit d)) a.body := by
  induction fields using List.reverseRecOn with
  | nil => rfl
  | append_singleton fields f ih =>
    have hstatics : (fields.foldl (addStatic d) a).plan.statics.find? f.path =
        if Path.isResolvable f.path then
          (fields.find? (·.path == f.path)).map fun g => ⟨g, valueFor g (d.value? f.path)⟩
        else none := by
      rw [find?_foldl_addStatic, ha, KeyMap.find?_empty, Option.none_or]
    rw [List.foldl_append, List.foldl_cons, List.foldl_nil, firstFields_append_singleton,
      List.map_append, Edit.applyAll_append, ← ih]
    generalize fields.foldl (addStatic d) a = b at hstatics
    unfold addStatic
    by_cases hres : Path.isResolvable f.path = true
    · rw [hres, if_neg (by simp), hstatics, if_pos hres]
      cases hfind : fields.find? (·.path == f.path) with
      | some first =>
        rw [any_path_eq_isSome, hfind]
        rfl
      | none =>
        rw [any_path_eq_isSome, hfind]
        rfl
    · rw [Bool.not_eq_true] at hres
      rw [hres]
      rfl

/-- Only the static entries of the plan are filled. -/
theorem plan_foldl_addStatic (fields : List Field) (a : Assembly) :
    (fields.foldl (addStatic d) a).plan =
      { a.plan with statics := (fields.foldl (addStatic d) a).plan.statics } := by
  induction fields generalizing a with
  | nil => rfl
  | cons f fields ih =>
    have hstep : (addStatic d a f).plan =
        { a.plan with statics := (addStatic d a f).plan.statics } := by
      unfold addStatic
      split
      · rfl
      · split <;> rfl
    rw [List.foldl_cons, ih, hstep]

/-- A field whose path has no place. -/
def invalidField (f : Field) : Discrepancy := ⟨.invalidPath, some f.id, f.path, none, none⟩

theorem discrepancies_foldl_addStatic (fields : List Field) (a : Assembly) :
    (fields.foldl (addStatic d) a).discrepancies =
      a.discrepancies ++ (fields.filter (!Path.isResolvable ·.path)).map invalidField := by
  induction fields generalizing a with
  | nil => simp
  | cons f fields ih =>
    rw [List.foldl_cons, ih, List.filter_cons]
    unfold addStatic
    split
    · rw [List.map_cons, ← List.singleton_append, ← List.append_assoc]
      rfl
    · split <;> rfl

end Statics

/-! ## Tables -/

section Tables

variable (s : Settings) (d : FormData)

/-- The rows of a table as they are written. -/
def placedRows (t : Table) : List PlacedRow :=
  (d.rows t.id).mapIdx fun i row => placedRow t (i + 1) row

/-- Writing the rows of a table. -/
def tableEdit (t : Table) : Edit :=
  .append (Path.segments t.path) ((placedRows d t).map (rowNode s))

/-- What cannot be written of a table: the whole of it, or fields of its rows. -/
def tableDiscrepancies (t : Table) : List Discrepancy :=
  if Path.isResolvable t.path then
    (t.rowTemplate.filter (!Path.isResolvable ·.path)).map invalidField
  else [⟨.invalidPath, none, t.path, none, none⟩]

/-- The remarks on the rows of a table. -/
def tableWarnings (t : Table) : List String :=
  if Path.isResolvable t.path then
    ((d.rows t.id).mapIdx fun i row => rowWarnings t (i + 1) row).flatten
  else []

/-- The tables that are written. -/
def placedTables (tables : List (String × Table)) : List (String × Table) :=
  tables.filter fun e => Path.isResolvable e.2.path

theorem foldl_refuse (fields : List Field) (a : Assembly) :
    fields.foldl (fun a f => a.refuse (some f.id) f.path) a =
      { a with discrepancies := a.discrepancies ++ fields.map invalidField } := by
  induction fields generalizing a with
  | nil => simp
  | cons f fields ih =>
    rw [List.foldl_cons, ih]
    simp [refuse, invalidField]

/-- One table: its edit, its entry, what cannot be written of it, and the remarks on its rows. -/
theorem addTable_eq (a : Assembly) (e : String × Table) :
    addTable s d a e.2 = {
      body := Edit.applyAll ((placedTables [e]).map (tableEdit s d ·.2)) a.body
      plan := { a.plan with
        tables := a.plan.tables ++ (placedTables [e]).map fun e => (e.2.id, placedRows d e.2) }
      discrepancies := a.discrepancies ++ tableDiscrepancies e.2
      warnings := a.warnings ++ tableWarnings d e.2 } := by
  obtain ⟨sectionId, t⟩ := e
  cases hres : Path.isResolvable t.path with
  | false => simp [addTable, hres, placedTables, tableDiscrepancies, tableWarnings, refuse,
      Edit.applyAll]
  | true =>
    simp only [addTable, hres, Bool.not_true, Bool.false_eq_true, if_false, foldl_refuse]
    simp only [placedTables, List.filter, hres, tableDiscrepancies, tableWarnings, if_true]
    rfl

/-- All tables in turn. -/
theorem foldl_addTable (tables : List (String × Table)) (a : Assembly) :
    tables.foldl (fun a (_, t) => addTable s d a t) a = {
      body := Edit.applyAll ((placedTables tables).map (tableEdit s d ·.2)) a.body
      plan := { a.plan with
        tables := a.plan.tables ++ (placedTables tables).map fun e => (e.2.id, placedRows d e.2) }
      discrepancies := a.discrepancies ++ tables.flatMap fun e => tableDiscrepancies e.2
      warnings := a.warnings ++ tables.flatMap fun e => tableWarnings d e.2 } := by
  induction tables generalizing a with
  | nil => simp [placedTables, Edit.applyAll]
  | cons e tables ih =>
    have hsplit : placedTables (e :: tables) = placedTables [e] ++ placedTables tables := by
      unfold placedTables
      rw [← List.filter_append]
      rfl
    rw [List.foldl_cons]
    show tables.foldl _ (addTable s d a e.2) = _
    rw [ih, addTable_eq, hsplit]
    simp only [List.map_append, Edit.applyAll_append, List.append_assoc, List.flatMap_cons]

end Tables

/-! ## Signature -/

section Signing

variable (s : Settings) (t : Template)

/-- No field stands at the path, so a part of the signature can. -/
def isUnclaimed (path : String) : Bool := (t.staticFieldAt? path).isNone

/-- A part of the signature, unless a field stands at its path. -/
def signingEdit (path text : String) : List Edit :=
  if isUnclaimed t path then [.text (Path.segments path) text] else []

/-- Writing a signature. -/
def signatureEdits (signature : Signature) : List Edit :=
  signingEdit t s.document.signingDatePath signature.date.dayFirstText ++
    signingEdit t s.document.signerPath signature.signer

/-- The remark on a part of the signature that has no place. -/
def signingWarnings (path : String) : List String :=
  (t.staticFieldAt? path).elim [] fun f =>
    [s!"signing metadata at '{path}' collides with field '{f.id}' and was not written"]

variable {t} in
theorem mem_signingEdit {path text : String} {e : Edit} : e ∈ signingEdit t path text ↔
    isUnclaimed t path = true ∧ e = .text (Path.segments path) text := by
  unfold signingEdit
  split
  · next hfree => simp [hfree]
  · next hclaimed => simp [hclaimed]

variable {s t} in
/-- A part of the signature is written where no field stands. -/
theorem mem_signatureEdits {signature : Signature} {e : Edit} : e ∈ signatureEdits s t signature ↔
    (isUnclaimed t s.document.signingDatePath = true ∧
      e = .text (Path.segments s.document.signingDatePath) signature.date.dayFirstText) ∨
    (isUnclaimed t s.document.signerPath = true ∧
      e = .text (Path.segments s.document.signerPath) signature.signer) := by
  rw [signatureEdits, List.mem_append, mem_signingEdit, mem_signingEdit]

theorem addSigning_eq (path text : String) (record : WritePlan → WritePlan) (a : Assembly) :
    a.addSigning t path text record = { a with
      body := Edit.applyAll (signingEdit t path text) a.body
      plan := if isUnclaimed t path then record a.plan else a.plan
      warnings := a.warnings ++ signingWarnings t path } := by
  unfold addSigning signingEdit signingWarnings isUnclaimed
  cases t.staticFieldAt? path with
  | some f => rfl
  | none =>
    simp only [Option.isNone_none, if_true, Option.elim_none, List.append_nil]
    rfl

/-- Both parts of the signature, the date first. -/
theorem addSignature_eq (a : Assembly) (signature : Signature) :
    addSignature s t a signature = {
      body := Edit.applyAll (signatureEdits s t signature) a.body
      plan := { a.plan with
        signingDate := if isUnclaimed t s.document.signingDatePath then
          some signature.date.dayFirstText else a.plan.signingDate
        signer := if isUnclaimed t s.document.signerPath then some signature.signer
          else a.plan.signer }
      discrepancies := a.discrepancies
      warnings := a.warnings ++ (signingWarnings t s.document.signingDatePath ++
        signingWarnings t s.document.signerPath) } := by
  simp only [addSignature, addSigning_eq, signatureEdits, Edit.applyAll_append,
    List.append_assoc]
  split <;> split <;> rfl

end Signing

/-! ## The whole -/

section Whole

variable (s : Settings) (t : Template) (d : FormData)

/-- All edits of the body. -/
def edits : List Edit :=
  (firstFields t.staticFields).map (staticEdit d) ++
    (placedTables t.tables).map (tableEdit s d ·.2) ++
    d.signature.elim [] (signatureEdits s t)

variable {s t d} in
/-- An edit puts the text of a field or of the signature, or appends the rows of a table. -/
theorem mem_edits {e : Edit} : e ∈ edits s t d ↔
    (∃ f ∈ firstFields t.staticFields, e = staticEdit d f) ∨
    (∃ entry ∈ placedTables t.tables, e = tableEdit s d entry.2) ∨
    ∃ signature, d.signature = some signature ∧ e ∈ signatureEdits s t signature := by
  rw [edits, List.mem_append, List.mem_append, List.mem_map, List.mem_map, or_assoc]
  refine or_congr (by simp only [eq_comm]) (or_congr (by simp only [eq_comm]) ?_)
  cases d.signature with
  | none => simp
  | some signature => simp

/-- The static fields and the tables, before the signature. -/
theorem foldl_addTable_foldl_addStatic :
    t.tables.foldl (fun a (_, table) => addTable s d a table)
      (t.staticFields.foldl (addStatic d) (start s t d)) = {
        body := Edit.applyAll ((firstFields t.staticFields).map (staticEdit d) ++
          (placedTables t.tables).map (tableEdit s d ·.2)) (start s t d).body
        plan := {
          statics := (t.staticFields.foldl (addStatic d) (start s t d)).plan.statics
          tables := (placedTables t.tables).map fun e => (e.2.id, placedRows d e.2) }
        discrepancies := (t.staticFields.filter (!Path.isResolvable ·.path)).map invalidField ++
          t.tables.flatMap fun e => tableDiscrepancies e.2
        warnings := (t.staticFields.foldl (addStatic d) (start s t d)).warnings ++
          t.tables.flatMap fun e => tableWarnings d e.2 } := by
  rw [foldl_addTable, plan_foldl_addStatic, discrepancies_foldl_addStatic,
    body_foldl_addStatic d t.staticFields rfl, Edit.applyAll_append]
  rfl

/-- All that is assembled. -/
theorem ofFormData_eq : ofFormData s t d = {
    body := Edit.applyAll (edits s t d) (start s t d).body
    plan := {
      statics := (t.staticFields.foldl (addStatic d) (start s t d)).plan.statics
      tables := (placedTables t.tables).map fun e => (e.2.id, placedRows d e.2)
      signingDate := if isUnclaimed t s.document.signingDatePath then
        d.signature.map (·.date.dayFirstText) else none
      signer := if isUnclaimed t s.document.signerPath then d.signature.map (·.signer) else none }
    discrepancies := (t.staticFields.filter (!Path.isResolvable ·.path)).map invalidField ++
      t.tables.flatMap fun e => tableDiscrepancies e.2
    warnings := (t.staticFields.foldl (addStatic d) (start s t d)).warnings ++
      (t.tables.flatMap fun e => tableWarnings d e.2) ++
      (d.signature.elim [] fun _ => signingWarnings t s.document.signingDatePath ++
        signingWarnings t s.document.signerPath) ++
      unknownWarnings t d } := by
  simp only [ofFormData, foldl_addTable_foldl_addStatic]
  unfold edits
  cases d.signature with
  | none => simp only [Option.elim_none, List.append_nil, Option.map_none, ite_self]
  | some signature =>
    simp only [Option.elim_some, addSignature_eq, Option.map_some, ← Edit.applyAll_append]

/-- Each path with a place has an entry for the first static field there. -/
theorem find?_statics_ofFormData (path : String) :
    (ofFormData s t d).plan.statics.find? path =
      if Path.isResolvable path then
        (t.staticFieldAt? path).map fun f => ⟨f, valueFor f (d.value? path)⟩
      else none := by
  rw [ofFormData_eq, find?_foldl_addStatic]
  rfl

theorem body_ofFormData :
    (ofFormData s t d).body = Edit.applyAll (edits s t d) (start s t d).body := by
  rw [ofFormData_eq]

/-- Nothing is recorded exactly when every path has a place. -/
theorem discrepancies_ofFormData_eq_nil_iff : (ofFormData s t d).discrepancies = [] ↔
    (∀ f ∈ t.staticFields, Path.isResolvable f.path = true) ∧
      ∀ e ∈ t.tables, Path.isResolvable e.2.path = true ∧
        ∀ f ∈ e.2.rowTemplate, Path.isResolvable f.path = true := by
  rw [ofFormData_eq, List.append_eq_nil_iff, List.map_eq_nil_iff, List.filter_eq_nil_iff,
    List.flatMap_eq_nil_iff]
  refine and_congr (forall₂_congr fun f _ => by simp) (forall₂_congr fun e _ => ?_)
  unfold tableDiscrepancies
  split
  · next hres =>
    rw [List.map_eq_nil_iff, List.filter_eq_nil_iff]
    simp [hres]
  · next hres => simp [hres]

end Whole

/-! ## Rows -/

/-- The edits that fill a row. -/
def rowEdits (r : PlacedRow) : List Edit :=
  r.values.map fun p => .text (Path.segments p.field.path) p.value

/-- The element of a row before it is filled. -/
def emptyRow (s : Settings) (r : PlacedRow) : Node where
  name := s.document.rowElement
  attrs := [("id", s!"{Recovered.rowIdStart}{r.ordinal}"),
    ("templateRow", toString r.templateRow), ("reportRow", toString r.reportRow)]

theorem rowNode_eq (s : Settings) (r : PlacedRow) :
    rowNode s r = Edit.applyAll (rowEdits r) (emptyRow s r) := by
  unfold rowNode rowEdits Edit.applyAll
  rw [List.foldl_map]
  rfl

theorem name_rowNode (s : Settings) (r : PlacedRow) :
    (rowNode s r).name = s.document.rowElement := by
  rw [rowNode_eq, Edit.name_applyAll]
  rfl

theorem attrs_rowNode (s : Settings) (r : PlacedRow) :
    (rowNode s r).attrs = (emptyRow s r).attrs := by
  rw [rowNode_eq, Edit.attrs_applyAll]

/-- At each path with a place the first field of the row template is written. -/
theorem mem_values_placedRow {t : Table} {ordinal : Nat} {row : Row} {path : String} {f : Field}
    (hres : Path.isResolvable path = true)
    (hf : t.rowTemplate.find? (·.path == path) = some f) :
    ⟨f, valueFor f (row.find? path)⟩ ∈ (placedRow t ordinal row).values := by
  have hfirst : f ∈ rowFields t := by
    rw [rowFields_eq]
    exact mem_firstFields_of_find? hres hf
  obtain rfl := (of_find?_path hf).2
  exact List.mem_map.2 ⟨f, hfirst, rfl⟩

/-- Every path of the row template leads somewhere in a row. -/
theorem isSome_follow?_rowNode (s : Settings) {t : Table} {ordinal : Nat} {row : Row} {f : Field}
    (hres : Path.isResolvable f.path = true) (hf : f ∈ t.rowTemplate) :
    (Node.follow? (Path.segments f.path) (rowNode s (placedRow t ordinal row))).isSome := by
  obtain ⟨first, hfirst, hpath⟩ := exists_find?_path hf
  have hbegins : Path.segments f.path <+: Path.segments first.path :=
    hpath ▸ List.prefix_refl _
  rw [rowNode_eq]
  exact Edit.isSome_follow?_of_mem (List.mem_map_of_mem (mem_values_placedRow hres hfirst))
    hbegins _

/-- The row with an ordinal is made of the submitted row there. -/
theorem getElem?_placedRows (d : FormData) (t : Table) (i : Nat) :
    (placedRows d t)[i]? = (d.rows t.id)[i]?.map fun row => placedRow t (i + 1) row :=
  List.getElem?_mapIdx

theorem length_placedRows (d : FormData) (t : Table) :
    (placedRows d t).length = (d.rows t.id).length :=
  List.length_mapIdx

theorem exists_placedRow_of_mem {d : FormData} {t : Table} {r : PlacedRow}
    (h : r ∈ placedRows d t) :
    ∃ i row, (d.rows t.id)[i]? = some row ∧ r = placedRow t (i + 1) row := by
  obtain ⟨i, hi⟩ := List.getElem?_of_mem h
  rw [getElem?_placedRows, Option.map_eq_some_iff] at hi
  obtain ⟨row, hrow, rfl⟩ := hi
  exact ⟨i, row, hrow, rfl⟩

end Assembly

/-! ## The document -/

/-- What the check of settings demands. -/
theorem Settings.of_check {s : Settings} (h : s.check = true) :
    (∀ e ∈ s.names, Path.isElementName e.2 = true) ∧
      (∀ e ∈ s.paths, Path.isResolvable e.2 = true) ∧
      s.document.signingDatePath ≠ s.document.signerPath := by
  unfold check inconsistency? at h
  split at h
  · exact absurd h (by simp)
  · next hnames =>
    split at h
    · exact absurd h (by simp)
    · next hpaths =>
      split at h
      · exact absurd h (by simp)
      · next hne =>
        rw [List.find?_eq_none] at hnames hpaths
        exact ⟨fun e he => by simpa using hnames e he, fun e he => by simpa using hpaths e he, hne⟩

namespace Assembly

section Document

variable {s : Settings} (hs : s.check = true) (t : Template) (d : FormData)

include hs

theorem isWritable_rowNode {table : Table} {r : PlacedRow} (hr : r ∈ placedRows d table) :
    (rowNode s r).IsWritable := by
  have hrow : Path.isElementName s.document.rowElement = true :=
    (Settings.of_check hs).1 ("document.row_element", _) (by simp [Settings.names])
  obtain ⟨i, row, -, rfl⟩ := exists_placedRow_of_mem hr
  rw [rowNode_eq]
  have hkeys : ∀ key ∈ ["id", "templateRow", "reportRow"], Path.isElementName key = true := by
    decide
  have hempty : (emptyRow s (placedRow table (i + 1) row)).IsWritable :=
    .mk hrow (fun a ha => hkeys a.1 (List.mem_map_of_mem (f := (·.1)) ha))
      (by decide : ["id", "templateRow", "reportRow"].Nodup) (by simp)
  refine Edit.isWritable_applyAll (fun e he => ?_) hempty
  obtain ⟨p, hp, rfl⟩ := List.mem_map.1 he
  obtain ⟨f, hf, rfl⟩ := List.mem_map.1 hp
  exact ⟨fun name => Path.isElementName_of_mem_segments (mem_of_mem_firstFields hf).2,
    fun node hnode => absurd hnode List.not_mem_nil⟩

/-- Every edit of the body goes along element names and appends what can be written. -/
theorem isWritable_edits {e : Edit} (he : e ∈ edits s t d) : e.IsWritable := by
  have htext : ∀ path content, Path.isResolvable path = true →
      (Edit.text (Path.segments path) content).IsWritable := fun path content hres =>
    ⟨fun _ => Path.isElementName_of_mem_segments hres,
      fun _ hnode => absurd hnode List.not_mem_nil⟩
  have hsigning := (Settings.of_check hs).2.1
  rcases mem_edits.1 he with ⟨f, hf, rfl⟩ | ⟨entry, hentry, rfl⟩ | ⟨signature, -, he⟩
  · exact htext _ _ (mem_of_mem_firstFields hf).2
  · have hres := (List.mem_filter.1 hentry).2
    refine ⟨fun name => Path.isElementName_of_mem_segments hres, fun node hnode => ?_⟩
    obtain ⟨r, hr, rfl⟩ := List.mem_map.1 hnode
    exact isWritable_rowNode hs d hr
  · rcases mem_signatureEdits.1 he with ⟨-, rfl⟩ | ⟨-, rfl⟩
    · exact htext _ _ (hsigning ("document.signing_date_path", _) (by simp [Settings.paths]))
    · exact htext _ _ (hsigning ("document.signer_path", _) (by simp [Settings.paths]))

theorem isWritable_root : ((ofFormData s t d).root s).IsWritable := by
  have hnames := (Settings.of_check hs).1
  have hroot : Path.isElementName s.document.root = true :=
    hnames ("document.root", _) (by simp [Settings.names])
  have hbody : Path.isElementName s.document.body = true :=
    hnames ("document.body", _) (by simp [Settings.names])
  have hkeys : ∀ key ∈ ["formCode", "templateVersion"], Path.isElementName key = true := by
    decide
  have hstart : (start s t d).body.IsWritable :=
    .mk hbody (fun a ha => hkeys a.1 (List.mem_map_of_mem (f := (·.1)) ha))
      (by decide : ["formCode", "templateVersion"].Nodup) (by simp)
  refine .mk hroot (by simp) (by simp) fun child hchild => ?_
  obtain rfl := List.mem_singleton.1 hchild
  rw [body_ofFormData]
  exact Edit.isWritable_applyAll (fun e he => isWritable_edits hs t d he) hstart

/-- Reading the document gives what its body holds. -/
theorem ofText_document :
    Recovered.ofText s t ((ofFormData s t d).root s).document =
      .ok (Recovered.ofBody s t (ofFormData s t d).body.tidy) := by
  have hread := Xml.read_document (isWritable_root hs t d)
  have hname : (ofFormData s t d).body.name = s.document.body := by
    rw [body_ofFormData, Edit.name_applyAll]
    rfl
  have hchild : ((ofFormData s t d).root s).tidy.child? s.document.body =
      some (ofFormData s t d).body.tidy := by
    rw [Node.child?_tidy]
    simp [root, Node.child?, hname]
  have hroot : Xml.readRoot s.document.root ((ofFormData s t d).root s).document =
      .ok ((ofFormData s t d).root s).tidy := by
    unfold Xml.readRoot
    rw [hread]
    exact if_pos (Node.name_tidy _)
  simp only [Recovered.ofText, hroot, hchild]

end Document

end Assembly

end Filing
