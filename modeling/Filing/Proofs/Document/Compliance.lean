import Filing.Document.Export
import Filing.Proofs.Document.Assembled

/-!
# What compliance means

The comparison of a document with the plan reports nothing exactly when the document can be read and
everything that was written is found in it: form and version, every static value, the parts of the
signature, and for each table the written rows, in order and none besides, each under its ordinal
and its two numbers. This holds for any document, also one that was not written by the program.
-/

namespace Filing

/-- A row was found as it was written. -/
structure PlacedRow.IsRecovered (placed : PlacedRow) (found : RowRecord) : Prop where
  ordinal : found.ordinal = some placed.ordinal
  templateRow : found.templateRow = some placed.templateRow
  reportRow : found.reportRow = some placed.reportRow
  values : ∀ p ∈ placed.values, found.values.find? p.field.path = some p.value

/-- Everything that was meant to be written was found. -/
structure WritePlan.IsRecovered (t : Template) (plan : WritePlan) (r : Recovered) : Prop where
  formCode : r.formCode = some t.formCode
  templateVersion : r.templateVersion = some t.version
  statics : ∀ path p, plan.statics.find? path = some p → r.values.find? path = some p.value
  signingDate : ∀ date, plan.signingDate = some date → r.signingDate = some date
  signer : ∀ name, plan.signer = some name → r.signer = some name
  tables : ∀ e ∈ plan.tables,
    List.Forall₂ PlacedRow.IsRecovered e.2 ((r.rows.find? e.1).getD [])

/-- What an export reports of a document that cannot be read. -/
def Discrepancy.unreadable (s : Settings) (e : Xml.DocumentError) : Discrepancy :=
  ⟨.missing, none, s.document.root, some s.document.root, some e.message⟩

namespace WritePlan

/-! ## The single comparisons -/

theorem compare_eq_nil_iff {field : Option String} {place written : String}
    {found : Option String} : compare field place written found = [] ↔ found = some written := by
  unfold compare
  cases found with
  | none => simp
  | some v =>
    rw [Option.some.injEq]
    split <;> simp_all

theorem compareSigning_eq_nil_iff {place : String} {written found : Option String} :
    compareSigning place written found = [] ↔ ∀ text, written = some text → found = some text := by
  cases written with
  | none => simp [compareSigning]
  | some text => simp [compareSigning, compare_eq_nil_iff]

theorem compareHeader_eq_nil_iff {t : Template} {r : Recovered} :
    compareHeader t r = [] ↔
      r.formCode = some t.formCode ∧ r.templateVersion = some t.version := by
  simp [compareHeader]

theorem compareRow_eq_nil_iff {table : String} {placed : PlacedRow} {found : RowRecord} :
    compareRow table placed found = [] ↔ placed.IsRecovered found := by
  unfold compareRow
  rw [List.append_eq_nil_iff, List.flatMap_eq_nil_iff]
  simp only [compare_eq_nil_iff]
  constructor
  · rintro ⟨hlocation, hvalues⟩
    split at hlocation
    · next h => exact ⟨h.1, h.2.1, h.2.2, hvalues⟩
    · exact absurd hlocation (List.cons_ne_nil _ _)
  · rintro ⟨hordinal, htemplate, hreport, hvalues⟩
    exact ⟨if_pos ⟨hordinal, htemplate, hreport⟩, hvalues⟩

/-- A table compares without differences when there are as many rows as written and each is found
in its place. -/
theorem compareTable_eq_nil_iff {r : Recovered} {table : String} {placed : List PlacedRow} :
    compareTable r table placed = [] ↔
      List.Forall₂ PlacedRow.IsRecovered placed ((r.rows.find? table).getD []) := by
  unfold compareTable
  rw [List.append_eq_nil_iff, List.flatMap_eq_nil_iff, List.forall₂_iff_zip]
  refine and_congr ?_ ?_
  · constructor
    · intro h
      split at h
      · next hlen => exact hlen.symm
      · exact absurd h (List.cons_ne_nil _ _)
    · intro h
      exact if_pos h.symm
  · constructor
    · intro h p found hmem
      exact compareRow_eq_nil_iff.1 (h (p, found) hmem)
    · rintro h ⟨p, found⟩ hmem
      exact compareRow_eq_nil_iff.2 (h hmem)

theorem compareAll_eq_nil_iff {s : Settings} {t : Template} {plan : WritePlan} {r : Recovered} :
    compareAll s t plan r = [] ↔ plan.IsRecovered t r := by
  unfold compareAll
  simp only [List.append_eq_nil_iff, compareHeader_eq_nil_iff, compareSigning_eq_nil_iff,
    List.flatMap_eq_nil_iff]
  constructor
  · rintro ⟨⟨⟨⟨⟨hform, hversion⟩, hstatics⟩, hdate⟩, hsigner⟩, htables⟩
    refine ⟨hform, hversion, fun path p hp => ?_, hdate, hsigner, fun e he => ?_⟩
    · exact compare_eq_nil_iff.1 (hstatics (path, p) (KeyMap.mem_entries_iff.2 hp))
    · exact compareTable_eq_nil_iff.1 (htables e he)
  · rintro ⟨hform, hversion, hstatics, hdate, hsigner, htables⟩
    refine ⟨⟨⟨⟨⟨hform, hversion⟩, ?_⟩, hdate⟩, hsigner⟩, ?_⟩
    · rintro ⟨path, p⟩ hp
      exact compare_eq_nil_iff.2 (hstatics path p (KeyMap.mem_entries_iff.1 hp))
    · intro e he
      exact compareTable_eq_nil_iff.2 (htables e he)

theorem verify_of_error {s : Settings} {t : Template} {plan : WritePlan} {document : String}
    {e : Xml.DocumentError} (h : Recovered.ofText s t document = .error e) :
    plan.verify s t document = [.unreadable s e] := by
  rw [verify, h]
  rfl

/-- Reading back reports nothing exactly when the document can be read and holds what was meant. -/
theorem verify_eq_nil_iff {s : Settings} {t : Template} {plan : WritePlan} {document : String} :
    plan.verify s t document = [] ↔
      ∃ r, Recovered.ofText s t document = .ok r ∧ plan.IsRecovered t r := by
  cases hread : Recovered.ofText s t document with
  | error e =>
    rw [verify_of_error hread]
    exact iff_of_false (List.cons_ne_nil _ _) (by simp)
  | ok r =>
    rw [verify, hread]
    show compareAll s t plan r = [] ↔ _
    rw [compareAll_eq_nil_iff]
    constructor
    · intro h
      exact ⟨r, rfl, h⟩
    · rintro ⟨r', hr', h⟩
      exact Except.ok.inj hr' ▸ h

end WritePlan

namespace Export

/-- An export is compliant when every path has a place and its document holds what was meant. -/
theorem isCompliant_iff {s : Settings} {t : Template} {d : FormData} :
    (ofFormData s t d).isCompliant = true ↔
      (Assembly.ofFormData s t d).discrepancies = [] ∧
        ∃ r, Recovered.ofText s t (ofFormData s t d).document = .ok r ∧
          (Assembly.ofFormData s t d).plan.IsRecovered t r := by
  rw [isCompliant, List.isEmpty_iff]
  show _ ++ WritePlan.verify _ _ _ _ = [] ↔ _
  rw [List.append_eq_nil_iff, WritePlan.verify_eq_nil_iff]
  rfl

/-- Where the settings are consistent, the document holds what the body holds. -/
theorem isCompliant_iff_of_check {s : Settings} (hs : s.check = true) {t : Template}
    {d : FormData} :
    (ofFormData s t d).isCompliant = true ↔
      (Assembly.ofFormData s t d).discrepancies = [] ∧
        (Assembly.ofFormData s t d).plan.compareAll s t
          (Recovered.ofBody s t (Assembly.ofFormData s t d).body.tidy) = [] := by
  rw [isCompliant_iff]
  refine and_congr_right fun _ => ?_
  show (∃ r, Recovered.ofText s t ((Assembly.ofFormData s t d).root s).document = .ok r ∧ _) ↔ _
  rw [Assembly.ofText_document hs, WritePlan.compareAll_eq_nil_iff]
  constructor
  · rintro ⟨r, hr, h⟩
    exact Except.ok.inj hr ▸ h
  · intro h
    exact ⟨_, rfl, h⟩

theorem isRecovered_of_isCompliant {s : Settings} (hs : s.check = true) {t : Template}
    {d : FormData} (hc : (ofFormData s t d).isCompliant = true) :
    (Assembly.ofFormData s t d).plan.IsRecovered t
      (Recovered.ofBody s t (Assembly.ofFormData s t d).body.tidy) :=
  WritePlan.compareAll_eq_nil_iff.1 ((isCompliant_iff_of_check hs).1 hc).2

/-- The comparison misses nothing and invents nothing, whatever the settings and whatever the
document: it is empty exactly when the document holds everything that was assembled. So an export
that is compliant has a place for every path, and its document holds all of it. -/
theorem compliance_exact (s : Settings) (t : Template) (d : FormData) (document : String) :
    ((Assembly.ofFormData s t d).plan.verify s t document = [] ↔
      ∃ r, Recovered.ofText s t document = .ok r ∧
        (Assembly.ofFormData s t d).plan.IsRecovered t r) ∧
    ((ofFormData s t d).isCompliant = true →
      ((∀ f ∈ t.staticFields, Path.isResolvable f.path = true) ∧
        ∀ e ∈ t.tables, Path.isResolvable e.2.path = true ∧
          ∀ f ∈ e.2.rowTemplate, Path.isResolvable f.path = true) ∧
      ∃ r, Recovered.ofText s t (ofFormData s t d).document = .ok r ∧
        (Assembly.ofFormData s t d).plan.IsRecovered t r) := by
  refine ⟨WritePlan.verify_eq_nil_iff, fun h => ?_⟩
  obtain ⟨hdiscrepancies, hrecovered⟩ := isCompliant_iff.1 h
  exact ⟨(Assembly.discrepancies_ofFormData_eq_nil_iff s t d).1 hdiscrepancies, hrecovered⟩

/-- The rows of a table with a place are found. -/
theorem rows_of_isRecovered {s : Settings} {t : Template} {d : FormData} {r : Recovered}
    (hr : (Assembly.ofFormData s t d).plan.IsRecovered t r) {e : String × Table}
    (he : e ∈ t.tables) (hres : Path.isResolvable e.2.path = true) :
    List.Forall₂ PlacedRow.IsRecovered (Assembly.placedRows d e.2)
      ((r.rows.find? e.2.id).getD []) := by
  apply hr.tables (e.2.id, Assembly.placedRows d e.2)
  rw [Assembly.ofFormData_eq]
  exact List.mem_map.2 ⟨e, List.mem_filter.2 ⟨he, hres⟩, rfl⟩

/-- A form with one static field and one table. -/
def smallForm : Template where
  version := "1"
  formCode := "01/GTGT"
  sections := [
    ⟨"header", .static [{ id := "name", path := "A", control := .text, controlCode := "0" }]⟩,
    ⟨"items", .dynamic {
      maxRows := 0, id := "items", path := "B", offsets := ⟨3, 5⟩
      rowTemplate := [{ id := "item", path := "Q", control := .text, controlCode := "0" }] }⟩]

/-- Signed data for it, with two rows. -/
def smallData : FormData where
  values := KeyMap.ofList [("A", "x")]
  tables := KeyMap.ofList [("items", [KeyMap.ofList [("Q", "<1>")], ∅])]
  signature := some ⟨"An", ⟨2024, 2, 29, by decide⟩⟩

theorem isCompliant_smallData : (ofFormData {} smallForm smallData).isCompliant = true :=
  (isCompliant_iff_of_check (by decide)).2 ⟨by decide, by decide +kernel⟩

theorem compliance_exact_smallData :
    (ofFormData {} smallForm smallData).isCompliant = true ∧
      ∃ r, Recovered.ofText {} smallForm (ofFormData {} smallForm smallData).document = .ok r ∧
        (Assembly.ofFormData {} smallForm smallData).plan.IsRecovered smallForm r :=
  ⟨isCompliant_smallData,
    ((compliance_exact {} smallForm smallData "").2 isCompliant_smallData).2⟩

end Export

end Filing
