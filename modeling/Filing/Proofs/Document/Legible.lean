import Filing.Proofs.Document.Compliance
import Filing.Proofs.Document.Lookups

/-!
# What is exported can be read

With consistent settings the document of any export can be read, whatever is wrong with the
template and whatever the data holds: only paths with a place become elements, and an edit takes
away nothing that another has made. So each static field and each table that has a place is found,
even where several share a path or one leads through another.
-/

namespace Filing

open Xml (Edit Node)

/-- A difference between a document and the plan: it never says that a path has no place, and what
is missing has no text. -/
def Discrepancy.IsDifference (x : Discrepancy) : Prop :=
  x.kind ≠ .invalidPath ∧ (x.kind = .missing → x.found = none)

namespace WritePlan

/-! ## What a comparison reports -/

theorem isDifference_of_compare {field found : Option String} {place written : String} :
    ∀ x ∈ compare field place written found, x.IsDifference := by
  intro x hx
  unfold compare at hx
  cases found with
  | none =>
    rw [List.mem_singleton.1 hx]
    exact ⟨by simp, fun _ => rfl⟩
  | some v =>
    dsimp only at hx
    split at hx
    · exact absurd hx List.not_mem_nil
    · rw [List.mem_singleton.1 hx]
      exact ⟨by simp, by simp⟩

theorem isDifference_of_compareSigning {place : String} {written found : Option String} :
    ∀ x ∈ compareSigning place written found, x.IsDifference := by
  cases written with
  | none => exact fun x hx => absurd hx List.not_mem_nil
  | some text => exact isDifference_of_compare

theorem isDifference_of_compareHeader {t : Template} {r : Recovered} :
    ∀ x ∈ compareHeader t r, x.IsDifference := by
  intro x hx
  obtain ⟨⟨name, expected, found⟩, -, hx⟩ := List.mem_flatMap.1 hx
  dsimp only at hx
  split at hx
  · exact absurd hx List.not_mem_nil
  · rw [List.mem_singleton.1 hx]
    exact ⟨by simp, by simp⟩

theorem isDifference_of_compareRow {table : String} {placed : PlacedRow} {found : RowRecord} :
    ∀ x ∈ compareRow table placed found, x.IsDifference := by
  intro x hx
  rcases List.mem_append.1 hx with hx | hx
  · split at hx
    · exact absurd hx List.not_mem_nil
    · rw [List.mem_singleton.1 hx]
      exact ⟨by simp, by simp⟩
  · obtain ⟨p, -, hx⟩ := List.mem_flatMap.1 hx
    exact isDifference_of_compare x hx

theorem isDifference_of_compareTable {r : Recovered} {table : String} {placed : List PlacedRow} :
    ∀ x ∈ compareTable r table placed, x.IsDifference := by
  intro x hx
  unfold compareTable at hx
  rcases List.mem_append.1 hx with hx | hx
  · split at hx
    · exact absurd hx List.not_mem_nil
    · rw [List.mem_singleton.1 hx]
      exact ⟨by simp, by simp⟩
  · obtain ⟨⟨p, f⟩, -, hx⟩ := List.mem_flatMap.1 hx
    exact isDifference_of_compareRow x hx

/-- All that is reported of a document that was read are differences. -/
theorem isDifference_of_compareAll {s : Settings} {t : Template} {plan : WritePlan}
    {r : Recovered} : ∀ x ∈ compareAll s t plan r, x.IsDifference := by
  intro x hx
  simp only [compareAll, List.mem_append, List.mem_flatMap] at hx
  rcases hx with (((hx | ⟨_, -, hx⟩) | hx) | hx) | ⟨_, -, hx⟩
  · exact isDifference_of_compareHeader x hx
  · exact isDifference_of_compare x hx
  · exact isDifference_of_compareSigning x hx
  · exact isDifference_of_compareSigning x hx
  · exact isDifference_of_compareTable x hx

end WritePlan

namespace Assembly

variable {s : Settings} {t : Template} {d : FormData}

/-! ## What is found in the body -/

theorem isSome_find?_of_mem_edits {e : Edit} (he : e ∈ edits s t d) {path : String}
    (hpath : e.path = Path.segments path) :
    ((ofFormData s t d).body.tidy.find? path).isSome := by
  rw [Node.find?, Node.follow?_tidy, Option.isSome_map, body_ofFormData, ← hpath]
  exact Edit.isSome_follow?_of_mem he (List.prefix_refl _) _

/-- Every static field with a place has a value in the body. -/
theorem isSome_values_body {f : Field} (hf : f ∈ t.staticFields)
    (hres : Path.isResolvable f.path = true) :
    ((Recovered.ofBody s t (ofFormData s t d).body.tidy).values.find? f.path).isSome := by
  obtain ⟨first, hfirst, hpath⟩ := exists_find?_path hf
  have hedit : staticEdit d first ∈ edits s t d :=
    mem_edits.2 (.inl ⟨first, mem_firstFields_of_find? hres hfirst, rfl⟩)
  have hfound := isSome_find?_of_mem_edits hedit (congrArg Path.segments hpath)
  show ((Recovered.texts _ t.staticFields).find? f.path).isSome
  rw [Recovered.find?_texts, if_pos ⟨f, hf, rfl⟩, Option.isSome_map]
  exact hfound

/-- Every table with a place has records in the body, if only none of them. -/
theorem isSome_rows_body {e : String × Table} (he : e ∈ t.tables)
    (hres : Path.isResolvable e.2.path = true) :
    ((Recovered.ofBody s t (ofFormData s t d).body.tidy).rows.find? e.2.id).isSome := by
  have hedit : tableEdit s d e.2 ∈ edits s t d :=
    mem_edits.2 (.inr (.inl ⟨e, List.mem_filter.2 ⟨he, hres⟩, rfl⟩))
  exact Recovered.isSome_find?_tableRows he (isSome_find?_of_mem_edits hedit rfl)

theorem kind_of_mem_discrepancies : ∀ x ∈ (ofFormData s t d).discrepancies,
    x.kind = .invalidPath := by
  intro x hx
  rw [ofFormData_eq] at hx
  rcases List.mem_append.1 hx with hx | hx
  · obtain ⟨f, -, rfl⟩ := List.mem_map.1 hx
    rfl
  · obtain ⟨e, -, hx⟩ := List.mem_flatMap.1 hx
    unfold tableDiscrepancies at hx
    split at hx
    · obtain ⟨f, -, rfl⟩ := List.mem_map.1 hx
      rfl
    · rw [List.mem_singleton.1 hx]

end Assembly

namespace Export

/-- With consistent settings every export can be read, whatever the template and the data, so no
export reports its document as unreadable. What is read has a value for each static field and
records for each table that has a place. -/
theorem exists_recovered_of_check (s : Settings) (t : Template) (d : FormData)
    (hs : s.check = true) :
    (∃ r, Recovered.ofText s t (ofFormData s t d).document = .ok r ∧
      (∀ f ∈ t.staticFields, Path.isResolvable f.path = true → (r.values.find? f.path).isSome) ∧
      ∀ e ∈ t.tables, Path.isResolvable e.2.path = true → (r.rows.find? e.2.id).isSome) ∧
    ∀ e, Discrepancy.unreadable s e ∉ (ofFormData s t d).discrepancies := by
  have hread : Recovered.ofText s t (ofFormData s t d).document =
      .ok (Recovered.ofBody s t (Assembly.ofFormData s t d).body.tidy) :=
    Assembly.ofText_document hs t d
  constructor
  · refine ⟨_, hread, fun f hf hres => ?_, fun e he hres => ?_⟩
    · exact Assembly.isSome_values_body hf hres
    · exact Assembly.isSome_rows_body he hres
  · intro e he
    rcases List.mem_append.1 he with he | he
    · exact absurd (Assembly.kind_of_mem_discrepancies _ he) (by simp [Discrepancy.unreadable])
    · -- the document was read, so its discrepancies are those of the comparison
      change _ ∈ WritePlan.verify s t _ (ofFormData s t d).document at he
      rw [WritePlan.verify, hread] at he
      have hfound := (WritePlan.isDifference_of_compareAll _ he).2 rfl
      exact absurd hfound (by simp [Discrepancy.unreadable])

/-- A form whose paths are in each other's way: two fields share one, one lies below another, two lead
nowhere, and of two tables with one id the first stands at the path of a field. -/
def tangledForm : Template where
  version := "1.\x01"
  formCode := "<]]>&\"'"
  sections := [
    ⟨"header", .static [
      { id := "a", path := "A", control := .text, controlCode := "0" },
      { id := "b", path := "A/B", control := .text, controlCode := "0" },
      { id := "a", path := "A", control := .text, controlCode := "0", default := some "y" },
      { id := "c", path := "1 C", control := .text, controlCode := "0" },
      { id := "d", path := "", control := .text, controlCode := "0" }]⟩,
    ⟨"items", .dynamic {
      maxRows := 0, id := "items", path := "A", offsets := ⟨0, 0⟩
      rowTemplate := [
        { id := "q", path := "Q", control := .text, controlCode := "0" },
        { id := "r", path := "Q/R", control := .text, controlCode := "0" },
        { id := "x", path := "<x>", control := .text, controlCode := "0" }] }⟩,
    ⟨"more", .dynamic {
      maxRows := 0, id := "items", path := "E/F", offsets := ⟨0, 0⟩, rowTemplate := [] }⟩]

/-- Data for it, signed by an odd name and with a value that has no place. -/
def tangledData : FormData where
  values := KeyMap.ofList [("A", "\x00 <![CDATA["), ("A/B", "]]>"), ("1 C", "z"), ("Z", "z")]
  tables := KeyMap.ofList [("items", [KeyMap.ofList [("Q", "q"), ("Q/R", "r"), ("S", "s")], ∅])]
  signature := some ⟨"&#0;", ⟨1, 1, 1, by decide⟩⟩

theorem exists_recovered_tangledData : Settings.check {} = true ∧
    (∃ r, Recovered.ofText {} tangledForm (ofFormData {} tangledForm tangledData).document = .ok r ∧
      (∀ f ∈ tangledForm.staticFields, Path.isResolvable f.path = true →
        (r.values.find? f.path).isSome) ∧
      ∀ e ∈ tangledForm.tables, Path.isResolvable e.2.path = true →
        (r.rows.find? e.2.id).isSome) ∧
    ∀ e, Discrepancy.unreadable {} e ∉ (ofFormData {} tangledForm tangledData).discrepancies :=
  have hs : Settings.check {} = true := by decide
  ⟨hs, exists_recovered_of_check {} tangledForm tangledData hs⟩

end Export

end Filing
