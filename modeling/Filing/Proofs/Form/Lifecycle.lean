import Filing.Form.Operation
import Mathlib.Data.List.Induction

/-!
# What a status vouches for

Data that counts as validated or exported was found to be without errors by the last report of its
run, and has the values, rows and signature that it had then. Data that counts as exported was
marked so after that report, while it was validated. So a draft is never exported without another
report in between.
-/

namespace Filing

/-- Values, rows and signature are the same. -/
structure FormData.SameContent (d other : FormData) : Prop where
  values : d.values = other.values
  tables : d.tables = other.tables
  signature : d.signature = other.signature

/-- Data as it begins: without values, for a form or for a template. -/
inductive FormData.IsNew : FormData → Prop where
  | new (formCode templateVersion : String) : IsNew (.new formCode templateVersion)
  | forTemplate (t : Template) : IsNew (.forTemplate t)

/-! ## What an operation can do -/

namespace Operation

/-- The operation records a report. -/
def isReport : Operation → Bool
  | .applyReport _ => true
  | _ => false

/-- The effects of operations: none at all, an edit, a report, or an export. -/
inductive Effect (d : FormData) : Operation → FormData → Prop where
  | nothing {op : Operation} (hop : op.isReport = false) : Effect d op d
  | edit {op : Operation} {d' : FormData} (hdraft : d'.status = .draft) : Effect d op d'
  | report (r : Report) (hvalid : r.errors = []) :
      Effect d (.applyReport r) { d with status := .validated }
  | exported (hvalidated : d.status = .validated) :
      Effect d (.markExported true) { d with status := .exported }

theorem effect_apply (op : Operation) (d : FormData) : op.Effect d (op.apply d) := by
  cases op with
  | setValue path value => exact .edit rfl
  | removeValue path =>
    simp only [apply, FormData.removeValue]
    split
    · exact .edit rfl
    · exact .nothing rfl
  | pushRow table row => exact .edit rfl
  | setRowValue table index path value =>
    simp only [apply, FormData.setRowValue]
    split
    · exact .edit rfl
    · exact .nothing rfl
  | removeRow table index =>
    simp only [apply, FormData.removeRow]
    split
    · exact .edit rfl
    · exact .nothing rfl
  | sign signature => exact .edit rfl
  | applyReport report =>
    simp only [apply, FormData.applyReport, FormData.applyVerdict]
    split
    · next hvalid => exact .report report (List.isEmpty_iff.1 hvalid)
    · exact .edit rfl
  | markExported compliant =>
    simp only [apply, FormData.markExported]
    split
    · next h =>
      obtain ⟨rfl, hvalidated⟩ := h
      exact .exported hvalidated
    · exact .nothing rfl

end Operation

/-! ## Runs -/

namespace FormData

variable {start : FormData} {before after : List Operation} {report : Report}

theorem run_append (d : FormData) (ops more : List Operation) :
    d.run (ops ++ more) = (d.run ops).run more :=
  List.foldl_append

/-- A run in which the last report found no errors and nothing was changed since. Data that is
exported was marked so after the report, while it was validated. -/
structure IsVouched (start : FormData) (before : List Operation) (report : Report)
    (after : List Operation) : Prop where
  isLast : ∀ r, .applyReport r ∉ after
  isValid : report.errors = []
  unchanged : (start.run (before ++ .applyReport report :: after)).SameContent (start.run before)
  marked : (start.run (before ++ .applyReport report :: after)).status = .exported →
    ∃ between rest, after = between ++ .markExported true :: rest ∧
      (start.run (before ++ .applyReport report :: between)).status = .validated

theorem run_append_cons (d : FormData) (before after : List Operation) (op last : Operation) :
    d.run (before ++ op :: (after ++ [last])) = last.apply (d.run (before ++ op :: after)) := by
  rw [← List.cons_append, ← List.append_assoc, run_append]
  rfl

theorem applyReport_not_mem_append (h : ∀ r, .applyReport r ∉ after) {op : Operation}
    (hop : op.isReport = false) (r : Report) : .applyReport r ∉ after ++ [op] := by
  intro hmem
  rcases List.mem_append.1 hmem with hmem | hmem
  · exact h r hmem
  · rw [← List.mem_singleton.1 hmem] at hop
    exact absurd hop (by simp [Operation.isReport])

namespace IsVouched

/-- A report without errors vouches for the data as it is. -/
theorem of_report (start : FormData) (before : List Operation) (hvalid : report.errors = []) :
    IsVouched start before report [] := by
  have hrun : start.run (before ++ [.applyReport report]) =
      { start.run before with status := .validated } := by
    have happly : (start.run before).applyReport report =
        { start.run before with status := .validated } := by
      simp [applyReport, applyVerdict, Report.isValid, hvalid]
    rw [run_append]
    exact happly
  refine ⟨fun r => List.not_mem_nil, hvalid, ?_, fun hexported => ?_⟩
  · rw [hrun]
    exact ⟨rfl, rfl, rfl⟩
  · rw [hrun] at hexported
    exact absurd hexported (by simp)

/-- What does nothing leaves the report to vouch for the data. -/
theorem nothing (h : IsVouched start before report after) {op : Operation}
    (hop : op.isReport = false)
    (hsame : op.apply (start.run (before ++ .applyReport report :: after)) =
      start.run (before ++ .applyReport report :: after)) :
    IsVouched start before report (after ++ [op]) := by
  have hrun := (run_append_cons start before after (.applyReport report) op).trans hsame
  refine ⟨applyReport_not_mem_append h.isLast hop, h.isValid, ?_, fun hexported => ?_⟩
  · rw [hrun]
    exact h.unchanged
  · rw [hrun] at hexported
    obtain ⟨between, rest, rfl, hvalidated⟩ := h.marked hexported
    exact ⟨between, rest ++ [op], by simp, hvalidated⟩

/-- The report still vouches for data that is exported while it is validated. -/
theorem exported (h : IsVouched start before report after)
    (hvalidated : (start.run (before ++ .applyReport report :: after)).status = .validated) :
    IsVouched start before report (after ++ [.markExported true]) := by
  have hrun : start.run (before ++ .applyReport report :: (after ++ [.markExported true])) =
      { start.run (before ++ .applyReport report :: after) with status := .exported } := by
    have hmark : ((start.run (before ++ .applyReport report :: after)).markExported true).1 =
        { start.run (before ++ .applyReport report :: after) with status := .exported } := by
      rw [markExported, if_pos ⟨rfl, hvalidated⟩]
    exact (run_append_cons ..).trans hmark
  refine ⟨applyReport_not_mem_append h.isLast rfl, h.isValid, ?_,
    fun _ => ⟨after, [], rfl, hvalidated⟩⟩
  rw [hrun]
  exact ⟨h.unchanged.values, h.unchanged.tables, h.unchanged.signature⟩

end IsVouched

/-- Whatever happened to a draft, it is still one or again one, or a report vouches for it. -/
theorem exists_isVouched (hstart : start.status = .draft) {ops : List Operation}
    (hstatus : (start.run ops).status ≠ .draft) :
    ∃ before report after, ops = before ++ .applyReport report :: after ∧
      IsVouched start before report after := by
  -- from the end of the run: unless the last operation is itself a report without errors, it keeps
  -- what an earlier one vouches for
  induction ops using List.reverseRecOn with
  | nil => exact absurd hstart hstatus
  | append_singleton ops op ih =>
    have hrun : start.run (ops ++ [op]) = op.apply (start.run ops) := run_append start ops [op]
    rw [hrun] at hstatus
    have heffect := op.effect_apply (start.run ops)
    generalize hresult : op.apply (start.run ops) = result at heffect hstatus
    cases heffect with
    | nothing hop =>
      obtain ⟨before, report, after, rfl, hvouched⟩ := ih hstatus
      exact ⟨before, report, after ++ [op], by simp, hvouched.nothing hop hresult⟩
    | edit hdraft => exact absurd hdraft hstatus
    | report r hvalid => exact ⟨ops, r, [], rfl, .of_report start ops hvalid⟩
    | exported hvalidated =>
      obtain ⟨before, report, after, rfl, hvouched⟩ := ih (by rw [hvalidated]; decide)
      exact ⟨before, report, after ++ [.markExported true], by simp, hvouched.exported hvalidated⟩

theorem IsNew.isDraft (h : start.IsNew) : start.status = .draft := by
  cases h <;> rfl

/-- After any run from new data: when the data counts as validated or exported, the last report of
the run vouches for it, and from a draft no operations lead to exported data without a report in
between that found no errors. -/
theorem isVouched_of_run (start : FormData) (hstart : start.IsNew) (ops : List Operation) :
    ((start.run ops).status = .validated ∨ (start.run ops).status = .exported →
      ∃ before report after, ops = before ++ .applyReport report :: after ∧
        IsVouched start before report after) ∧
    ∀ before after, ops = before ++ after → (start.run before).status = .draft →
      (start.run ops).status = .exported →
        ∃ report, .applyReport report ∈ after ∧ report.errors = [] := by
  constructor
  · intro hstatus
    refine exists_isVouched hstart.isDraft ?_
    rcases hstatus with hstatus | hstatus
    · rw [hstatus]
      decide
    · rw [hstatus]
      decide
  · rintro before after rfl hdraft hexported
    rw [run_append] at hexported
    have hchanged : ((start.run before).run after).status ≠ .draft := by
      rw [hexported]
      decide
    obtain ⟨ops, report, rest, rfl, hvouched⟩ := exists_isVouched hdraft hchanged
    exact ⟨report, by simp, hvouched.isValid⟩

/-- A run with an edit after the first report, and with operations that do nothing after the
second. -/
def filedRun : List Operation := [
  .setValue "A" "x", .applyReport {}, .pushRow "items" ∅, .markExported true, .applyReport {},
  .removeValue "B", .markExported true, .setRowValue "items" 1 "Q" "y"]

theorem isVouched_filedRun :
    (new "01/GTGT" "1").IsNew ∧ ((new "01/GTGT" "1").run filedRun).status = .exported ∧
      ∃ before report after, filedRun = before ++ .applyReport report :: after ∧
        IsVouched (new "01/GTGT" "1") before report after :=
  have hnew : (new "01/GTGT" "1").IsNew := .new "01/GTGT" "1"
  have hexported : ((new "01/GTGT" "1").run filedRun).status = .exported := by decide
  ⟨hnew, hexported, (isVouched_of_run _ hnew filedRun).1 (.inr hexported)⟩

end FormData

end Filing
