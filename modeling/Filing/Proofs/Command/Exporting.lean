import Filing.Command.Run
import Filing.Proofs.Json.ReadBack
import Filing.Proofs.Validation.Adjustments

/-!
# What an export tells

The answer of an export agrees with what was found: it succeeds exactly when all its inputs can be
read, the data is good enough for what was asked, the document can be written and is compliant. A
document is withheld only from data with errors of which validity was demanded; otherwise it reaches
the user as it was assembled, compliant or not. The status of the data at the end follows from the
report and the document alone.
-/

namespace Filing

open Data (Value)
open Json (IsPlain)

/-! ## Printed records -/

/-- A record that is printed for programs is read back by them. -/
theorem read_jsonText {members : List (String × Value)} (h : ∀ e ∈ members, IsPlain e.2) :
    Json.read (jsonText members) = some (.record members) :=
  Json.read_renderIndented (.record h)

theorem isPlain_optional (s : Option String) : IsPlain (.optional s) := by
  cases s with
  | none => exact .null
  | some s => exact .string s

theorem Discrepancy.isPlain_toValue (d : Discrepancy) : IsPlain d.toValue := by
  refine .record ?_
  simp only [List.forall_mem_cons, List.not_mem_nil, false_implies, implies_true, and_true]
  exact ⟨.string _, isPlain_optional _, .string _, isPlain_optional _, isPlain_optional _⟩

theorem ExportCommand.isPlain_summary (s : Settings) (c : ExportCommand) (r : Report) (e : Export)
    (status : Status) : ∀ member ∈ c.summary s r e status, IsPlain member.2 := by
  have hdocument : ∀ member ∈ (if c.output.isSome then [] else [("document", .string e.document)]),
      IsPlain member.2 := by
    split
    · exact List.forall_mem_nil _
    · exact List.forall_mem_singleton.2 (.string _)
  have herrors : IsPlain (.list (e.discrepancies.map Discrepancy.toValue)) :=
    .list (List.forall_mem_map.2 fun d _ => d.isPlain_toValue)
  have hwarnings : IsPlain (.strings e.warnings) :=
    .list (List.forall_mem_map.2 fun w _ => .string w)
  unfold summary optionalMember
  simp only [List.forall_mem_append, List.forall_mem_cons, List.forall_mem_map, List.not_mem_nil,
    false_implies, implies_true, and_true]
  exact ⟨⟨⟨⟨.bool _, .bool _, .integer _, .string _⟩, fun path _ => .string path⟩, hdocument⟩,
    herrors, hwarnings⟩

/-! ## Reading with errors -/

theorem bind_eq_ok_iff {ε α β : Type} {x : Except ε α} {f : α → Except ε β} {b : β} :
    x >>= f = .ok b ↔ ∃ a, x = .ok a ∧ f a = .ok b := by
  cases x <;> simp [bind, Except.bind]

theorem bind_eq_error_iff {ε α β : Type} {x : Except ε α} {f : α → Except ε β} {e : ε} :
    x >>= f = .error e ↔ x = .error e ∨ ∃ a, x = .ok a ∧ f a = .error e := by
  cases x <;> simp [bind, Except.bind]

theorem mapError_eq_ok_iff {ε ε' α : Type} {x : Except ε α} {f : ε → ε'} {a : α} :
    x.mapError f = .ok a ↔ x = .ok a := by
  cases x with
  | error e => exact iff_of_false nofun nofun
  | ok b => exact ⟨fun h => congrArg _ (Except.ok.inj h), fun h => congrArg _ (Except.ok.inj h)⟩

theorem mapError_eq_error_iff {ε ε' α : Type} {x : Except ε α} {f : ε → ε'} {e : ε'} :
    x.mapError f = .error e ↔ ∃ own, x = .error own ∧ f own = e := by
  cases x with
  | error own =>
    refine ⟨fun h => ⟨own, rfl, Except.error.inj h⟩, ?_⟩
    rintro ⟨_, ⟨⟩, rfl⟩
    rfl
  | ok b => exact iff_of_false nofun nofun

namespace Files

variable {files : Files}

theorem readPart_eq_ok_iff {part path text : String} :
    files.readPart part path = .ok text ↔ files.read path = .ok text := mapError_eq_ok_iff

theorem settings_eq_ok_iff {chosen : Option String} {s : Settings} :
    files.settings chosen = .ok s ↔
      match chosen with
      | none => s = {}
      | some path => files.has path = true ∧
          ∃ text, files.read path = .ok text ∧ Settings.ofToml text = .ok s := by
  cases chosen with
  | none => exact ⟨fun h => (Except.ok.inj h).symm, fun h => congrArg _ h.symm⟩
  | some path =>
    rw [settings, mapError_eq_ok_iff]
    cases hhas : files.has path with
    | false => simp [hhas]
    | true =>
      cases hread : files.read path with
      | error e => simp [hread]
      | ok text =>
        cases htoml : Settings.ofToml text with
        | error e => cases e <;> simp [hread, htoml]
        | ok own => simp [hhas, hread, htoml]

/-- A template is read by way of an empty cache, in which nothing is found and nobody has to be
waited for. -/
theorem template_eq_ok_iff {s : Settings} {path : String} (formCode : String)
    {r : TemplateReading} : files.template s path formCode = .ok r ↔
      ∃ text, files.read path = .ok text ∧
        TemplateReading.ofText s.templateRoot formCode text = r := by
  have hread : ∀ text, (TemplateCache.getTemplate {} s.templateRoot text formCode).2 =
      some ⟨1, TemplateReading.ofText s.templateRoot formCode text⟩ := by
    intro text
    rw [TemplateCache.getTemplate, Cache.get, Cache.look, KeyMap.find?_empty]
    rfl
  rw [template, bind_eq_ok_iff]
  simp only [readPart_eq_ok_iff, hread]
  exact exists_congr fun text => and_congr_right fun _ => ⟨Except.ok.inj, congrArg _⟩

theorem formData_eq_ok_iff {path : String} {d : FormData} : files.formData path = .ok d ↔
    ∃ text, files.read path = .ok text ∧ FormData.ofText? text = some d := by
  rw [formData, bind_eq_ok_iff]
  simp only [readPart_eq_ok_iff]
  refine exists_congr fun text => and_congr_right fun _ => ?_
  cases FormData.ofText? text with
  | none => exact iff_of_false nofun nofun
  | some own => simp [pure, Except.pure]

theorem rules_eq_ok_iff {chosen : Option String} {rules : RuleBook} :
    files.rules chosen = .ok rules ↔
      match chosen with
      | none => rules = []
      | some path => ∃ text, files.read path = .ok text ∧ readAdjustmentMap text = .ok rules := by
  cases chosen with
  | none => exact ⟨fun h => (Except.ok.inj h).symm, fun h => congrArg _ h.symm⟩
  | some path =>
    have hload : ∀ text, (∃ r, RuleBook.load [] text = .ok r ∧ r.1 = rules) ↔
        readAdjustmentMap text = .ok rules := by
      intro text
      rw [RuleBook.load_eq]
      cases readAdjustmentMap text <;> simp [Except.map]
    rw [Files.rules, bind_eq_ok_iff]
    simp only [readPart_eq_ok_iff, bind_eq_ok_iff, mapError_eq_ok_iff, pure, Except.pure,
      Except.ok.injEq, hload]

theorem requireTemplate_eq_ok_iff {s : Settings} {path formCode : String} {format : OutputFormat}
    {t : Template} : files.requireTemplate s path formCode format = .ok t ↔
      ∃ text, files.read path = .ok text ∧
        (TemplateReading.ofText s.templateRoot formCode text).template? = some t := by
  rw [requireTemplate]
  cases htemplate : files.template s path formCode with
  | error f =>
    refine iff_of_false nofun ?_
    rintro ⟨text, htext, -⟩
    have hok := (template_eq_ok_iff (s := s) formCode).2 ⟨text, htext, rfl⟩
    rw [htemplate] at hok
    exact absurd hok nofun
  | ok r =>
    obtain ⟨text, htext, rfl⟩ := (template_eq_ok_iff formCode).1 htemplate
    simp only [htext, Except.ok.injEq, exists_eq_left', TemplateReading.success_eq]
    cases (TemplateReading.ofText s.templateRoot formCode text).template? with
    | none => simp
    | some own =>
      rw [Option.isSome_some, Option.filter_some, if_pos rfl]
      simp

theorem of_requireTemplate_eq_error {s : Settings} {path formCode : String} {format : OutputFormat}
    {e : Ending} (h : files.requireTemplate s path formCode format = .error e) :
    e.failure.isSome = true := by
  rw [requireTemplate] at h
  split at h
  · rw [← Except.error.inj h]
    rfl
  · split at h
    · exact absurd h nofun
    · rw [← Except.error.inj h]
      rfl

end Files

namespace ExportCommand

/-! ## Inputs -/

/-- The files of an export hold settings and what the export works on. -/
structure Gathers (files : Files) (chosen : Option String) (c : ExportCommand) (s : Settings)
    (i : ExportInputs) : Prop where
  settings : match chosen with
    | none => s = {}
    | some path => files.has path = true ∧
        ∃ text, files.read path = .ok text ∧ Settings.ofToml text = .ok s
  template : ∃ text, files.read c.template = .ok text ∧
    (TemplateReading.ofText s.templateRoot c.formCode text).faults = [] ∧
    (TemplateReading.ofText s.templateRoot c.formCode text).template? = some i.template
  data : ∃ text, files.read c.data = .ok text ∧ FormData.ofText? text = some i.data
  rules : match c.rules with
    | none => i.rules = []
    | some path => ∃ text, files.read path = .ok text ∧ readAdjustmentMap text = .ok i.rules

variable {files : Files} {chosen : Option String} {c : ExportCommand} {s : Settings}
  {i : ExportInputs}

theorem gathers_iff : c.Gathers files chosen s i ↔
    files.settings chosen = .ok s ∧ c.inputs s files = .ok i := by
  have hinputs : c.inputs s files = .ok i ↔
      files.requireTemplate s c.template c.formCode c.format = .ok i.template ∧
        files.formData c.data = .ok i.data ∧ files.rules c.rules = .ok i.rules := by
    unfold inputs
    simp only [bind_eq_ok_iff, mapError_eq_ok_iff]
    constructor
    · rintro ⟨t, ht, d, hd, rules, hrules, hi⟩
      obtain rfl := Except.ok.inj hi
      exact ⟨ht, hd, hrules⟩
    · rintro ⟨ht, hd, hrules⟩
      exact ⟨_, ht, _, hd, _, hrules, rfl⟩
  have hfaults : ∀ text t,
      (TemplateReading.ofText s.templateRoot c.formCode text).template? = some t →
        (TemplateReading.ofText s.templateRoot c.formCode text).faults = [] := by
    intro text t ht
    rw [← TemplateReading.template?_isSome_iff, ht]
    rfl
  rw [hinputs, Files.settings_eq_ok_iff, Files.requireTemplate_eq_ok_iff, Files.formData_eq_ok_iff,
    Files.rules_eq_ok_iff]
  constructor
  · rintro ⟨hs, ⟨text, hread, -, ht⟩, hd, hrules⟩
    exact ⟨hs, ⟨text, hread, ht⟩, hd, hrules⟩
  · rintro ⟨hs, ⟨text, hread, ht⟩, hd, hrules⟩
    exact ⟨hs, ⟨text, hread, hfaults text _ ht, ht⟩, hd, hrules⟩

theorem of_inputs_eq_error {e : Ending} (h : c.inputs s files = .error e) :
    e.failure.isSome = true := by
  have hfailed : ∀ f : Failure, (Ending.failed f).failure.isSome = true := fun _ => rfl
  unfold inputs at h
  rcases bind_eq_error_iff.1 h with h | ⟨t, -, h⟩
  · exact Files.of_requireTemplate_eq_error h
  rcases bind_eq_error_iff.1 h with h | ⟨d, -, h⟩
  · obtain ⟨f, -, rfl⟩ := mapError_eq_error_iff.1 h
    exact hfailed f
  rcases bind_eq_error_iff.1 h with h | ⟨rules, -, h⟩
  · obtain ⟨f, -, rfl⟩ := mapError_eq_error_iff.1 h
    exact hfailed f
  · exact absurd h nofun

/-! ## Delivery -/

/-- What is printed for programs: a record, which they read back as it is. -/
def PrintsRecord (e : Ending) (members : List (String × Value)) : Prop :=
  e.stdout = jsonText members ∧ Json.read e.stdout = some (.record members)

/-- The document reaches the user as it is: in the file that was asked for, as what is printed for
people, or as a member of the record that is printed for programs. -/
def Delivers (c : ExportCommand) (e : Ending) (document : String) : Prop :=
  match c.output, c.format with
  | some path, _ => e.written = some (path, document)
  | none, .text => e.written = none ∧ e.stdout = document
  | none, .json => e.written = none ∧
      ∃ members, PrintsRecord e members ∧ ("document", .string document) ∈ members

/-- The user is told the status of the data: programs always, people when the document goes to a
file and there is no reason to be quiet. -/
def TellsStatus (c : ExportCommand) (quiet : Bool) (e : Ending) (status : Status) : Prop :=
  match c.format, c.output with
  | .json, _ => ∃ members, PrintsRecord e members ∧ ("status", .string status.name) ∈ members
  | .text, some path => quiet = false → ∃ mark,
      e.stdout = mark ++ s!"Wrote {path} ({status.title})" ++ "\n"
  | .text, none => True

theorem refusal?_eq_none_iff :
    c.refusal? files = none ↔ ∀ path, c.output = some path → files.refusal? path = none := by
  unfold refusal?
  cases c.output with
  | none => simp
  | some path => simp

/-- Data with errors is refused where validity is demanded. -/
theorem deliver_of_refused (quiet : Bool) (hdemanded : c.requireValid = true)
    (hinvalid : (i.data.validate s i.template i.rules).isValid = false) :
    (c.deliver s quiet files i).failure.isSome = true ∧
      (c.deliver s quiet files i).written = none ∧ (c.deliver s quiet files i).stdout = "" := by
  have hrefused : (c.requireValid && !(i.data.validate s i.template i.rules).isValid) = true := by
    rw [hdemanded, hinvalid]
    rfl
  unfold deliver
  rw [if_pos hrefused]
  exact ⟨rfl, rfl, rfl⟩

/-- A document that cannot be written is a failure. -/
theorem deliver_of_unwritable (quiet : Bool) {f : Failure} (hfile : c.refusal? files = some f) :
    (c.deliver s quiet files i).failure.isSome = true := by
  unfold deliver
  by_cases hrefused : (c.requireValid && !(i.data.validate s i.template i.rules).isValid) = true
  · rw [if_pos hrefused]
    rfl
  · rw [if_neg hrefused, hfile]
    rfl

section Admitted

variable (quiet : Bool)
  (hadmitted : c.requireValid = false ∨ (i.data.validate s i.template i.rules).isValid = true)
  (hfile : c.refusal? files = none)

include hadmitted hfile

/-- What is left behind by an export that nothing stops. -/
theorem deliver_of_admitted :
    ((c.deliver s quiet files i).failure = none ↔
      (Export.ofFormData s i.template i.data).isCompliant = true) ∧
    (c.deliver s quiet files i).written =
      c.output.map (·, (Export.ofFormData s i.template i.data).document) ∧
    (c.deliver s quiet files i).stdout =
      let report := i.data.validate s i.template i.rules
      let filed := Export.ofFormData s i.template i.data
      match c.format with
      | .json => jsonText (c.summary s report filed (finalStatus i.data report filed))
      | .text => c.announcement quiet filed (finalStatus i.data report filed) := by
  have hgood : ¬ (c.requireValid && !(i.data.validate s i.template i.rules).isValid) = true := by
    rcases hadmitted with h | h <;> simp [h]
  unfold deliver
  rw [if_neg hgood, hfile]
  cases c.format <;> simp

/-- The record that is printed for programs is the summary. -/
theorem printsRecord_of_admitted (hformat : c.format = .json) :
    let report := i.data.validate s i.template i.rules
    let filed := Export.ofFormData s i.template i.data
    PrintsRecord (c.deliver s quiet files i)
      (c.summary s report filed (finalStatus i.data report filed)) := by
  obtain ⟨-, -, hstdout⟩ := deliver_of_admitted quiet hadmitted hfile
  rw [hformat] at hstdout
  refine ⟨hstdout, ?_⟩
  rw [hstdout]
  exact read_jsonText (c.isPlain_summary s _ _ _)

theorem delivers_of_admitted :
    c.Delivers (c.deliver s quiet files i) (Export.ofFormData s i.template i.data).document := by
  obtain ⟨-, hwritten, hstdout⟩ := deliver_of_admitted quiet hadmitted hfile
  unfold Delivers
  rw [hwritten]
  cases houtput : c.output with
  | some path => rfl
  | none =>
    cases hformat : c.format with
    | text =>
      refine ⟨rfl, ?_⟩
      rw [hstdout, hformat]
      dsimp only
      rw [announcement, houtput]
    | json =>
      exact ⟨rfl, _, printsRecord_of_admitted quiet hadmitted hfile hformat,
        by simp [summary, houtput]⟩

theorem tellsStatus_of_admitted :
    c.TellsStatus quiet (c.deliver s quiet files i)
      (finalStatus i.data (i.data.validate s i.template i.rules)
        (Export.ofFormData s i.template i.data)) := by
  obtain ⟨-, -, hstdout⟩ := deliver_of_admitted quiet hadmitted hfile
  unfold TellsStatus
  cases hformat : c.format with
  | json =>
    exact ⟨_, printsRecord_of_admitted quiet hadmitted hfile hformat, by simp [summary]⟩
  | text =>
    cases houtput : c.output with
    | none => trivial
    | some path =>
      rintro rfl
      rw [hstdout, hformat]
      dsimp only
      rw [announcement, houtput]
      dsimp only
      rw [if_neg Bool.false_ne_true]
      cases (Export.ofFormData s i.template i.data).isCompliant
      · exact ⟨"✗ ", rfl⟩
      · exact ⟨"✓ ", rfl⟩

end Admitted

theorem failure_deliver_eq_none_iff {quiet : Bool} : (c.deliver s quiet files i).failure = none ↔
    (c.requireValid = false ∨ (i.data.validate s i.template i.rules).isValid = true) ∧
      c.refusal? files = none ∧ (Export.ofFormData s i.template i.data).isCompliant = true := by
  by_cases hadmitted : c.requireValid = false ∨
      (i.data.validate s i.template i.rules).isValid = true
  · cases hfile : c.refusal? files with
    | none =>
      rw [(deliver_of_admitted quiet hadmitted hfile).1, and_iff_right hadmitted, and_iff_right rfl]
    | some f =>
      refine iff_of_false (fun hnone => ?_) (by simp)
      have hfailure : (c.deliver s quiet files i).failure.isSome = true :=
        deliver_of_unwritable quiet hfile
      rw [hnone] at hfailure
      exact Bool.false_ne_true hfailure
  · refine iff_of_false (fun hnone => ?_) fun h => hadmitted h.1
    rw [not_or, Bool.not_eq_false, Bool.not_eq_true] at hadmitted
    have hfailure : (c.deliver s quiet files i).failure.isSome = true :=
      (deliver_of_refused quiet hadmitted.1 hadmitted.2).1
    rw [hnone] at hfailure
    exact Bool.false_ne_true hfailure

/-! ## Status -/

theorem finalStatus_eq (d : FormData) (r : Report) (e : Export) : finalStatus d r e =
    if r.isValid then (if e.isCompliant then .exported else .validated) else .draft := by
  unfold finalStatus FormData.applyVerdict FormData.markExported
  cases r.isValid <;> cases e.isCompliant <;> rfl

end ExportCommand

/-! ## The whole run -/

theorem Report.isValid_iff_errors {r : Report} : r.isValid = true ↔ r.errors = [] :=
  List.isEmpty_iff

theorem Ending.exitCode_eq_zero_iff {e : Ending} : e.exitCode = 0 ↔ e.failure = none := by
  unfold exitCode
  cases e.failure <;> simp

namespace Invocation

open ExportCommand

section Runs

variable {files : Files} {fallback settings : Option String} {c : ExportCommand}
  {verbose quiet : Bool}

theorem run_export_of_gathers {s : Settings} {i : ExportInputs}
    (h : c.Gathers files (settings.or fallback) s i) :
    Invocation.run files fallback ⟨.export c, verbose, quiet, settings⟩ =
      c.deliver s quiet files i := by
  obtain ⟨hsettings, hinputs⟩ := gathers_iff.1 h
  rw [Invocation.run, hsettings]
  dsimp only
  rw [ExportCommand.run, hinputs]

/-- An export that does not gather its inputs fails. -/
theorem exists_gathers_of_failure_eq_none
    (h : (Invocation.run files fallback ⟨.export c, verbose, quiet, settings⟩).failure = none) :
    ∃ s i, c.Gathers files (settings.or fallback) s i := by
  rw [Invocation.run] at h
  cases hsettings : files.settings (settings.or fallback) with
  | error f =>
    rw [hsettings] at h
    exact absurd h nofun
  | ok s =>
    rw [hsettings] at h
    dsimp only at h
    rw [ExportCommand.run] at h
    cases hinputs : c.inputs s files with
    | error e =>
      rw [hinputs] at h
      have hfailure := of_inputs_eq_error hinputs
      dsimp only at h
      rw [h] at hfailure
      exact absurd hfailure Bool.false_ne_true
    | ok i => exact ⟨s, i, gathers_iff.2 ⟨hsettings, hinputs⟩⟩

end Runs

/-- An export succeeds exactly when settings, template, data and rules can be read, the data has no
errors or may have some, the document can be written, and it is compliant. When data with errors is
refused, nothing is printed and nothing is written. Every other document that can be delivered is,
as it is. The data ends as exported, validated or a draft as report and document are, whatever the
status in its file, and that is what the user is told. -/
theorem run_export (files : Files) (fallback settings : Option String) (c : ExportCommand)
    (verbose quiet : Bool) :
    let e := Invocation.run files fallback ⟨.export c, verbose, quiet, settings⟩
    (e.exitCode = 0 ↔ ∃ s i, c.Gathers files (settings.or fallback) s i ∧
      (c.requireValid = false ∨ (i.data.validate s i.template i.rules).errors = []) ∧
      (∀ path, c.output = some path → files.refusal? path = none) ∧
      (Export.ofFormData s i.template i.data).isCompliant = true) ∧
    ∀ s i, c.Gathers files (settings.or fallback) s i →
      let report := i.data.validate s i.template i.rules
      let filed := Export.ofFormData s i.template i.data
      let status := finalStatus i.data report filed
      (c.requireValid = true → report.errors ≠ [] → e.written = none ∧ e.stdout = "") ∧
      ((c.requireValid = false ∨ report.errors = []) →
        (∀ path, c.output = some path → files.refusal? path = none) →
          c.Delivers e filed.document ∧ c.TellsStatus quiet e status) ∧
      (status = .exported ↔ report.errors = [] ∧ filed.isCompliant = true) ∧
      (status = .validated ↔ report.errors = [] ∧ filed.isCompliant = false) ∧
      (status = .draft ↔ report.errors ≠ []) := by
  intro e
  have hrun : ∀ s i, c.Gathers files (settings.or fallback) s i →
      e = c.deliver s quiet files i := fun s i h => run_export_of_gathers h
  refine ⟨?_, fun s i hgathers => ?_⟩
  · rw [Ending.exitCode_eq_zero_iff]
    constructor
    · intro hnone
      obtain ⟨s, i, hgathers⟩ := exists_gathers_of_failure_eq_none hnone
      rw [hrun s i hgathers, failure_deliver_eq_none_iff, refusal?_eq_none_iff,
        Report.isValid_iff_errors] at hnone
      exact ⟨s, i, hgathers, hnone⟩
    · rintro ⟨s, i, hgathers, h⟩
      rw [hrun s i hgathers, failure_deliver_eq_none_iff, refusal?_eq_none_iff,
        Report.isValid_iff_errors]
      exact h
  · intro report filed status
    have hstatus : status = if report.isValid then
        (if filed.isCompliant then .exported else .validated) else .draft := finalStatus_eq ..
    rw [hrun s i hgathers]
    refine ⟨fun hdemanded herrors => ?_, fun hadmitted hfile => ?_, ?_⟩
    · rw [ne_eq, ← Report.isValid_iff_errors, Bool.not_eq_true] at herrors
      exact (deliver_of_refused quiet hdemanded herrors).2
    · rw [← Report.isValid_iff_errors] at hadmitted
      rw [← refusal?_eq_none_iff] at hfile
      exact ⟨delivers_of_admitted quiet hadmitted hfile, tellsStatus_of_admitted quiet hadmitted hfile⟩
    · simp only [hstatus, ne_eq, ← Report.isValid_iff_errors]
      cases report.isValid <;> cases filed.isCompliant <;> simp

end Invocation

end Filing
