import Filing.Proofs.Validation.Completed
import Filing.Proofs.Validation.Loosened

/-!
# Which parent a selection is held to

A dependent selection must not be filled before its parent. Several links can lead to one field: it
names its parent itself, and other fields may name it as their child. Validation holds it to the
first field of the template from which a link leads to it, if that field is in sight. So the parent
that the field names is protected where no field before that parent names it as a child, and may be
left empty elsewhere.
-/

namespace Filing

namespace DependencyGraph

theorem firsts_eq_self {seen ids : List String} (hnodup : ids.Nodup)
    (hseen : ∀ id ∈ ids, id ∉ seen) : firsts seen ids = ids := by
  induction ids generalizing seen with
  | nil => rfl
  | cons id ids ih =>
    obtain ⟨hid, hnodup⟩ := List.nodup_cons.1 hnodup
    rw [firsts, if_neg (hseen id List.mem_cons_self)]
    refine congrArg _ (ih hnodup fun other hother => ?_)
    rw [List.mem_cons, not_or]
    exact ⟨fun heq => hid (heq ▸ hother), hseen other (List.mem_cons_of_mem _ hother)⟩

end DependencyGraph

namespace Template

/-- The first field of the template from which a link leads to a field: one that the field names as
its parent, or that names the field as its child. -/
def scope? (t : Template) (f : Field) : Option Field :=
  t.fields.find? fun other => f.parent == some other.id || other.child == some f.id

/-- A field before `parent` in the template names `f` as its child. -/
def IsOvertaken (t : Template) (f parent : Field) : Prop :=
  ∃ other ∈ t.fields.takeWhile (·.id != parent.id), other.child = some f.id

variable {t : Template}

theorem field?_of_mem (hids : (t.fields.map (·.id)).Nodup) {f : Field} (hf : f ∈ t.fields) :
    t.field? f.id = some f := by
  have hsome : (t.fields.find? (·.id == f.id)).isSome := List.find?_isSome.2 ⟨f, hf, by simp⟩
  obtain ⟨first, hfirst⟩ := Option.isSome_iff_exists.1 hsome
  have hid : first.id = f.id := by simpa using List.find?_some hfirst
  rw [field?_eq_find?, hfirst,
    List.inj_on_of_nodup_map hids (List.mem_of_find?_eq_some hfirst) hf hid]

/-- Where ids are unique, the graph leads to a field from the fields that are linked with it. -/
theorem mem_edges_dependencyGraph_iff (hids : (t.fields.map (·.id)).Nodup) {other f : Field}
    (hother : other ∈ t.fields) (hf : f ∈ t.fields) :
    (other.id, f.id) ∈ t.dependencyGraph.edges ↔
      f.parent = some other.id ∨ other.child = some f.id := by
  have hedge : (other.id, f.id) ∈ t.dependencyGraph.edges ↔ t.Links other.id f.id := by
    rw [mem_edges_dependencyGraph]
    exact ⟨fun h => h.2.2, fun h => ⟨⟨other, hother, rfl⟩, ⟨f, hf, rfl⟩, h⟩⟩
  rw [hedge]
  constructor
  · rintro ⟨g, hg, ⟨hparent, hid⟩ | ⟨hid, hchild⟩⟩
    · rw [List.inj_on_of_nodup_map hids hg hf hid] at hparent
      exact .inl hparent
    · rw [List.inj_on_of_nodup_map hids hg hother hid] at hchild
      exact .inr hchild
  · rintro (hparent | hchild)
    · exact ⟨f, hf, .inl ⟨hparent, rfl⟩⟩
    · exact ⟨other, hother, .inr ⟨rfl, hchild⟩⟩

/-- Of several fields that are linked with a field, the graph answers the first of the template. -/
theorem parent?_eq_scope? (hids : (t.fields.map (·.id)).Nodup) {f : Field} (hf : f ∈ t.fields) :
    t.resolve.graph.parent? t f.id = t.scope? f := by
  have hnodes : t.dependencyGraph.nodes = t.fields.map (·.id) := by
    rw [dependencyGraph_eq, DependencyGraph.nodes_foldl_addEdge]
    exact DependencyGraph.firsts_eq_self hids fun _ _ => List.not_mem_nil
  have hfind : ∀ l ⊆ t.fields, (l.map (·.id)).filterMap t.field? = l := by
    intro l hl
    rw [List.filterMap_map]
    conv => rhs; rw [← List.filterMap_some (l := l)]
    exact List.filterMap_congr fun other hother => field?_of_mem hids (hl hother)
  have hlinked : t.fields.filter (fun other => (other.id, f.id) ∈ t.dependencyGraph.edges) =
      t.fields.filter fun other => f.parent == some other.id || other.child == some f.id := by
    refine List.filter_congr fun other hother => ?_
    rw [Bool.eq_iff_iff, decide_eq_true_eq, mem_edges_dependencyGraph_iff hids hother hf,
      Bool.or_eq_true, beq_iff_eq, beq_iff_eq]
  show ((t.dependencyGraph.predecessors f.id).filterMap t.field?).head? = _
  rw [DependencyGraph.predecessors_eq_filter, hnodes, List.filter_map, hfind _ (by simp),
    Function.comp_def, hlinked, List.head?_filter]
  rfl

/-- The parent that a field names is the one to which it is held, unless another field gets in
before it. -/
theorem scope?_eq_some_iff (hids : (t.fields.map (·.id)).Nodup) {f parent : Field}
    (hparent : parent ∈ t.fields) (hnamed : f.parent = some parent.id) :
    t.scope? f = some parent ↔ ¬ t.IsOvertaken f parent := by
  obtain ⟨before, after, hsplit⟩ := List.append_of_mem hparent
  have hbefore : ∀ other ∈ before, other.id ≠ parent.id := by
    rw [hsplit, List.map_append, List.map_cons] at hids
    intro other hother
    exact (List.nodup_append.1 hids).2.2 _ (List.mem_map_of_mem hother) _ List.mem_cons_self
  have htake : t.fields.takeWhile (·.id != parent.id) = before := by
    rw [hsplit, List.takeWhile_append_of_pos fun other hother => bne_iff_ne.2 (hbefore other hother)]
    simp
  have hnone : ¬ t.IsOvertaken f parent ↔
      before.find? (fun other => f.parent == some other.id || other.child == some f.id) = none := by
    rw [IsOvertaken, htake, List.find?_eq_none, not_exists]
    refine forall_congr' fun other => not_and.trans (forall_congr' fun hother => ?_)
    have hother : some parent.id ≠ some other.id := fun heq =>
      hbefore other hother (Option.some.inj heq).symm
    rw [hnamed, Bool.or_eq_true, beq_iff_eq, beq_iff_eq, or_iff_right hother]
  rw [hnone, scope?, hsplit, List.find?_append]
  cases hfind : before.find? fun other => f.parent == some other.id || other.child == some f.id with
  | none => simp [hnamed]
  | some first =>
    have hfirst : first ≠ parent := fun heq =>
      hbefore first (List.mem_of_find?_eq_some hfind) (heq ▸ rfl)
    simp [hfirst]

/-! ## Fields in sight -/

/-- Where ids are unique, a section with a static field is static. -/
theorem isDynamic_eq_false_of_mem (hids : (t.fields.map (·.id)).Nodup) {f : Field}
    (hf : f ∈ t.staticFields) {sec : Section} (hsec : sec ∈ t.sections) (hmem : f ∈ sec.fields) :
    sec.isDynamic = false := by
  by_contra hdynamic
  rw [Bool.not_eq_false] at hdynamic
  have hperm := (List.filter_append_perm (·.isDynamic) t.sections).flatMap_right (·.fields)
  have hnodup := hperm.nodup_iff.2 hids.of_map
  rw [List.flatMap_append] at hnodup
  have hother : f ∈ (t.sections.filter (·.isDynamic)).flatMap (·.fields) :=
    List.mem_flatMap.2 ⟨sec, List.mem_filter.2 ⟨hsec, hdynamic⟩, hmem⟩
  exact (List.nodup_append.1 hnodup).2.2 f hother f hf rfl

theorem isRowField_of_mem_staticFields (hids : (t.fields.map (·.id)).Nodup) {f : Field}
    (hf : f ∈ t.staticFields) : t.isRowField f.id = false := by
  have hfield := field?_of_mem hids ((staticFields_sublist t).mem hf)
  obtain ⟨l, hlocation, hat⟩ := Option.bind_eq_some_iff.1 hfield
  obtain ⟨sec, hsection, hposition⟩ := Option.bind_eq_some_iff.1 hat
  rw [isRowField, sectionOf?, hlocation, Option.bind_some, hsection]
  exact isDynamic_eq_false_of_mem hids hf (List.mem_of_getElem? hsection)
    (List.mem_of_getElem? hposition)

theorem not_mem_rowTemplate (hids : (t.fields.map (·.id)).Nodup) {f : Field}
    (hf : f ∈ t.staticFields) {e : String × Table} (he : e ∈ t.tables) :
    f ∉ e.2.rowTemplate := by
  intro hmem
  obtain ⟨⟨id, content⟩, hsec, heq⟩ := List.mem_filterMap.1 he
  obtain ⟨table, htable, rfl⟩ := Option.map_eq_some_iff.1 heq
  cases content with
  | static cells => exact absurd htable (by simp [Section.table?])
  | dynamic own =>
    obtain rfl := Option.some.inj htable
    exact absurd (isDynamic_eq_false_of_mem hids hf hsec hmem) (by simp [Section.isDynamic, htable])

theorem staticValue_of_mem (hids : (t.fields.map (·.id)).Nodup) (d : FormData) {parent : Field}
    (hparent : parent ∈ t.staticFields) : t.staticValue d parent = some (d.value? parent.path) := by
  rw [staticValue, isRowField_of_mem_staticFields hids hparent, if_neg Bool.false_ne_true]

theorem rowValue_of_mem_rowTemplate (d : FormData) {fields : List Field} (row : Row)
    {parent : Field} (hparent : parent ∈ fields) :
    t.rowValue d fields row parent = some (row.find? parent.path) := by
  have hany : fields.any (·.id == parent.id) = true :=
    List.any_eq_true.2 ⟨parent, hparent, by simp⟩
  rw [rowValue, hany, if_pos rfl]

theorem rowValue_of_mem_staticFields (hids : (t.fields.map (·.id)).Nodup) (d : FormData)
    {e : String × Table} (he : e ∈ t.tables) (row : Row) {parent : Field}
    (hparent : parent ∈ t.staticFields) :
    t.rowValue d e.2.rowTemplate row parent = some (d.value? parent.path) := by
  have hnot : ¬ e.2.rowTemplate.any (·.id == parent.id) = true := by
    intro hany
    have hmem : parent.id ∈ e.2.rowTemplate.map (·.id) := by simpa using hany
    rw [mem_map_id_rowTemplate_iff hids he ((staticFields_sublist t).mem hparent)] at hmem
    exact not_mem_rowTemplate hids hparent he hmem
  rw [rowValue, if_neg hnot, staticValue_of_mem hids d hparent]

end Template

/-! ## Valid data -/

namespace FormData

variable {s : Settings} {t : Template} {rules : RuleBook} {d : FormData}

theorem severity_structural_of_isValid (h : (d.validate s t rules).isValid = true) :
    ∀ i ∈ t.issues ++ d.structuralIssues s t, i.severity ≠ .error :=
  fun i hi => Report.isValid_iff.1 h i (List.mem_append_right _ hi)

theorem isWellFormed_of_isValid (h : (d.validate s t rules).isValid = true) : t.IsWellFormed := by
  rw [← Template.isValid_validate_iff_isWellFormed, Report.isValid_iff]
  intro i hi
  refine severity_structural_of_isValid h i (List.mem_append_left _ ?_)
  rcases List.mem_append.1 hi with hnone | hi
  · exact absurd hnone (by simp [Template.validate])
  · exact hi

theorem parentIssues_static_of_isValid (h : (d.validate s t rules).isValid = true) {f : Field}
    (hf : f ∈ t.staticFields) : ∀ i ∈ parentIssues t t.resolve.graph (t.staticValue d) f
      (d.value? f.path) f.path, i.severity ≠ .error := by
  intro i hi
  have hstatic : i ∈ d.staticIssues t t.resolve.graph :=
    List.mem_flatMap.2 ⟨f, hf, List.mem_append_right _ hi⟩
  refine severity_structural_of_isValid h i (List.mem_append_right _ ?_)
  simp only [structuralIssues, List.mem_append]
  exact .inl (.inl (.inl (.inr hstatic)))

theorem parentIssues_row_of_isValid (h : (d.validate s t rules).isValid = true)
    {e : String × Table} (he : e ∈ t.tables) {row : Row} (hrow : row ∈ d.rows e.2.id) {f : Field}
    (hf : f ∈ e.2.rowTemplate) : ∃ place, ∀ i ∈ parentIssues t t.resolve.graph
      (t.rowValue d e.2.rowTemplate row) f (row.find? f.path) place, i.severity ≠ .error := by
  obtain ⟨n, hn⟩ := List.getElem?_of_mem hrow
  refine ⟨rowPlace e.2.id (n + 1) f.path, fun i hi => ?_⟩
  have hown : i ∈ rowIssues s t t.resolve.graph d e.2 (n + 1) row :=
    List.mem_append_left _ (List.mem_flatMap.2 ⟨f, hf, List.mem_append_right _ hi⟩)
  have htable : i ∈ d.tableIssues s t t.resolve.graph e.2 := by
    refine List.mem_append_right _ (List.mem_flatten.2 ⟨_, List.mem_of_getElem? (i := n) ?_, hown⟩)
    rw [List.getElem?_mapIdx, hn]
    rfl
  have htables : i ∈ t.tables.flatMap fun e => d.tableIssues s t t.resolve.graph e.2 :=
    List.mem_flatMap.2 ⟨e, he, htable⟩
  refine severity_structural_of_isValid h i (List.mem_append_right _ ?_)
  simp only [structuralIssues, List.mem_append]
  exact .inl (.inl (.inr htables))

/-- A field that names its parent in a well-formed template is held to some field. -/
theorem exists_scope? (ht : t.IsWellFormed) {f : Field} (hf : f ∈ t.fields)
    (hcontrol : f.control = .dependentDropdown ∨ f.control = .wardDropdown) :
    ∃ scope ∈ t.fields, t.scope? f = some scope := by
  obtain ⟨id, hid⟩ := ht.selections f hf hcontrol
  obtain ⟨parent, hparent, rfl⟩ := ht.parents f hf id hid
  have hsome : (t.scope? f).isSome :=
    List.find?_isSome.2 ⟨parent, hparent, by rw [hid, beq_self_eq_true, Bool.true_or]⟩
  obtain ⟨scope, hscope⟩ := Option.isSome_iff_exists.1 hsome
  exact ⟨scope, List.mem_of_find?_eq_some hscope, hscope⟩

/-- In data without errors, a dependent selection has a value only together with the first field of
the template that is linked with it, as far as that field is static or in the same row. The parent
that the selection names is that field exactly if no field before it names the selection as its
child. -/
theorem isFilled_scope_of_isValid (hvalid : (d.validate s t rules).isValid = true) :
    (∀ f ∈ t.staticFields, f.control = .dependentDropdown ∨ f.control = .wardDropdown →
      isFilled (d.value? f.path) = true →
        ∃ scope ∈ t.fields, t.scope? f = some scope ∧
          (scope ∈ t.staticFields → isFilled (d.value? scope.path) = true)) ∧
    (∀ e ∈ t.tables, ∀ row ∈ d.rows e.2.id, ∀ f ∈ e.2.rowTemplate,
      f.control = .dependentDropdown ∨ f.control = .wardDropdown →
      isFilled (row.find? f.path) = true →
        ∃ scope ∈ t.fields, t.scope? f = some scope ∧
          (scope ∈ e.2.rowTemplate → isFilled (row.find? scope.path) = true) ∧
          (scope ∈ t.staticFields → isFilled (d.value? scope.path) = true)) ∧
    ∀ f ∈ t.fields, ∀ parent ∈ t.fields, f.parent = some parent.id →
      (t.scope? f = some parent ↔ ¬ t.IsOvertaken f parent) := by
  have ht := isWellFormed_of_isValid hvalid
  refine ⟨fun f hf hcontrol hfilled => ?_, fun e he row hrow f hf hcontrol hfilled => ?_,
    fun f hf parent hparent hnamed => Template.scope?_eq_some_iff ht.ids hparent hnamed⟩
  · have hmem : f ∈ t.fields := (Template.staticFields_sublist t).mem hf
    obtain ⟨scope, hscope, heq⟩ := exists_scope? ht hmem hcontrol
    have hguard := parentIssues_iff.1 (parentIssues_static_of_isValid hvalid hf)
      (Template.requiresParent_iff.2 hcontrol) hfilled scope
      ((Template.parent?_eq_scope? ht.ids hmem).trans heq)
    exact ⟨scope, hscope, heq, fun hstatic => hguard _ (Template.staticValue_of_mem ht.ids d hstatic)⟩
  · have hmem : f ∈ t.fields := (Template.rowTemplate_sublist he).mem hf
    obtain ⟨scope, hscope, heq⟩ := exists_scope? ht hmem hcontrol
    obtain ⟨place, hissues⟩ := parentIssues_row_of_isValid hvalid he hrow hf
    have hguard := parentIssues_iff.1 hissues (Template.requiresParent_iff.2 hcontrol) hfilled scope
      ((Template.parent?_eq_scope? ht.ids hmem).trans heq)
    exact ⟨scope, hscope, heq,
      fun hsibling => hguard _ (Template.rowValue_of_mem_rowTemplate d row hsibling),
      fun hstatic => hguard _ (Template.rowValue_of_mem_staticFields ht.ids d he row hstatic)⟩

/-- A province of the form. -/
def seatProvince : Field where
  id := "province"
  path := "P"
  control := .provinceDropdown
  controlCode := "100"

/-- A ward of the form, which names the province as its parent. -/
def seatWard : Field where
  id := "ward"
  path := "W"
  control := .wardDropdown
  controlCode := "101"
  parent := some "province"

/-- A ward of a row, which names a province of the row as its parent. -/
def branchWard : Field where
  id := "branchWard"
  path := "w"
  control := .wardDropdown
  controlCode := "101"
  parent := some "branchProvince"

/-- The table of branches; the town of a branch names the ward of the form as its child. -/
def branches : Table where
  maxRows := 0
  id := "branches"
  path := "B"
  offsets := ⟨0, 0⟩
  rowTemplate := [
    { id := "town", path := "t", control := .text, controlCode := "0", child := some "ward" },
    { id := "branchProvince", path := "p", control := .provinceDropdown, controlCode := "100" },
    branchWard]

/-- A form with a seat and branches. -/
def seatForm : Template where
  version := "1"
  formCode := "01/GTGT"
  sections := [⟨"branches", .dynamic branches⟩, ⟨"seat", .static [seatProvince, seatWard]⟩]

/-- A branch with a ward in a province. -/
def branchRow : Row := KeyMap.ofList [("p", "79"), ("w", "26734")]

/-- Data for the form, with one branch. -/
def branchData : FormData where
  tables := KeyMap.ofList [("branches", [branchRow])]

theorem isFilled_scope_branchData :
    (branchData.validate {} seatForm []).isValid = true ∧
      ∃ scope ∈ seatForm.fields, seatForm.scope? branchWard = some scope ∧
        (scope ∈ branches.rowTemplate → isFilled (branchRow.find? scope.path) = true) ∧
        (scope ∈ seatForm.staticFields → isFilled (branchData.value? scope.path) = true) :=
  have hvalid : (branchData.validate {} seatForm []).isValid = true := by decide +kernel
  ⟨hvalid, (isFilled_scope_of_isValid hvalid).2.1 ("branches", branches) (by decide) branchRow
    (by decide) branchWard (by decide) (.inr rfl) (by decide)⟩

/-- Data for the form with a ward of the seat and nothing else. -/
def wardData : FormData where
  values := KeyMap.ofList [("W", "26734")]

/-- The ward of the seat has a value, no other field has one, and validation finds no error: the
town of the branches stands before the province that the ward names as its parent. -/
theorem not_isFilled_parent_wardData :
    (wardData.validate {} seatForm []).isValid = true ∧ seatWard ∈ seatForm.staticFields ∧
      seatWard.control = .wardDropdown ∧ isFilled (wardData.value? seatWard.path) = true ∧
      seatProvince ∈ seatForm.staticFields ∧ seatWard.parent = some seatProvince.id ∧
      isFilled (wardData.value? seatProvince.path) = false :=
  ⟨by decide +kernel, by decide, rfl, by decide, by decide, rfl, by decide⟩

end FormData

end Filing
