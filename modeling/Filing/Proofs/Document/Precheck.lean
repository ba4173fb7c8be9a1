import Filing.Proofs.Document.RoundTrip
import Filing.Proofs.Validation.Loosened

/-!
# What the check of a template leaves open

A template without errors has a place for every path, and its tables share neither paths nor ids.
That its layout is separated is not checked: one path can lead through another, and then a form that
validates cannot be filed. Separation is exactly what is missing: where every export of valid data
is compliant, the layout is separated for all valid data, since a blank, an emptied table or a
signature would bring out whatever is in the way.
-/

namespace Filing

open Xml (Edit Node)
open Xml.Node (follow?)

/-! ## Templates without errors -/

/-- A template without errors has a place for every path, and its tables are told apart. -/
theorem Template.isPlaced_of_isValid {t : Template} (h : t.validate.isValid = true) :
    t.IsPlaced := by
  have hwell := isValid_validate_iff_isWellFormed.1 h
  exact {
    statics := fun f hf => hwell.fieldPaths f ((staticFields_sublist t).subset hf)
    tables := hwell.tablePaths
    rows := fun e he f hf => hwell.fieldPaths f ((rowTemplate_sublist he).subset hf)
    ids := hwell.tableIds
    paths := hwell.tables }

/-! ## Data that brings out what is in the way -/

namespace FormData

variable {t : Template} {d : FormData}

theorem Loosened.refl (d : FormData) : d.Loosened d :=
  ⟨fun _ => .inl rfl, fun _ => .inr (List.forall₂_same.2 fun _ _ _ => .inl rfl)⟩

/-- A signature is neither a value nor a row. -/
theorem Loosened.sign {other : FormData} (h : d.Loosened other) (signature : Signature) :
    d.Loosened (other.sign signature) := ⟨h.values, h.rows⟩

theorem Loosened.fitsWords {other : FormData} (h : d.Loosened other) (hd : d.FitsWords t) :
    other.FitsWords t := by
  intro e he
  obtain ⟨htemplate, hreport, hlength⟩ := hd e he
  refine ⟨htemplate, hreport, ?_⟩
  rcases h.rows e.2.id with hnil | hrows
  · rw [hnil]
    exact Nat.zero_le _
  · rwa [← hrows.length_eq]

/-- A table can be emptied. -/
theorem loosened_putRows (d : FormData) (id : String) : d.Loosened (d.putRows id []) := by
  refine ⟨fun _ => .inl rfl, fun other => ?_⟩
  rw [rows_putRows]
  split
  · exact .inl rfl
  · exact (Loosened.refl d).rows other

theorem exists_of_isFilled {value? : Option String} (h : isFilled value? = true) :
    ∃ value, value? = some value ∧ value ≠ "" := by
  cases value? with
  | none => exact absurd h (by decide)
  | some value =>
    refine ⟨value, rfl, ?_⟩
    rintro rfl
    exact absurd h (by decide)

/-- Something can stand at any path. -/
theorem exists_loosened_value (d : FormData) (path : String) :
    ∃ other, d.Loosened other ∧ (∀ id, other.rows id = d.rows id) ∧
      ∃ value, other.value? path = some value ∧ value ≠ "" := by
  by_cases hfilled : isFilled (d.value? path) = true
  · exact ⟨d, .refl d, fun _ => rfl, exists_of_isFilled hfilled⟩
  · refine ⟨d.setValue path " ", ⟨fun other => ?_, (Loosened.refl d).rows⟩, fun _ => rfl, " ", ?_,
      by decide⟩
    · rw [value?_setValue]
      split
      · next heq => exact .inr ⟨heq ▸ Bool.not_eq_true _ ▸ hfilled, rfl⟩
      · exact .inl rfl
    · rw [value?_setValue, if_pos rfl]

/-- A blank can be put where the first row of a table has nothing. -/
theorem loosened_setRowValue {id : String} {first : Row} {rest : List Row}
    (hfirst : d.rows id = first :: rest) {path : String}
    (hblank : ¬ isFilled (first.find? path) = true) :
    d.Loosened (d.setRowValue id 0 path " ").1 := by
  constructor
  · intro other
    unfold setRowValue
    split <;> exact .inl rfl
  · intro other
    rw [rows_setRowValue]
    split
    · next heq =>
      subst heq
      rw [hfirst, List.modify_zero_cons]
      refine .inr (.cons (fun key => ?_) (List.forall₂_same.2 fun _ _ _ => .inl rfl))
      rw [KeyMap.find?_insert]
      split
      · next hkey => exact .inr ⟨hkey ▸ Bool.not_eq_true _ ▸ hblank, rfl⟩
      · exact .inl rfl
    · exact (Loosened.refl d).rows other

/-- Something can stand at any path of the first row of a table. -/
theorem exists_loosened_row {id : String} (hrows : d.rows id ≠ []) (path : String) :
    ∃ other row value, d.Loosened other ∧ (other.rows id)[0]? = some row ∧
      row.find? path = some value ∧ value ≠ "" := by
  cases hfirst : d.rows id with
  | nil => exact absurd hfirst hrows
  | cons first rest =>
    by_cases hfilled : isFilled (first.find? path) = true
    · obtain ⟨value, hvalue, hne⟩ := exists_of_isFilled hfilled
      exact ⟨d, first, value, .refl d, by rw [hfirst]; rfl, hvalue, hne⟩
    · refine ⟨(d.setRowValue id 0 path " ").1, first.insert path " ", " ",
        loosened_setRowValue hfirst hfilled, ?_, KeyMap.find?_insert_self first path " ",
        by decide⟩
      rw [rows_setRowValue, if_pos rfl, hfirst, List.modify_zero_cons]
      rfl

end FormData

namespace Assembly

/-! ## What is in the way -/

section Necessity

variable {s : Settings} {t : Template} {d : FormData}

/-- Below a text that is read nothing is found. -/
theorem follow?_below_text {node : Node} {path : List String} {content : String}
    (hread : (follow? path node.tidy).map (·.text) = some content) (hne : content ≠ "")
    {more : List String} (hmore : more ≠ []) : follow? (path ++ more) node = none := by
  rw [Node.follow?_tidy, Option.map_map, Option.map_eq_some_iff] at hread
  obtain ⟨found, hfound, htext⟩ := hread
  have hchildren : found.children = [] := by
    by_contra hnot
    refine hne (htext.symm.trans ?_)
    rw [Function.comp_apply, Node.text_tidy, if_neg (by simpa using hnot)]
  rw [Node.follow?_append, hfound, Option.bind_some]
  exact Node.follow?_eq_none_of_children hchildren hmore

/-- In a signed document every path of the form leads somewhere. -/
theorem isSome_follow?_body (ht : t.IsPlaced) {signature : Signature}
    (hsig : d.signature = some signature) {path : String} (hpath : path ∈ t.bodyPaths s) :
    (follow? (Path.segments path) (ofFormData s t d).body).isSome := by
  have hedit : ∃ e ∈ edits s t d, e.path = Path.segments path := by
    rcases List.mem_append.1 hpath with hpath | hpath
    · cases hfield : t.staticFieldAt? path with
      | some f =>
        have heq : f.path = path := (of_find?_path hfield).2
        exact ⟨staticEdit d f, staticEdit_mem_edits ht hfield, congrArg Path.segments heq⟩
      | none =>
        have hfree : isUnclaimed t path = true := by rw [isUnclaimed, hfield]; rfl
        rcases eq_of_mem_textPaths hpath hfield with rfl | rfl
        · exact ⟨_, (signingEdits_mem_edits hsig).1 hfree, rfl⟩
        · exact ⟨_, (signingEdits_mem_edits hsig).2 hfree, rfl⟩
    · obtain ⟨entry, hentry, rfl⟩ := List.mem_map.1 hpath
      exact ⟨tableEdit s d entry.2, tableEdit_mem_edits ht hentry, rfl⟩
  obtain ⟨e, he, heq⟩ := hedit
  rw [body_ofFormData]
  exact Edit.isSome_follow?_of_mem he (heq ▸ List.prefix_refl _) _

theorem dayFirstText_ne_empty (date : Calendar.Date) : date.dayFirstText ≠ "" := by
  intro h
  have hlist := congrArg String.toList h
  simp [Calendar.Date.dayFirstText] at hlist

/-- In a compliant signed document a text stands at each of its paths, unless it is empty. -/
theorem exists_text_body (hs : s.check = true) (ht : t.IsPlaced) {signature : Signature}
    (hsig : d.signature = some signature) (hsigner : signature.signer ≠ "") {path : String}
    (hpath : path ∈ t.textPaths s)
    (hvalue : ∃ value, d.value? path = some value ∧ value ≠ "")
    (hc : (Export.ofFormData s t d).isCompliant = true) :
    ∃ content, content ≠ "" ∧
      (follow? (Path.segments path) (ofFormData s t d).body.tidy).map (·.text) = some content := by
  have hr := Export.isRecovered_of_isCompliant hs hc
  cases hfield : t.staticFieldAt? path with
  | some f =>
    obtain ⟨value, hvalue, hne⟩ := hvalue
    obtain ⟨hmem, rfl⟩ := of_find?_path hfield
    have hentry : (ofFormData s t d).plan.statics.find? f.path = some ⟨f, value⟩ := by
      rw [find?_statics_ofFormData, if_pos (ht.statics f hmem), hfield, hvalue]
      rfl
    have hfound : (Recovered.texts (ofFormData s t d).body.tidy t.staticFields).find? f.path =
        some value := hr.statics f.path _ hentry
    rw [Recovered.find?_texts, if_pos ⟨f, hmem, rfl⟩] at hfound
    exact ⟨value, hne, hfound⟩
  | none =>
    have hfree : isUnclaimed t path = true := by rw [isUnclaimed, hfield]; rfl
    have hread : ∀ content, Recovered.signingText t (ofFormData s t d).body.tidy path =
        some content →
        (follow? (Path.segments path) (ofFormData s t d).body.tidy).map (·.text) =
          some content := by
      intro content h
      rw [Recovered.signingText, hfield] at h
      exact h
    rcases eq_of_mem_textPaths hpath hfield with rfl | rfl
    · refine ⟨_, dayFirstText_ne_empty signature.date, hread _ (hr.signingDate _ ?_)⟩
      rw [ofFormData_eq, if_pos hfree, hsig]
      rfl
    · refine ⟨_, hsigner, hread _ (hr.signer _ ?_)⟩
      rw [ofFormData_eq, if_pos hfree, hsig]
      rfl

/-- Where a compliant document has no rows of a table, nothing looks like one. -/
theorem childrenNamed_of_isCompliant (hs : s.check = true) (ht : t.IsPlaced)
    (hc : (Export.ofFormData s t d).isCompliant = true) {e : String × Table} (he : e ∈ t.tables)
    (hempty : d.rows e.2.id = []) {found : Node}
    (hfound : follow? (Path.segments e.2.path) (ofFormData s t d).body = some found) :
    found.childrenNamed s.document.rowElement = [] := by
  have hrows := Export.rows_of_isRecovered (Export.isRecovered_of_isCompliant hs hc) he
    (ht.tables e he)
  have hnone : placedRows d e.2 = [] := by
    rw [← List.length_eq_zero_iff, length_placedRows, hempty]
    rfl
  have hread : (Recovered.tableRows s t (ofFormData s t d).body.tidy).find? e.2.id =
      some ((found.tidy.childrenNamed s.document.rowElement).map
        (Recovered.row e.2.rowTemplate)) := by
    rw [Recovered.find?_tableRows ht.ids he, Node.find?, Node.follow?_tidy, hfound]
    rfl
  rw [hnone, List.forall₂_nil_left_iff] at hrows
  have hrecords : ((Recovered.tableRows s t (ofFormData s t d).body.tidy).find? e.2.id).getD [] =
      [] := hrows
  rw [hread, Option.getD_some, List.map_eq_nil_iff, Node.childrenNamed_tidy,
    List.map_eq_nil_iff] at hrecords
  exact hrecords

/-- A compliant document has each row as it was written, when no path leads through a row. -/
theorem isRecovered_rows_of_isCompliant (hs : s.check = true) (ht : t.IsPlaced)
    (hthrough : ∀ p ∈ t.tablePaths, ∀ q ∈ t.bodyPaths s,
      ¬ Path.segments p ++ [s.document.rowElement] <+: Path.segments q)
    (hc : (Export.ofFormData s t d).isCompliant = true) {e : String × Table} (he : e ∈ t.tables) :
    ∀ r ∈ placedRows d e.2,
      r.IsRecovered (Recovered.row e.2.rowTemplate (rowNode s r).tidy) := by
  have hrows := Export.rows_of_isRecovered (Export.isRecovered_of_isCompliant hs hc) he
    (ht.tables e he)
  have hread : (Recovered.ofBody s t (ofFormData s t d).body.tidy).rows.find? e.2.id = _ :=
    find?_tableRows_body hs ht hthrough he
  rw [hread, Option.getD_some, List.forall₂_map_right_iff, List.forall₂_same] at hrows
  exact hrows

/-- A signature with something in both parts. -/
def probe : Signature := ⟨" ", ⟨2024, 1, 1, by decide⟩⟩

section Loosened

variable (hs : s.check = true) (ht : t.IsPlaced)
  (hall : ∀ other, d.Loosened other → (Export.ofFormData s t other).isCompliant = true)

include hs ht hall

/-- Data can be changed so that a text stands at a given path, and nothing below it. -/
theorem exists_loosened_text {path : String} (hpath : path ∈ t.textPaths s) :
    ∃ other, (∀ id, other.rows id = d.rows id) ∧ other.signature = some probe ∧
      ∀ more, more ≠ [] →
        follow? (Path.segments path ++ more) (ofFormData s t other).body = none := by
  obtain ⟨other, hloosened, hrows, hvalue⟩ := d.exists_loosened_value path
  refine ⟨other.sign probe, hrows, rfl, fun more hmore => ?_⟩
  obtain ⟨content, hne, hread⟩ := exists_text_body hs ht (d := other.sign probe) rfl
    (by decide) hpath hvalue (hall _ (hloosened.sign probe))
  exact follow?_below_text hread hne hmore

theorem not_isAbove_of_loosened {p q : String} (hp : p ∈ t.textPaths s) (hq : q ∈ t.bodyPaths s) :
    ¬ Path.IsAbove p q := by
  intro habove
  obtain ⟨more, hne, hmore⟩ := habove.exists_more
  obtain ⟨other, -, hsig, hnone⟩ := exists_loosened_text hs ht hall hp
  have hsome := isSome_follow?_body ht hsig hq
  rw [← hmore, hnone more hne] at hsome
  exact absurd hsome (by simp)

theorem path_not_mem_of_loosened {e : String × Table} (he : e ∈ t.tables)
    (hrows : d.rows e.2.id ≠ []) : e.2.path ∉ t.textPaths s := by
  intro hpath
  obtain ⟨other, hsame, -, hnone⟩ := exists_loosened_text hs ht hall hpath
  obtain ⟨r, hr⟩ : ∃ r, r ∈ placedRows other e.2 := by
    apply List.exists_mem_of_length_pos
    rw [length_placedRows, hsame]
    exact List.length_pos_iff.2 hrows
  have hsome := Edit.isSome_follow?_of_mem_nodes (tableEdit_mem_edits (s := s) (d := other) ht he)
    (List.mem_map_of_mem (f := rowNode s) hr) (start s t other).body
  rw [← body_ofFormData] at hsome
  have hbelow := hnone [(rowNode s r).name] (by simp)
  rw [show (tableEdit s other e.2).path = Path.segments e.2.path from rfl, hbelow] at hsome
  exact absurd hsome (by simp)

/-- An emptied table shows what looks like one of its rows. -/
theorem not_through_row_of_loosened {p q : String} (hp : p ∈ t.tablePaths)
    (hq : q ∈ t.bodyPaths s) :
    ¬ Path.segments p ++ [s.document.rowElement] <+: Path.segments q := by
  intro hbegins
  obtain ⟨e, he, rfl⟩ := List.mem_map.1 hp
  have hc := hall _ ((d.loosened_putRows e.2.id).sign probe)
  have hempty : ((d.putRows e.2.id []).sign probe).rows e.2.id = [] := by
    show (d.putRows e.2.id []).rows e.2.id = []
    rw [FormData.rows_putRows, if_pos rfl]
  -- the path of `q` leads through a child that is named like a row
  have hsome := Node.isSome_follow?_of_prefix hbegins
    (isSome_follow?_body ht (d := (d.putRows e.2.id []).sign probe) rfl hq)
  rw [Node.follow?_append] at hsome
  cases hfound : follow? (Path.segments e.2.path)
      (ofFormData s t ((d.putRows e.2.id []).sign probe)).body with
  | none => rw [hfound] at hsome; exact absurd hsome (by simp)
  | some found =>
    have hnone := childrenNamed_of_isCompliant hs ht hc he hempty hfound
    rw [hfound, Option.bind_some, follow?, Node.child?_of_childrenNamed hnone] at hsome
    exact absurd hsome (by simp)

/-- Inside a first row a text hides what is below it. -/
theorem not_isAbove_row_of_loosened {e : String × Table} (he : e ∈ t.tables)
    (hrows : d.rows e.2.id ≠ []) {f g : Field} (hf : f ∈ e.2.rowTemplate)
    (hg : g ∈ e.2.rowTemplate) : ¬ Path.IsAbove f.path g.path := by
  intro habove
  obtain ⟨more, hne, hmore⟩ := habove.exists_more
  obtain ⟨other, row, value, hloosened, hrow, hvalue, hfilled⟩ :=
    FormData.exists_loosened_row hrows f.path
  have hplaced : placedRow e.2 1 row ∈ placedRows other e.2 := by
    apply List.mem_of_getElem? (i := 0)
    rw [getElem?_placedRows, hrow]
    rfl
  have hrecovered := isRecovered_rows_of_isCompliant hs ht
    (fun p hp q hq => not_through_row_of_loosened hs ht hall hp hq) (hall _ hloosened) he _ hplaced
  -- the text at the path of `f` is read from the row
  obtain ⟨first, hfirst, hpath⟩ := exists_find?_path hf
  have htext := hrecovered.values _ (mem_values_placedRow (ht.rows e he f hf) hfirst)
  have htext' : (Recovered.texts (rowNode s (placedRow e.2 1 row)).tidy e.2.rowTemplate).find?
      f.path = some value := by
    rw [hvalue, hpath] at htext
    exact htext
  rw [Recovered.find?_texts, if_pos ⟨f, hf, rfl⟩] at htext'
  have hnone := follow?_below_text htext' hfilled hne
  -- and the path of `g` leads further on from there
  have hsome : (follow? (Path.segments g.path) (rowNode s (placedRow e.2 1 row))).isSome :=
    isSome_follow?_rowNode s (ht.rows e he g hg) hg
  rw [← hmore, hnone] at hsome
  exact absurd hsome (by simp)

/-- Where nothing can be brought out, nothing is in the way. -/
theorem isSeparated_of_loosened : t.IsSeparated s d where
  texts _ hp _ hq := not_isAbove_of_loosened hs ht hall hp hq
  rows _ hp _ hq := not_through_row_of_loosened hs ht hall hp hq
  tables _ he hrows := path_not_mem_of_loosened hs ht hall he hrows
  inner _ he hrows _ hf _ hg := not_isAbove_row_of_loosened hs ht hall he hrows hf hg

end Loosened

end Necessity

end Assembly

namespace Export

/-! ## The missing check -/

/-- For a template without errors, every export of valid data is compliant exactly when the layout
is separated for all valid data, whatever the rules. -/
theorem isCompliant_of_isValid_iff (t : Template) (ht : t.validate.isValid = true) :
    (∀ (rules : RuleBook) (d : FormData), d.FitsWords t → (d.validate {} t rules).isValid = true →
      (ofFormData {} t d).isCompliant = true) ↔
    ∀ (rules : RuleBook) (d : FormData), d.FitsWords t → (d.validate {} t rules).isValid = true →
      t.IsSeparated {} d := by
  have hs : Settings.check {} = true := by decide
  have hplaced := Template.isPlaced_of_isValid ht
  constructor
  · intro h rules d hfits hvalid
    refine Assembly.isSeparated_of_loosened hs hplaced fun other hloosened => ?_
    refine h [] other (hloosened.fitsWords hfits) (hloosened.isValid ?_)
    exact FormData.isValid_validate_nil hvalid
  · intro h rules d hfits hvalid
    exact Assembly.isCompliant_of_isSeparated hs hplaced (h rules d hfits hvalid) hfits

theorem isCompliant_of_isValid_smallForm : smallForm.validate.isValid = true ∧
    ∀ (rules : RuleBook) (d : FormData), d.FitsWords smallForm →
      (d.validate {} smallForm rules).isValid = true →
        (ofFormData {} smallForm d).isCompliant = true :=
  have ht : smallForm.validate.isValid = true := by decide +kernel
  ⟨ht, (isCompliant_of_isValid_iff smallForm ht).2 fun _ d _ _ => isApart_smallForm.isSeparated d⟩

/-- A form in which the path of one field leads through that of another. -/
def nestedForm : Template where
  version := "1"
  formCode := "01/GTGT"
  sections := [⟨"header", .static [
    { id := "a", path := "A", control := .text, controlCode := "0" },
    { id := "b", path := "A/B", control := .text, controlCode := "0" }]⟩]

/-- Data for it, with both values. -/
def nestedData : FormData where
  values := KeyMap.ofList [("A", "x"), ("A/B", "y")]

/-- Form and data are valid, and the export is not compliant. -/
theorem not_isCompliant_nestedData :
    nestedForm.validate.isValid = true ∧ (nestedData.validate {} nestedForm []).isValid = true ∧
      (ofFormData {} nestedForm nestedData).isCompliant = false := by
  refine ⟨by decide +kernel, by decide +kernel, ?_⟩
  rw [← Bool.not_eq_true, isCompliant_iff_of_check (by decide)]
  rintro ⟨-, hcompare⟩
  have hlost : (Assembly.ofFormData {} nestedForm nestedData).plan.compareAll {} nestedForm
      (Recovered.ofBody {} nestedForm
        (Assembly.ofFormData {} nestedForm nestedData).body.tidy) =
      [⟨.mismatch, some "a", "A", some "x", some ""⟩] := by decide +kernel
  rw [hlost] at hcompare
  exact absurd hcompare (List.cons_ne_nil _ _)

end Export

end Filing
