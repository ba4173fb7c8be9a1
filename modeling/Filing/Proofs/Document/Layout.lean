import Filing.Proofs.Document.Compliance
import Filing.Proofs.Document.Lookups
import Filing.Proofs.Text.Numbers

/-!
# Layouts in which nothing is in the way

Static fields, tables and the signature share one tree. What is written at one place can hide what
is written at another: a text beside children is not written, a path can lead through a row, and an
element made on the way to a field can look like a row. In a *separated* layout none of this
happens, and then the export is compliant.
-/

namespace Filing

open Text (maxWord32 maxWord64)
open Xml (Edit Node)
open Xml.Node (follow? reach)

/-- One path leads through the other and on from there. -/
def Path.IsAbove (path other : String) : Prop :=
  Path.segments path <+: Path.segments other ∧ path ≠ other

instance (path other : String) : Decidable (Path.IsAbove path other) :=
  inferInstanceAs (Decidable (_ ∧ _))

theorem Path.IsAbove.exists_more {path other : String} (h : Path.IsAbove path other) :
    ∃ more, more ≠ [] ∧ Path.segments path ++ more = Path.segments other := by
  obtain ⟨⟨more, hmore⟩, hne⟩ := h
  refine ⟨more, ?_, hmore⟩
  rintro rfl
  exact hne (Path.segments_injective (by rw [← hmore, List.append_nil]))

namespace Template

/-- The paths at which texts are written: those of static fields and of the signature. -/
def textPaths (s : Settings) (t : Template) : List String :=
  t.staticFields.map (·.path) ++ [s.document.signingDatePath, s.document.signerPath]

/-- The paths of the tables. -/
def tablePaths (t : Template) : List String := t.tables.map (·.2.path)

/-- All paths below the body. -/
def bodyPaths (s : Settings) (t : Template) : List String := t.textPaths s ++ t.tablePaths

/-- Every path has a place, and no two tables share a path or an id. -/
structure IsPlaced (t : Template) : Prop where
  statics : ∀ f ∈ t.staticFields, Path.isResolvable f.path = true
  tables : ∀ e ∈ t.tables, Path.isResolvable e.2.path = true
  rows : ∀ e ∈ t.tables, ∀ f ∈ e.2.rowTemplate, Path.isResolvable f.path = true
  ids : (t.tables.map (·.2.id)).Nodup
  paths : t.tablePaths.Nodup

/-- Nothing is in the way of anything else, as far as the data has rows. -/
structure IsSeparated (s : Settings) (t : Template) (d : FormData) : Prop where
  /-- No text has elements below it. -/
  texts : ∀ p ∈ t.textPaths s, ∀ q ∈ t.bodyPaths s, ¬ Path.IsAbove p q
  /-- No path leads through a row. -/
  rows : ∀ p ∈ t.tablePaths, ∀ q ∈ t.bodyPaths s,
    ¬ Path.segments p ++ [s.document.rowElement] <+: Path.segments q
  /-- No text stands where the rows of a table are. -/
  tables : ∀ e ∈ t.tables, d.rows e.2.id ≠ [] → e.2.path ∉ t.textPaths s
  /-- Inside a row no text has elements below it. -/
  inner : ∀ e ∈ t.tables, d.rows e.2.id ≠ [] →
    ∀ f ∈ e.2.rowTemplate, ∀ g ∈ e.2.rowTemplate, ¬ Path.IsAbove f.path g.path

end Template

/-- The numbers of data and form fit into machine words: the first rows of a table into 32 bits, and
the number of rows into 63, so that ordinals and row numbers stay below 64. -/
def FormData.FitsWords (t : Template) (d : FormData) : Prop :=
  ∀ e ∈ t.tables, e.2.offsets.template ≤ maxWord32 ∧ e.2.offsets.report ≤ maxWord32 ∧
    (d.rows e.2.id).length ≤ maxWord64 / 2

namespace Assembly

/-! ## The edits of a body -/

section Edits

variable {s : Settings} {t : Template} {d : FormData}

/-- Each edit puts a text of a field or of the signature, or appends the rows of a table. -/
theorem cases_of_mem_edits {e : Edit} (he : e ∈ edits s t d) :
    (∃ p ∈ t.textPaths s, ∃ content, e = .text (Path.segments p) content) ∨
      ∃ entry ∈ t.tables, e = tableEdit s d entry.2 := by
  rcases mem_edits.1 he with ⟨f, hf, rfl⟩ | ⟨entry, hentry, rfl⟩ | ⟨signature, -, he⟩
  · refine .inl ⟨f.path, List.mem_append_left _ ?_, _, rfl⟩
    exact List.mem_map_of_mem (mem_of_mem_firstFields hf).1
  · exact .inr ⟨entry, (List.mem_filter.1 hentry).1, rfl⟩
  · rcases mem_signatureEdits.1 he with ⟨-, rfl⟩ | ⟨-, rfl⟩
    · exact .inl ⟨s.document.signingDatePath, List.mem_append_right _ (by simp), _, rfl⟩
    · exact .inl ⟨s.document.signerPath, List.mem_append_right _ (by simp), _, rfl⟩

/-- The first static field at a path is written. -/
theorem staticEdit_mem_edits (ht : t.IsPlaced) {path : String} {f : Field}
    (hf : t.staticFieldAt? path = some f) : staticEdit d f ∈ edits s t d := by
  obtain ⟨hmem, rfl⟩ := of_find?_path hf
  exact mem_edits.2 (.inl ⟨f, mem_firstFields_of_find? (ht.statics f hmem) hf, rfl⟩)

/-- Every table is written. -/
theorem tableEdit_mem_edits (ht : t.IsPlaced) {entry : String × Table} (hentry : entry ∈ t.tables) :
    tableEdit s d entry.2 ∈ edits s t d :=
  mem_edits.2 (.inr (.inl ⟨entry, List.mem_filter.2 ⟨hentry, ht.tables entry hentry⟩, rfl⟩))

/-- The parts of a signature are written where no field stands. -/
theorem signingEdits_mem_edits {signature : Signature} (hsig : d.signature = some signature) :
    (isUnclaimed t s.document.signingDatePath = true →
      .text (Path.segments s.document.signingDatePath) signature.date.dayFirstText ∈
        edits s t d) ∧
    (isUnclaimed t s.document.signerPath = true →
      .text (Path.segments s.document.signerPath) signature.signer ∈ edits s t d) := by
  constructor
  · intro hfree
    exact mem_edits.2 (.inr (.inr ⟨signature, hsig, mem_signatureEdits.2 (.inl ⟨hfree, rfl⟩)⟩))
  · intro hfree
    exact mem_edits.2 (.inr (.inr ⟨signature, hsig, mem_signatureEdits.2 (.inr ⟨hfree, rfl⟩)⟩))

/-- Without a field, a path for texts is one of those of the signature. -/
theorem eq_of_mem_textPaths {path : String} (hpath : path ∈ t.textPaths s)
    (hfield : t.staticFieldAt? path = none) :
    path = s.document.signingDatePath ∨ path = s.document.signerPath := by
  rcases List.mem_append.1 hpath with hpath | hpath
  · obtain ⟨f, hf, rfl⟩ := List.mem_map.1 hpath
    exact absurd (by simp) (List.find?_eq_none.1 hfield f hf)
  · simpa using hpath

theorem path_mem_tablePaths {entry : String × Table} (hentry : entry ∈ t.tables) :
    entry.2.path ∈ t.tablePaths :=
  List.mem_map_of_mem (f := fun e : String × Table => e.2.path) hentry

theorem appendsOnly_edits {e : Edit} (he : e ∈ edits s t d) :
    e.AppendsOnly s.document.rowElement := by
  intro node hnode
  rcases cases_of_mem_edits he with ⟨p, -, content, rfl⟩ | ⟨entry, -, rfl⟩
  · exact absurd hnode List.not_mem_nil
  · obtain ⟨r, -, rfl⟩ := List.mem_map.1 hnode
    exact name_rowNode s r

/-- The texts of the static fields go to different paths. -/
theorem pairwise_apart_statics : ((firstFields t.staticFields).map (staticEdit d)).Pairwise
    Edit.Apart := by
  rw [List.pairwise_map]
  refine (List.pairwise_map.1 (nodup_firstFields t.staticFields)).imp fun hne _ heq => ?_
  exact hne (Path.segments_injective heq)

/-- So do the rows of the tables. -/
theorem pairwise_apart_tables (hpaths : t.tablePaths.Nodup) :
    ((placedTables t.tables).map (tableEdit s d ·.2)).Pairwise Edit.Apart := by
  have hsub : (placedTables t.tables).Pairwise fun e e' => e.2.path ≠ e'.2.path :=
    (List.pairwise_map.1 hpaths).sublist List.filter_sublist
  rw [List.pairwise_map]
  refine hsub.imp fun hne _ heq => ?_
  exact hne (Path.segments_injective heq)

/-- So do the parts of the signature. -/
theorem pairwise_apart_signature (hs : s.check = true) (signature : Signature) :
    (signatureEdits s t signature).Pairwise Edit.Apart := by
  have hpart : ∀ path text, (signingEdit t path text).Pairwise Edit.Apart := by
    intro path text
    unfold signingEdit
    split
    · exact List.pairwise_singleton _ _
    · exact List.Pairwise.nil
  refine List.pairwise_append.2 ⟨hpart _ _, hpart _ _, fun e he e' he' _ heq => ?_⟩
  obtain ⟨-, rfl⟩ := mem_signingEdit.1 he
  obtain ⟨-, rfl⟩ := mem_signingEdit.1 he'
  exact (Settings.of_check hs).2.2 (Path.segments_injective heq)

/-- A text of the signature is apart from what fields and tables write. -/
theorem apart_of_mem_signatureEdits {signature : Signature} {e e' : Edit}
    (he : e ∈ (firstFields t.staticFields).map (staticEdit d) ++
      (placedTables t.tables).map (tableEdit s d ·.2))
    (he' : e' ∈ signatureEdits s t signature) : e.Apart e' := by
  obtain ⟨p, content, hfree, rfl⟩ : ∃ p content, isUnclaimed t p = true ∧
      e' = .text (Path.segments p) content := by
    rcases mem_signatureEdits.1 he' with ⟨hfree, rfl⟩ | ⟨hfree, rfl⟩
    · exact ⟨_, _, hfree, rfl⟩
    · exact ⟨_, _, hfree, rfl⟩
  intro hkind heq
  rcases List.mem_append.1 he with he | he
  · -- a static field at the path would claim it
    obtain ⟨f, hf, rfl⟩ := List.mem_map.1 he
    obtain rfl : f.path = p := Path.segments_injective heq
    rw [isUnclaimed, Option.isNone_iff_eq_none, Template.staticFieldAt?] at hfree
    exact absurd (by simp) (List.find?_eq_none.1 hfree f (mem_of_mem_firstFields hf).1)
  · obtain ⟨entry, -, rfl⟩ := List.mem_map.1 he
    exact absurd hkind (by simp [tableEdit, Edit.isText])

/-- Texts go to different paths, and so do the rows of different tables. -/
theorem pairwise_apart_edits (hs : s.check = true) (hpaths : t.tablePaths.Nodup) :
    (edits s t d).Pairwise Edit.Apart := by
  have hfront : ((firstFields t.staticFields).map (staticEdit d) ++
      (placedTables t.tables).map (tableEdit s d ·.2)).Pairwise Edit.Apart := by
    refine List.pairwise_append.2
      ⟨pairwise_apart_statics, pairwise_apart_tables hpaths, fun e he e' he' hkind => ?_⟩
    obtain ⟨f, -, rfl⟩ := List.mem_map.1 he
    obtain ⟨entry, -, rfl⟩ := List.mem_map.1 he'
    exact absurd hkind (by simp [staticEdit, tableEdit, Edit.isText])
  unfold edits
  cases d.signature with
  | none => exact (List.append_nil _).symm ▸ hfront
  | some signature =>
    exact List.pairwise_append.2 ⟨hfront, pairwise_apart_signature hs signature,
      fun _ he _ he' => apart_of_mem_signatureEdits he he'⟩

end Edits

/-! ## What is found in the body -/

section Body

variable {s : Settings} {t : Template} {d : FormData} (hs : s.check = true) (ht : t.IsPlaced)

theorem children_start : (start s t d).body.children = [] := rfl

include hs ht

/-- A text that is written is found, when no text has elements below it and no rows stand at its
path. -/
theorem find?_body_of_text (hsep : t.IsSeparated s d) {path content : String}
    (hmem : .text (Path.segments path) content ∈ edits s t d) (hpath : path ∈ t.textPaths s) :
    ∃ found, (ofFormData s t d).body.find? path = some found ∧ found.text = content ∧
      found.children = [] := by
  obtain ⟨before, after, hsplit, hothers⟩ :=
    Edit.exists_split_of_pairwise (pairwise_apart_edits hs ht.paths) hmem
  rw [body_ofFormData, hsplit, Node.find?]
  refine Edit.follow?_applyAll_text (fun e he => appendsOnly_edits (hothers e he).1)
    (fun e he => ?_) (Node.children_reach_of_children children_start _)
  obtain ⟨he, hapart⟩ := hothers e he
  rcases cases_of_mem_edits he with ⟨q, hq, content', rfl⟩ | ⟨entry, hentry, rfl⟩
  · refine ⟨fun hthrough => ?_, fun hnodes => absurd rfl hnodes⟩
    have hne : path ≠ q := by
      rintro rfl
      exact hapart rfl rfl
    exact absurd ⟨hthrough, hne⟩ (hsep.texts path hpath q (List.mem_append_left _ hq))
  · have htable := path_mem_tablePaths hentry
    refine ⟨fun hthrough => ?_, fun _ => ?_⟩
    · have heq : path = entry.2.path := by
        by_contra hne
        exact hsep.texts path hpath entry.2.path (List.mem_append_right _ htable) ⟨hthrough, hne⟩
      have hnorows : d.rows entry.2.id = [] := by
        by_contra hrows
        exact hsep.tables entry hentry hrows (heq ▸ hpath)
      refine ⟨by rw [heq]; rfl, Path.segments entry.2.path, ?_⟩
      simp [tableEdit, placedRows, hnorows]
    · exact hsep.rows entry.2.path htable path (List.mem_append_left _ hpath)

/-- The rows of a table are found, and none besides, when no path leads through a row. -/
theorem find?_body_of_table
    (hrows : ∀ p ∈ t.tablePaths, ∀ q ∈ t.bodyPaths s,
      ¬ Path.segments p ++ [s.document.rowElement] <+: Path.segments q)
    {entry : String × Table} (hentry : entry ∈ t.tables) :
    ∃ found, (ofFormData s t d).body.find? entry.2.path = some found ∧
      found.childrenNamed s.document.rowElement = (placedRows d entry.2).map (rowNode s) := by
  obtain ⟨before, after, hsplit, hothers⟩ :=
    Edit.exists_split_of_pairwise (pairwise_apart_edits hs ht.paths)
      (tableEdit_mem_edits ht hentry)
  have hpath := path_mem_tablePaths hentry
  rw [body_ofFormData, hsplit, Node.find?]
  refine Edit.follow?_applyAll_append (fun node hnode => ?_)
    (fun e he => appendsOnly_edits (hothers e he).1) (fun e he => ?_)
    (Node.children_reach_of_children children_start _)
  · obtain ⟨r, -, rfl⟩ := List.mem_map.1 hnode
    exact name_rowNode s r
  · obtain ⟨he, hapart⟩ := hothers e he
    rcases cases_of_mem_edits he with ⟨q, hq, content, rfl⟩ | ⟨other, hother, rfl⟩
    · exact ⟨hrows _ hpath q (List.mem_append_left _ hq), fun _ => rfl,
        fun hnodes => absurd rfl hnodes⟩
    · have hq := path_mem_tablePaths hother
      exact ⟨hrows _ hpath _ (List.mem_append_right _ hq), fun heq => absurd heq.symm (hapart rfl),
        fun _ => hrows _ hq _ (List.mem_append_right _ hpath)⟩

omit hs ht in
/-- Where nothing is written and nothing goes through, nothing is found. -/
theorem find?_body_eq_none {path : String} (hres : Path.isResolvable path = true)
    (hthrough : ∀ e ∈ edits s t d, ¬ Path.segments path <+: e.path)
    (hrows : ∀ p ∈ t.tablePaths,
      ¬ Path.segments p ++ [s.document.rowElement] <+: Path.segments path) :
    (ofFormData s t d).body.find? path = none := by
  rw [body_ofFormData, Node.find?, Edit.follow?_applyAll_of_not_through
    (fun e => appendsOnly_edits) hthrough]
  · exact Node.follow?_eq_none_of_children children_start (Path.segments_ne_nil hres)
  · intro e he hnodes
    rcases cases_of_mem_edits he with ⟨q, -, content, rfl⟩ | ⟨other, hother, rfl⟩
    · exact absurd rfl hnodes
    · exact hrows _ (path_mem_tablePaths hother)

end Body

/-! ## What is found in a row -/

section Row

variable {s : Settings} {table : Table} {ordinal : Nat} {row : Row}

/-- A value of a row is found when no text of the row has elements below it. -/
theorem find?_rowNode
    (hinner : ∀ f ∈ table.rowTemplate, ∀ g ∈ table.rowTemplate, ¬ Path.IsAbove f.path g.path)
    {p : Placed} (hp : p ∈ (placedRow table ordinal row).values) :
    ∃ found, (rowNode s (placedRow table ordinal row)).find? p.field.path = some found ∧
      found.text = p.value ∧ found.children = [] := by
  have hpairwise : (rowEdits (placedRow table ordinal row)).Pairwise Edit.Apart := by
    unfold rowEdits placedRow
    rw [List.map_map, List.pairwise_map]
    refine (List.pairwise_map.1 (nodup_firstFields table.rowTemplate)).imp fun hne _ heq => ?_
    exact hne (Path.segments_injective heq)
  obtain ⟨before, after, hsplit, hothers⟩ :=
    Edit.exists_split_of_pairwise hpairwise (List.mem_map.2 ⟨p, hp, rfl⟩)
  have hfield : ∀ q ∈ (placedRow table ordinal row).values, q.field ∈ table.rowTemplate := by
    intro q hq
    obtain ⟨f, hf, rfl⟩ := List.mem_map.1 hq
    exact (mem_of_mem_firstFields hf).1
  have htexts : ∀ e ∈ before ++ after, e.AppendsOnly s.document.rowElement := by
    intro e he node hnode
    obtain ⟨q, -, rfl⟩ := List.mem_map.1 (hothers e he).1
    exact absurd hnode List.not_mem_nil
  rw [rowNode_eq, hsplit, Node.find?]
  refine Edit.follow?_applyAll_text htexts (fun e he => ?_) (Node.children_reach_of_children rfl _)
  · obtain ⟨hmem, hapart⟩ := hothers e he
    obtain ⟨q, hq, rfl⟩ := List.mem_map.1 hmem
    refine ⟨fun hthrough => ?_, fun hnodes => absurd rfl hnodes⟩
    have hne : p.field.path ≠ q.field.path := by
      intro heq
      exact hapart rfl (congrArg Path.segments heq)
    exact absurd ⟨hthrough, hne⟩ (hinner _ (hfield p hp) _ (hfield q hq))

theorem ordinal?_rowId {n : Nat} (h : n ≤ maxWord64) :
    Recovered.ordinal? s!"{Recovered.rowIdStart}{n}" = some n := by
  have hlist : (s!"{Recovered.rowIdStart}{n}" : String).toList =
      Recovered.rowIdStart.toList ++ Nat.toDigits 10 n := by
    show (Recovered.rowIdStart ++ String.ofList (Nat.toDigits 10 n)).toList = _
    rw [String.toList_append, String.toList_ofList]
  have hstart : Recovered.rowIdStart.toList.isPrefixOf?
      (Recovered.rowIdStart.toList ++ Nat.toDigits 10 n) = some (Nat.toDigits 10 n) := by
    simp [Recovered.rowIdStart, List.isPrefixOf?]
  unfold Recovered.ordinal?
  rw [hlist, hstart, Option.bind_some]
  exact Text.natural?_ofList_toDigits h

theorem natural?_toString {n : Nat} (h : n ≤ maxWord64) :
    Text.natural? maxWord64 (Text.trim (toString n)) = some n := by
  show Text.natural? maxWord64 (Text.trim (String.ofList (Nat.toDigits 10 n))) = some n
  rw [Text.trim_ofList_toDigits]
  exact Text.natural?_ofList_toDigits h

/-- The attributes of a row are its ordinal and its two numbers. -/
theorem attr?_rowNode (r : PlacedRow) :
    (rowNode s r).tidy.attr? "id" = some s!"{Recovered.rowIdStart}{r.ordinal}" ∧
      (rowNode s r).tidy.attr? "templateRow" = some (toString r.templateRow) ∧
      (rowNode s r).tidy.attr? "reportRow" = some (toString r.reportRow) := by
  unfold Node.attr?
  rw [Node.attrs_tidy, attrs_rowNode]
  exact ⟨rfl, rfl, rfl⟩

/-- A row is read back as it was written. -/
theorem isRecovered_row
    (hinner : ∀ f ∈ table.rowTemplate, ∀ g ∈ table.rowTemplate, ¬ Path.IsAbove f.path g.path)
    (hordinal : ordinal ≤ maxWord64) (htemplate : table.offsets.template + ordinal ≤ maxWord64)
    (hreport : table.offsets.report + ordinal ≤ maxWord64) :
    (placedRow table ordinal row).IsRecovered
      (Recovered.row table.rowTemplate (rowNode s (placedRow table ordinal row)).tidy) := by
  obtain ⟨hid, hfirst, hsecond⟩ := attr?_rowNode (s := s) (placedRow table ordinal row)
  constructor
  · have hnumber : (placedRow table ordinal row).ordinal ≤ maxWord64 := hordinal
    show (Node.attr? _ "id").bind Recovered.ordinal? = some (placedRow table ordinal row).ordinal
    rw [hid, Option.bind_some, ordinal?_rowId hnumber]
  · have hnumber : (placedRow table ordinal row).templateRow ≤ maxWord64 :=
      show table.offsets.template + (ordinal - 1) ≤ maxWord64 by omega
    show (Node.attr? _ "templateRow").bind _ = some (placedRow table ordinal row).templateRow
    rw [hfirst, Option.bind_some, natural?_toString hnumber]
  · have hnumber : (placedRow table ordinal row).reportRow ≤ maxWord64 :=
      show table.offsets.report + (ordinal - 1) ≤ maxWord64 by omega
    show (Node.attr? _ "reportRow").bind _ = some (placedRow table ordinal row).reportRow
    rw [hsecond, Option.bind_some, natural?_toString hnumber]
  · intro p hp
    have htext := Node.text_find?_tidy (find?_rowNode (s := s) hinner hp)
    obtain ⟨f, hf, rfl⟩ := List.mem_map.1 hp
    show (Recovered.texts _ _).find? _ = _
    rw [Recovered.find?_texts, if_pos ⟨f, (mem_of_mem_firstFields hf).1, rfl⟩]
    exact htext

end Row

/-! ## Separated layouts -/

section Separated

variable {s : Settings} {t : Template} {d : FormData} (hs : s.check = true) (ht : t.IsPlaced)
  (hsep : t.IsSeparated s d)

include hs ht hsep

/-- A text that is written is read. -/
theorem text_body_of_text {path content : String}
    (hmem : .text (Path.segments path) content ∈ edits s t d) (hpath : path ∈ t.textPaths s) :
    ((ofFormData s t d).body.tidy.find? path).map (·.text) = some content :=
  Node.text_find?_tidy (find?_body_of_text hs ht hsep hmem hpath)

/-- The value of a static field is read. -/
theorem find?_texts_body {path : String} {f : Field} (hf : t.staticFieldAt? path = some f) :
    (Recovered.texts (ofFormData s t d).body.tidy t.staticFields).find? path =
      some (valueFor f (d.value? path)) := by
  obtain ⟨hmem, rfl⟩ := of_find?_path hf
  rw [Recovered.find?_texts, if_pos ⟨f, hmem, rfl⟩]
  exact text_body_of_text hs ht hsep (staticEdit_mem_edits ht hf)
    (List.mem_append_left _ (List.mem_map_of_mem hmem))

/-- Both parts of a signature are read where no field stands. -/
theorem signingText_body {signature : Signature} (hsig : d.signature = some signature) :
    (isUnclaimed t s.document.signingDatePath = true →
      Recovered.signingText t (ofFormData s t d).body.tidy s.document.signingDatePath =
        some signature.date.dayFirstText) ∧
    (isUnclaimed t s.document.signerPath = true →
      Recovered.signingText t (ofFormData s t d).body.tidy s.document.signerPath =
        some signature.signer) := by
  have hread : ∀ path content, path ∈ t.textPaths s → isUnclaimed t path = true →
      .text (Path.segments path) content ∈ edits s t d →
      Recovered.signingText t (ofFormData s t d).body.tidy path = some content := by
    intro path content hpath hfree hmem
    rw [isUnclaimed, Option.isNone_iff_eq_none] at hfree
    rw [Recovered.signingText, hfree]
    exact text_body_of_text hs ht hsep hmem hpath
  obtain ⟨hdate, hsigner⟩ := signingEdits_mem_edits (s := s) (t := t) hsig
  exact ⟨fun hfree => hread _ _ (List.mem_append_right _ (by simp)) hfree (hdate hfree),
    fun hfree => hread _ _ (List.mem_append_right _ (by simp)) hfree (hsigner hfree)⟩

omit hsep in
/-- The rows of a table are read in order, and none besides. -/
theorem find?_tableRows_body
    (hrows : ∀ p ∈ t.tablePaths, ∀ q ∈ t.bodyPaths s,
      ¬ Path.segments p ++ [s.document.rowElement] <+: Path.segments q)
    {e : String × Table} (he : e ∈ t.tables) :
    (Recovered.tableRows s t (ofFormData s t d).body.tidy).find? e.2.id =
      some ((placedRows d e.2).map fun r =>
        Recovered.row e.2.rowTemplate (rowNode s r).tidy) := by
  obtain ⟨found, hfound, hnamed⟩ := find?_body_of_table hs ht hrows he
  rw [Node.find?] at hfound
  rw [Recovered.find?_tableRows ht.ids he, Node.find?, Node.follow?_tidy, hfound, Option.map_some,
    Option.map_some, Node.childrenNamed_tidy, hnamed, List.map_map, List.map_map]
  rfl

omit hs ht in
/-- Each row that is read is the one that was written. -/
theorem isRecovered_rows (hfits : d.FitsWords t) {e : String × Table} (he : e ∈ t.tables) :
    ∀ r ∈ placedRows d e.2, r.IsRecovered (Recovered.row e.2.rowTemplate (rowNode s r).tidy) := by
  intro r hr
  obtain ⟨i, row, hrow, rfl⟩ := exists_placedRow_of_mem hr
  have hlt : i < (d.rows e.2.id).length := (List.getElem?_eq_some_iff.1 hrow).1
  have hne : d.rows e.2.id ≠ [] := List.ne_nil_of_mem (List.mem_of_getElem? hrow)
  obtain ⟨htemplate, hreport, hlength⟩ := hfits e he
  have h32 : maxWord32 = 0xFFFFFFFF := rfl
  have h64 : maxWord64 = 0xFFFFFFFFFFFFFFFF := rfl
  refine isRecovered_row (hsep.inner e he hne) ?_ ?_ ?_
  · omega
  · omega
  · omega

/-- Everything that is assembled in a separated layout is found. -/
theorem isRecovered_of_isSeparated (hfits : d.FitsWords t) :
    (ofFormData s t d).plan.IsRecovered t (Recovered.ofBody s t (ofFormData s t d).body.tidy) := by
  have hattrs : (ofFormData s t d).body.tidy.attrs =
      [("formCode", t.formCode), ("templateVersion", t.version)] := by
    rw [Node.attrs_tidy, body_ofFormData, Edit.attrs_applyAll]
    rfl
  constructor
  · show Node.attr? _ _ = _
    rw [Node.attr?, hattrs]
    rfl
  · show Node.attr? _ _ = _
    rw [Node.attr?, hattrs]
    rfl
  · intro path p hp
    rw [find?_statics_ofFormData] at hp
    split at hp
    · obtain ⟨f, hf, rfl⟩ := Option.map_eq_some_iff.1 hp
      exact find?_texts_body hs ht hsep hf
    · exact absurd hp (by simp)
  · intro date hdate
    rw [ofFormData_eq] at hdate
    cases hsig : d.signature with
    | none => simp [hsig] at hdate
    | some signature =>
      by_cases hfree : isUnclaimed t s.document.signingDatePath = true
      · simp only [hsig, hfree, if_true, Option.map_some] at hdate
        rw [← hdate]
        exact (signingText_body hs ht hsep hsig).1 hfree
      · simp [hfree] at hdate
  · intro name hname
    rw [ofFormData_eq] at hname
    cases hsig : d.signature with
    | none => simp [hsig] at hname
    | some signature =>
      by_cases hfree : isUnclaimed t s.document.signerPath = true
      · simp only [hsig, hfree, if_true, Option.map_some] at hname
        rw [← hname]
        exact (signingText_body hs ht hsep hsig).2 hfree
      · simp [hfree] at hname
  · intro entry hentry
    rw [ofFormData_eq] at hentry
    obtain ⟨e, he, rfl⟩ := List.mem_map.1 hentry
    have hmem : e ∈ t.tables := (List.mem_filter.1 he).1
    show List.Forall₂ _ _ (((Recovered.tableRows s t _).find? e.2.id).getD [])
    rw [find?_tableRows_body hs ht hsep.rows hmem, Option.getD_some, List.forall₂_map_right_iff,
      List.forall₂_same]
    exact isRecovered_rows hsep hfits hmem

/-- In a separated layout every export is compliant. -/
theorem isCompliant_of_isSeparated (hfits : d.FitsWords t) :
    (Export.ofFormData s t d).isCompliant = true := by
  rw [Export.isCompliant_iff_of_check hs, WritePlan.compareAll_eq_nil_iff,
    discrepancies_ofFormData_eq_nil_iff]
  exact ⟨⟨ht.statics, fun e he => ⟨ht.tables e he, ht.rows e he⟩⟩,
    isRecovered_of_isSeparated hs ht hsep hfits⟩

end Separated

end Assembly

end Filing
