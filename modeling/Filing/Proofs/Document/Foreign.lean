import Filing.Proofs.Document.Layout
import Filing.Proofs.Xml.Insertion
import Filing.Proofs.Xml.ReadBack

/-!
# Foreign content

Whatever stands in a declaration without being part of the form is passed over. An element whose name
is on no path of the form, and is not that of a row, can stand anywhere below the body: on every path
the reader comes to the same places as without it, and it takes there only texts, attributes and the
children that are rows. What is inside the foreign element plays no part, and may well have the names
of fields, rows or bodies.

The element is put beside others. As the only child of an element it would take the text of that
element away.

Main statement: `ofText_eq_of_foreign`.
-/

namespace Filing

open Xml (Node)
open Xml.Node (Gains MayGain)

/-- No path of the form goes by the name, and rows have another one. -/
structure Template.IsForeign (s : Settings) (t : Template) (name : String) : Prop where
  /-- It is on no path below the body. -/
  paths : ∀ path ∈ t.bodyPaths s, name ∉ Path.segments path
  /-- It is on no path inside a row. -/
  inner : ∀ e ∈ t.tables, ∀ f ∈ e.2.rowTemplate, name ∉ Path.segments f.path
  /-- It is not the name of a row. -/
  row : name ≠ s.document.rowElement

/-- The second tree is the first one, a declaration, with `extra` put somewhere below a body. -/
inductive DeclarationGains (s : Settings) (extra : Node) : Node → Node → Prop where
  | below {attrs : List (String × String)} {text : String} {front back : List Node}
      {body other : Node} (hbody : body.name = s.document.body) (hgains : Gains extra body other) :
      DeclarationGains s extra ⟨s.document.root, attrs, text, front ++ body :: back⟩
        ⟨s.document.root, attrs, text, front ++ other :: back⟩

namespace DeclarationGains

variable {s : Settings} {extra root enriched : Node}

theorem name_eq (h : DeclarationGains s extra root enriched) :
    root.name = s.document.root ∧ enriched.name = s.document.root := by
  cases h
  exact ⟨rfl, rfl⟩

/-- The declaration has a body, and the other one has it too, as it was or with the element in it. -/
theorem exists_body (h : DeclarationGains s extra root enriched) :
    ∃ body other, root.child? s.document.body = some body ∧
      enriched.child? s.document.body = some other ∧ MayGain extra body other := by
  cases h with
  | @below attrs text front back body other hbody hgains =>
    have hreplaced : List.Forall₂ (MayGain extra) (front ++ body :: back)
        (front ++ other :: back) := Xml.Node.forall₂_replace (.single hgains)
    have hrel := Xml.Node.rel_find?_name hreplaced s.document.body
    have hsome : ((front ++ body :: back).find? (·.name == s.document.body)).isSome :=
      List.find?_isSome.2 ⟨body, by simp, by simpa using hbody⟩
    obtain ⟨first, hfirst⟩ := Option.isSome_iff_exists.1 hsome
    rw [hfirst] at hrel
    unfold Node.child?
    generalize (front ++ other :: back).find? (·.name == s.document.body) = found at hrel ⊢
    cases hrel with
    | some hgains => exact ⟨first, _, hfirst, rfl, hgains⟩

theorem hasElementNames (h : DeclarationGains s extra root enriched)
    (hroot : root.HasElementNames) (hextra : extra.HasElementNames) :
    enriched.HasElementNames := by
  cases h with
  | below _ hgains =>
    exact (Gains.deeper hgains).hasElementNames hextra hroot

/-- What comes back from the documents of the two is again such a pair. -/
theorem reread (h : DeclarationGains s extra root enriched) :
    DeclarationGains s extra.reread root.reread enriched.reread := by
  cases h with
  | @below attrs text front back body other hbody hgains =>
    rw [Xml.Node.reread_append_cons, Xml.Node.reread_append_cons]
    exact .below (by rw [Xml.Node.name_reread, hbody]) hgains.reread

end DeclarationGains

namespace Recovered

variable {s : Settings} {t : Template} {extra : Node}

/-! ## What is found below an element -/

section Found

variable {node other : Node} (h : MayGain extra node other)

include h

theorem texts_eq_of_mayGain {fields : List Field}
    (hfields : ∀ f ∈ fields, extra.name ∉ Path.segments f.path) :
    texts other fields = texts node fields := by
  have htext : ∀ f ∈ fields, ((other.find? f.path).map fun n => (f.path, n.text)) =
      (node.find? f.path).map fun n => (f.path, n.text) := by
    intro f hf
    have hpath := congrArg (Option.map (f.path, ·)) (h.text_find? (hfields f hf))
    rwa [Option.map_map, Option.map_map] at hpath
  rw [texts, texts, List.filterMap_congr htext]

/-- A row with the element somewhere below it is read as the row without it. -/
theorem row_eq_of_mayGain {rowTemplate : List Field}
    (hfields : ∀ f ∈ rowTemplate, extra.name ∉ Path.segments f.path) :
    row rowTemplate other = row rowTemplate node := by
  rw [row, row, Node.attr?, Node.attr?, Node.attr?, Node.attr?, Node.attr?, Node.attr?,
    h.attrs_eq, texts_eq_of_mayGain h hfields]

theorem tableRows_eq_of_mayGain (hforeign : t.IsForeign s extra.name) :
    tableRows s t other = tableRows s t node := by
  refine congrArg KeyMap.ofList (List.filterMap_congr fun e he => ?_)
  have hpath : extra.name ∉ Path.segments e.2.path :=
    hforeign.paths _ (List.mem_append_right _ (List.mem_map_of_mem he))
  refine Xml.Node.map_eq_of_rel (fun container container' hcontainer => ?_) (h.find? hpath)
  have hrow : ∀ row row' : Node, MayGain extra row row' →
      Recovered.row e.2.rowTemplate row' = Recovered.row e.2.rowTemplate row :=
    fun _ _ hrow => row_eq_of_mayGain hrow (hforeign.inner e he)
  rw [Xml.Node.map_eq_of_forall₂ hrow (hcontainer.childrenNamed hforeign.row)]

theorem signingText_eq_of_mayGain {path : String} (hpath : extra.name ∉ Path.segments path) :
    signingText t other path = signingText t node path := by
  rw [signingText, signingText, h.text_find? hpath]

/-- A body with the element somewhere below it holds what it holds without it. -/
theorem ofBody_eq_of_mayGain (hforeign : t.IsForeign s extra.name) :
    ofBody s t other = ofBody s t node := by
  have htexts : ∀ path ∈ t.textPaths s, extra.name ∉ Path.segments path :=
    fun path hpath => hforeign.paths path (List.mem_append_left _ hpath)
  have hstatics : ∀ f ∈ t.staticFields, extra.name ∉ Path.segments f.path :=
    fun f hf => htexts _ (List.mem_append_left _ (List.mem_map_of_mem hf))
  have hsigner : extra.name ∉ Path.segments s.document.signerPath :=
    htexts _ (by simp [Template.textPaths])
  have hdate : extra.name ∉ Path.segments s.document.signingDatePath :=
    htexts _ (by simp [Template.textPaths])
  rw [ofBody, ofBody, Node.attr?, Node.attr?, Node.attr?, Node.attr?, h.attrs_eq,
    texts_eq_of_mayGain h hstatics, tableRows_eq_of_mayGain h hforeign,
    signingText_eq_of_mayGain h hsigner, signingText_eq_of_mayGain h hdate]

end Found

/-! ## Declarations -/

/-- Two documents that are read as a declaration without and with the element hold the same. -/
theorem ofText_eq_of_read {root enriched : Node} (h : DeclarationGains s extra root enriched)
    (hforeign : t.IsForeign s extra.name) {source other : String}
    (hsource : Xml.read source = .ok (some root)) (hother : Xml.read other = .ok (some enriched)) :
    ∃ r, ofText s t source = .ok r ∧ ofText s t other = .ok r := by
  obtain ⟨hroot, hroot'⟩ := h.name_eq
  obtain ⟨body, body', hbody, hbody', hgains⟩ := h.exists_body
  refine ⟨ofBody s t body, ?_, ?_⟩
  · rw [ofText, Xml.readRoot, hsource]
    simp only [if_pos hroot, hbody]
  · rw [ofText, Xml.readRoot, hother]
    simp only [if_pos hroot', hbody', ofBody_eq_of_mayGain hgains hforeign]

/-- Foreign content is passed over: a declaration with an element somewhere below the body whose name
has no meaning to the form holds what it holds without it. That is so for any two documents that are
read as the two trees, and the documents written for them can both be read. -/
theorem ofText_eq_of_foreign (s : Settings) (t : Template) {extra root enriched : Node}
    (h : DeclarationGains s extra root enriched) (hforeign : t.IsForeign s extra.name) :
    (∀ source other, Xml.read source = .ok (some root) → Xml.read other = .ok (some enriched) →
      ∃ r, ofText s t source = .ok r ∧ ofText s t other = .ok r) ∧
    (root.HasElementNames → extra.HasElementNames →
      ∃ r, ofText s t root.document = .ok r ∧ ofText s t enriched.document = .ok r) := by
  refine ⟨fun source other => ofText_eq_of_read h hforeign, fun hroot hextra => ?_⟩
  refine ofText_eq_of_read h.reread (by rwa [Xml.Node.name_reread]) ?_ ?_
  · exact Xml.read_document_eq_reread hroot
  · exact Xml.read_document_eq_reread (h.hasElementNames hroot hextra)

/-- A declaration with one row, in which there is room for more. -/
def declarationWith (more : List Node) : Node :=
  ⟨"HSoThueDTu", [], "", [⟨"HSoKhaiThue", [("formCode", "01/GTGT")], "", [⟨"A", [], "x", []⟩,
    ⟨"B", [], "", [⟨"Row", [("id", "ID_1")], "", ⟨"Q", [], "<1>", []⟩ :: more⟩]⟩]⟩]⟩

/-- A foreign element with a row and a field of a row inside, and a key that is repeated. -/
def note : Node :=
  ⟨"Note", [("id", "ID_7"), ("id", "ID_8")], "z",
    [⟨"Row", [("id", "ID_9")], "", []⟩, ⟨"Q", [], "2", []⟩]⟩

theorem ofText_eq_of_foreign_note :
    DeclarationGains {} note (declarationWith []) (declarationWith [note]) ∧
      Export.smallForm.IsForeign {} note.name ∧
      (declarationWith []).HasElementNames ∧ note.HasElementNames ∧
      ∃ r, ofText {} Export.smallForm (declarationWith []).document = .ok r ∧
        ofText {} Export.smallForm (declarationWith [note]).document = .ok r := by
  have hgains : DeclarationGains {} note (declarationWith []) (declarationWith [note]) :=
    @DeclarationGains.below {} note [] "" [] [] _ _ rfl <|
      @Gains.deeper note _ _ _ [⟨"A", [], "x", []⟩] [] _ _ <|
        @Gains.deeper note _ _ _ [] [] _ _ <|
          @Gains.here note _ _ _ [⟨"Q", [], "<1>", []⟩] [] (List.cons_ne_nil _ _)
  have hforeign : Export.smallForm.IsForeign {} note.name :=
    ⟨by decide, by decide, by decide⟩
  have hleaf : ∀ (name : String) (attrs : List (String × String)) (text : String),
      Path.isElementName name = true → (∀ a ∈ attrs, Path.isElementName a.1 = true) →
        Node.HasElementNames ⟨name, attrs, text, []⟩ :=
    fun name attrs text hname hkeys => .mk hname hkeys (List.forall_mem_nil _)
  have hfield : ∀ text, Node.HasElementNames ⟨"Q", [], text, []⟩ := fun text =>
    hleaf "Q" [] text (by decide +kernel) (List.forall_mem_nil _)
  have hroot : (declarationWith []).HasElementNames := by
    refine .mk (by decide +kernel) (List.forall_mem_nil _) (List.forall_mem_singleton.2 ?_)
    refine .mk (by decide +kernel) (by decide +kernel) (List.forall_mem_cons.2 ⟨?_, ?_⟩)
    · exact hleaf "A" [] "x" (by decide +kernel) (List.forall_mem_nil _)
    · refine List.forall_mem_singleton.2 ?_
      refine .mk (by decide +kernel) (List.forall_mem_nil _) (List.forall_mem_singleton.2 ?_)
      refine .mk (by decide +kernel) (by decide +kernel) (List.forall_mem_singleton.2 ?_)
      exact hfield "<1>"
  have hnote : note.HasElementNames := by
    refine .mk (by decide +kernel) (by decide +kernel) (List.forall_mem_cons.2 ⟨?_, ?_⟩)
    · exact hleaf "Row" [("id", "ID_9")] "" (by decide +kernel) (by decide +kernel)
    · exact List.forall_mem_singleton.2 (hfield "2")
  have hresult := (ofText_eq_of_foreign {} Export.smallForm hgains hforeign).2 hroot hnote
  exact ⟨hgains, hforeign, hroot, hnote, hresult⟩

end Recovered

end Filing
