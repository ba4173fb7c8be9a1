import Filing.Proofs.Xml.Pieces
import Filing.Proofs.Xml.Readable

/-!
# How elements nest

The reader keeps a stack of open elements. What it accepts is said here without a stack: an element
is the tag of an empty element, or a start tag, content and an end tag of the same name; content is
text, asides and elements. The pieces of an element take the reader from any state to the one in
which the element is attached; and whenever the innermost open element is closed in the end, the
pieces up to its end tag are content.

Main statements: `read_eq_ok_some_iff`, `read_eq_ok_none_iff`.
-/

namespace Filing.Xml

/-! ## Elements -/

/-- How the bodies of tags are read, as a name and attributes. -/
abbrev TagReading := List Char → String → List (String × String) → Prop

mutual

/-- The pieces are an element. Text beside child elements is not part of it. -/
inductive IsElement (tag : TagReading) : List Token → Node → Prop where
  | empty {body : List Char} {name : String} {attrs : List (String × String)}
    (htag : tag body name attrs) : IsElement tag [.emptyTag body] { name, attrs }
  | pair {body : List Char} {name : String} {attrs : List (String × String)}
    {content : List Token} {text : List Char} {children : List Node}
    (htag : tag body name attrs) (hcontent : IsContent tag content text children) :
    IsElement tag (.startTag body :: (content ++ [.endTag name.toList]))
      ⟨name, attrs, if children.isEmpty then String.ofList text else "", children⟩

/-- The pieces are what can stand in an element: text, asides and elements. -/
inductive IsContent (tag : TagReading) : List Token → List Char → List Node → Prop where
  | nil : IsContent tag [] [] []
  | text {raw plain text : List Char} {rest : List Token} {children : List Node}
    (hraw : unescape raw = .ok plain) (hrest : IsContent tag rest text children) :
    IsContent tag (.text raw :: rest) (plain ++ text) children
  | cdata {plain text : List Char} {rest : List Token} {children : List Node}
    (hrest : IsContent tag rest text children) :
    IsContent tag (.cdata plain :: rest) (plain ++ text) children
  | aside {text : List Char} {rest : List Token} {children : List Node}
    (hrest : IsContent tag rest text children) : IsContent tag (.aside :: rest) text children
  | child {element rest : List Token} {text : List Char} {child : Node} {children : List Node}
    (helement : IsElement tag element child) (hrest : IsContent tag rest text children) :
    IsContent tag (element ++ rest) text (child :: children)

end

/-- The tag of an element, however careless, as the reader takes it. -/
def ReadsTag : TagReading := fun body name attrs => elementOf body = .ok { name, attrs }

/-! ## Elements are read -/

namespace Pending

/-- Adds text and children to an open element. -/
def fill (p : Pending) (text : List Char) (children : List Node) : Pending where
  node := { p.node with text := p.node.text ++ String.ofList text }
  children := children.reverse ++ p.children

theorem fill_nil (p : Pending) : p.fill [] [] = p := by
  obtain ⟨⟨name, attrs, text, children⟩, before⟩ := p
  simp [fill]

theorem fill_fill (p : Pending) (text more : List Char) (children others : List Node) :
    (p.fill text children).fill more others = p.fill (text ++ more) (children ++ others) := by
  simp [fill, String.append_assoc]

theorem addText_eq_fill (p : Pending) (text : List Char) : p.addText text = p.fill text [] := rfl

theorem fill_child (p : Pending) (child : Node) :
    p.fill [] [child] = { p with children := child :: p.children } := by
  obtain ⟨⟨name, attrs, text, children⟩, before⟩ := p
  simp [fill]

theorem close_fill (name : String) (attrs : List (String × String)) (text : List Char)
    (children : List Node) : (fill ⟨{ name, attrs }, []⟩ text children).close =
      ⟨name, attrs, if children.isEmpty then String.ofList text else "", children⟩ := by
  have hclosed : ∀ before : List Node, (fill ⟨{ name, attrs }, []⟩ text before.reverse).close =
      ⟨name, attrs, if before.isEmpty then String.ofList text else "", before.reverse⟩ := by
    rintro (- | ⟨last, before⟩)
    · simp [fill, close]
    · simp [fill, close]
  have hchildren := hclosed children.reverse
  rwa [List.reverse_reverse, List.isEmpty_reverse] at hchildren

end Pending

mutual

/-- The pieces of an element attach it. -/
theorem IsElement.foldlM_step {element : List Token} {node : Node} :
    IsElement ReadsTag element node → ∀ st : Progress,
      element.foldlM Progress.step st = st.attach node
  | @IsElement.empty _ body name attrs htag, st => by
    have htag : elementOf body = .ok { name, attrs } := htag
    simp [Progress.step, htag]
  | @IsElement.pair _ body name attrs content text children htag hcontent, st => by
    have hopen : st.step (.startTag body) =
        .ok ⟨⟨{ name, attrs }, []⟩ :: st.pending, st.root⟩ := by
      have htag : elementOf body = .ok { name, attrs } := htag
      simp [Progress.step, htag]
    have hinner := hcontent.foldlM_step ⟨{ name, attrs }, []⟩ st.pending st.root
    have hclose : Progress.step
        ⟨Pending.fill ⟨{ name, attrs }, []⟩ text children :: st.pending, st.root⟩
          (.endTag name.toList) = st.attach
          ⟨name, attrs, if children.isEmpty then String.ofList text else "", children⟩ := by
      rw [← Pending.close_fill]
      simp [Progress.step, Pending.fill]
    rw [List.foldlM_cons, hopen]
    change (content ++ [Token.endTag name.toList]).foldlM Progress.step _ = _
    rw [List.foldlM_append, hinner]
    change [Token.endTag name.toList].foldlM Progress.step _ = _
    rw [List.foldlM_cons, hclose]
    exact bind_pure _

/-- The pieces of content fill the open element. -/
theorem IsContent.foldlM_step {content : List Token} {text : List Char} {children : List Node} :
    IsContent ReadsTag content text children → ∀ top below root,
      content.foldlM Progress.step ⟨top :: below, root⟩ =
        .ok ⟨top.fill text children :: below, root⟩
  | .nil, top, below, root => by
    rw [Pending.fill_nil]
    rfl
  | @IsContent.text _ raw plain _ _ _ hraw hrest, top, below, root => by
    have hstep : Progress.step ⟨top :: below, root⟩ (.text raw) =
        .ok ⟨top.fill plain [] :: below, root⟩ := by
      simp [Progress.step, hraw, Pending.addText_eq_fill]
    have hfill := hrest.foldlM_step (top.fill plain []) below root
    rw [Pending.fill_fill] at hfill
    exact foldlM_cons_eq_ok_iff.2 ⟨_, hstep, hfill⟩
  | @IsContent.cdata _ plain _ _ _ hrest, top, below, root => by
    have hfill := hrest.foldlM_step (top.fill plain []) below root
    rw [Pending.fill_fill] at hfill
    exact foldlM_cons_eq_ok_iff.2 ⟨_, rfl, hfill⟩
  | .aside hrest, top, below, root =>
    foldlM_cons_eq_ok_iff.2 ⟨_, rfl, hrest.foldlM_step top below root⟩
  | @IsContent.child _ _ _ _ child _ helement hrest, top, below, root => by
    have hfill := hrest.foldlM_step (top.fill [] [child]) below root
    rw [Pending.fill_fill, Pending.fill_child] at hfill
    rw [List.foldlM_append, helement.foldlM_step]
    exact hfill

end

/-! ## What is read are elements -/

theorem IsContent.append {tag : TagReading} {content : List Token} {text : List Char}
    {children : List Node} {rest : List Token} {more : List Char} {others : List Node} :
    IsContent tag content text children → IsContent tag rest more others →
      IsContent tag (content ++ rest) (text ++ more) (children ++ others)
  | .nil, hrest => hrest
  | .text hraw hcontent, hrest => by
    rw [List.append_assoc]
    exact .text hraw (hcontent.append hrest)
  | .cdata hcontent, hrest => by
    rw [List.append_assoc]
    exact .cdata (hcontent.append hrest)
  | .aside hcontent, hrest => .aside (hcontent.append hrest)
  | .child helement hcontent, hrest => by
    rw [List.append_assoc]
    exact .child helement (hcontent.append hrest)

/-- Where an element is open, a piece is content of it, opens another element in it, or is its end
tag. -/
theorem step_cases {piece : Token} {top : Pending} {below : List Pending} {root : Option Node}
    {st : Progress} (h : Progress.step ⟨top :: below, root⟩ piece = .ok st) :
    (∃ text children, IsContent ReadsTag [piece] text children ∧
      st = ⟨top.fill text children :: below, root⟩) ∨
    (∃ body name attrs, piece = .startTag body ∧ ReadsTag body name attrs ∧
      st = ⟨⟨{ name, attrs }, []⟩ :: top :: below, root⟩) ∨
    (piece = .endTag top.node.name.toList ∧ Progress.attach ⟨below, root⟩ top.close = .ok st) := by
  cases piece with
  | text raw =>
    simp only [Progress.step] at h
    split at h
    · next plain hraw =>
      obtain rfl := Except.ok.inj h
      exact .inl ⟨plain ++ [], [], .text hraw .nil, by
        rw [List.append_nil, Pending.addText_eq_fill]⟩
    · cases h
  | cdata plain =>
    obtain rfl := Except.ok.inj h
    exact .inl ⟨plain ++ [], [], .cdata .nil, by rw [List.append_nil, Pending.addText_eq_fill]⟩
  | aside =>
    obtain rfl := Except.ok.inj h
    exact .inl ⟨[], [], .aside .nil, by rw [Pending.fill_nil]⟩
  | emptyTag body =>
    simp only [Progress.step] at h
    split at h
    · next node htag =>
      obtain rfl := Except.ok.inj h
      obtain ⟨name, attrs, rfl, -⟩ := eq_of_elementOf htag
      exact .inl ⟨[], [{ name, attrs }], .child (.empty htag) .nil, by rw [Pending.fill_child]⟩
    · cases h
  | startTag body =>
    simp only [Progress.step] at h
    split at h
    · next node htag =>
      obtain rfl := Except.ok.inj h
      obtain ⟨name, attrs, rfl, -⟩ := eq_of_elementOf htag
      exact .inr (.inl ⟨body, name, attrs, rfl, htag, rfl⟩)
    · cases h
  | endTag found =>
    simp only [Progress.step] at h
    split at h
    · next hname => exact .inr (.inr ⟨by rw [hname, String.toList_ofList], h⟩)
    · cases h

/-- The pieces are the content of the innermost open element, its end tag, and others that are taken
up when it has been closed. -/
def Closes (pieces : List Token) (top : Pending) (below : List Pending) (root : Option Node)
    (st' : Progress) : Prop :=
  ∃ content text children rest, pieces = content ++ .endTag top.node.name.toList :: rest ∧
    IsContent ReadsTag content text children ∧
    ∃ st, Progress.attach ⟨below, root⟩ (top.fill text children).close = .ok st ∧
      rest.foldlM Progress.step st = .ok st'

theorem Closes.prepend {before pieces : List Token} {top : Pending} {below : List Pending}
    {root : Option Node} {st' : Progress} {text : List Char} {children : List Node}
    (h : Closes pieces (top.fill text children) below root st')
    (hbefore : IsContent ReadsTag before text children) :
    Closes (before ++ pieces) top below root st' := by
  obtain ⟨content, more, others, rest, rfl, hcontent, st, hattach, hrest⟩ := h
  rw [Pending.fill_fill] at hattach
  exact ⟨before ++ content, _, _, rest, by simp [Pending.fill], hbefore.append hcontent, st,
    hattach, hrest⟩

/-- If no element is open in the end, the innermost open one has been closed. -/
theorem closes_of_foldlM {pieces : List Token} {top : Pending} {below : List Pending}
    {root : Option Node} {st' : Progress}
    (h : pieces.foldlM Progress.step ⟨top :: below, root⟩ = .ok st') (hend : st'.pending = []) :
    Closes pieces top below root st' := by
  induction hn : pieces.length using Nat.strongRecOn generalizing pieces top below root with
  | _ n ih =>
    cases pieces with
    | nil =>
      obtain rfl := Except.ok.inj h
      cases hend
    | cons piece pieces =>
      obtain ⟨st₁, hstep, hrest⟩ := foldlM_cons_eq_ok_iff.1 h
      have hlength : pieces.length < n := by
        rw [← hn, List.length_cons]
        omega
      rcases step_cases hstep with ⟨text, children, hcontent, rfl⟩ |
        ⟨body, name, attrs, rfl, htag, rfl⟩ | ⟨rfl, hattach⟩
      · exact (ih _ hlength hrest rfl).prepend hcontent
      · -- The element that the tag opens is closed first, and the rest closes the one around it.
        obtain ⟨content, text, children, rest, rfl, hcontent, st₂, hattach, hfold⟩ :=
          ih _ hlength hrest rfl
        rw [Pending.close_fill] at hattach
        obtain rfl := Except.ok.inj hattach
        have hshorter : rest.length < n := by
          rw [List.length_append, List.length_cons] at hlength
          omega
        have hclosed := ih _ hshorter hfold rfl
        rw [← Pending.fill_child] at hclosed
        simpa using hclosed.prepend (.child (.pair htag hcontent) .nil)
      · refine ⟨[], [], [], pieces, rfl, .nil, st₁, ?_, hrest⟩
        rwa [Pending.fill_nil]

/-! ## Documents -/

/-- The piece is a tag. -/
def Token.isTag : Token → Bool
  | .startTag _ | .emptyTag _ | .endTag _ => true
  | _ => false

theorem step_of_isTag_eq_false {piece : Token} (h : piece.isTag = false) (root : Option Node) :
    Progress.step ⟨[], root⟩ piece = .ok ⟨[], root⟩ := by
  cases piece with
  | text | cdata | aside => rfl
  | startTag | emptyTag | endTag => cases h

theorem foldlM_step_of_isTag_eq_false {pieces : List Token}
    (h : ∀ piece ∈ pieces, piece.isTag = false) (root : Option Node) :
    pieces.foldlM Progress.step ⟨[], root⟩ = .ok ⟨[], root⟩ := by
  induction pieces with
  | nil => rfl
  | cons piece pieces ih =>
    obtain ⟨hpiece, hpieces⟩ := List.forall_mem_cons.1 h
    exact foldlM_cons_eq_ok_iff.2 ⟨_, step_of_isTag_eq_false hpiece root, ih hpieces⟩

theorem eq_of_attach {root : Option Node} {node : Node} {st : Progress}
    (h : Progress.attach ⟨[], root⟩ node = .ok st) : root = none ∧ st = ⟨[], some node⟩ := by
  cases root with
  | none => exact ⟨rfl, (Except.ok.inj h).symm⟩
  | some first => cases h

/-- Where nothing is open, the next tag begins an element, and only one element can be the root. -/
theorem exists_element_of_foldlM {pieces : List Token} {root : Option Node} {st' : Progress}
    (h : pieces.foldlM Progress.step ⟨[], root⟩ = .ok st') (hend : st'.pending = []) :
    ((∀ piece ∈ pieces, piece.isTag = false) ∧ st'.root = root) ∨
      root = none ∧ ∃ before element rest node, pieces = before ++ element ++ rest ∧
        (∀ piece ∈ before, piece.isTag = false) ∧ IsElement ReadsTag element node ∧
        rest.foldlM Progress.step ⟨[], some node⟩ = .ok st' := by
  induction pieces with
  | nil =>
    obtain rfl := Except.ok.inj h
    exact .inl ⟨by simp, rfl⟩
  | cons piece pieces ih =>
    obtain ⟨st₁, hstep, hrest⟩ := foldlM_cons_eq_ok_iff.1 h
    by_cases hpiece : piece.isTag = false
    · rw [step_of_isTag_eq_false hpiece] at hstep
      obtain rfl := Except.ok.inj hstep
      rcases ih hrest with ⟨hnone, hroot⟩ |
        ⟨hroot, before, element, rest, node, rfl, hbefore, hnode⟩
      · exact .inl ⟨List.forall_mem_cons.2 ⟨hpiece, hnone⟩, hroot⟩
      · exact .inr ⟨hroot, piece :: before, element, rest, node, rfl,
          List.forall_mem_cons.2 ⟨hpiece, hbefore⟩, hnode⟩
    · cases piece with
      | text | cdata | aside => exact absurd rfl hpiece
      | endTag found => cases hstep
      | emptyTag body =>
        simp only [Progress.step] at hstep
        split at hstep
        · next node htag =>
          obtain ⟨name, attrs, rfl, -⟩ := eq_of_elementOf htag
          obtain ⟨hroot, rfl⟩ := eq_of_attach hstep
          exact .inr ⟨hroot, [], [.emptyTag body], pieces, _, rfl, by simp, .empty htag, hrest⟩
        · cases hstep
      | startTag body =>
        simp only [Progress.step] at hstep
        split at hstep
        · next node htag =>
          obtain ⟨name, attrs, rfl, -⟩ := eq_of_elementOf htag
          obtain rfl := Except.ok.inj hstep
          obtain ⟨content, text, children, rest, rfl, hcontent, st, hattach, hfold⟩ :=
            closes_of_foldlM hrest hend
          rw [Pending.close_fill] at hattach
          obtain ⟨hroot, rfl⟩ := eq_of_attach hattach
          exact .inr ⟨hroot, [], _, rest, _, by simp, by simp, .pair htag hcontent, hfold⟩
        · cases hstep

/-- The characters of a document, without a byte-order mark in front. -/
def characters (source : String) : List Char :=
  if source.toList.head? = some '\uFEFF' then source.toList.tail else source.toList

theorem read_eq (source : String) : read source = readFrom 0 {} (characters source) := by
  unfold read characters
  generalize source.toList = s
  by_cases hmark : s.head? = some '\uFEFF'
  · obtain ⟨rest, rfl⟩ := List.head?_eq_some_iff.1 hmark
    rfl
  · rw [if_neg hmark]
    split
    · exact absurd rfl hmark
    · rfl

/-- The document is the element `root`, and the pieces around it may be there. -/
def IsDocument (tag : TagReading) (mayStand : Token → Prop) (source : String) (root : Node) :
    Prop :=
  ∃ before element after, IsCut (characters source) (before ++ element ++ after) ∧
    (∀ piece ∈ before ++ after, mayStand piece) ∧ IsElement tag element root

/-- What is read is one element, and what else there is outside it are no tags. -/
theorem read_eq_ok_some_iff {source : String} {root : Node} :
    read source = .ok (some root) ↔ IsDocument ReadsTag (·.isTag = false) source root := by
  rw [read_eq, readFrom_eq_ok_iff]
  constructor
  · rintro ⟨pieces, st', hcut, hfold, hend, hroot⟩
    rcases exists_element_of_foldlM hfold hend with
      ⟨-, hnone⟩ | ⟨-, before, element, after, node, rfl, hbefore, helement, hafter⟩
    · rw [hnone] at hroot
      cases hroot
    · rcases exists_element_of_foldlM hafter hend with ⟨hlast, hsome⟩ | ⟨hnone, -⟩
      · rw [hroot, Option.some.injEq] at hsome
        subst hsome
        refine ⟨before, element, after, hcut, fun piece hpiece => ?_, helement⟩
        exact (List.mem_append.1 hpiece).elim (hbefore piece) (hlast piece)
      · cases hnone
  · rintro ⟨before, element, after, hcut, hmargins, helement⟩
    obtain ⟨hbefore, hafter⟩ := List.forall_mem_append.1 hmargins
    refine ⟨_, ⟨[], some root⟩, hcut, ?_, rfl, rfl⟩
    rw [List.append_assoc, List.foldlM_append, foldlM_step_of_isTag_eq_false hbefore]
    change (element ++ after).foldlM Progress.step ⟨[], none⟩ = _
    rw [List.foldlM_append, helement.foldlM_step]
    exact foldlM_step_of_isTag_eq_false hafter _

/-- A document without elements is no error. -/
theorem read_eq_ok_none_iff {source : String} : read source = .ok none ↔
    ∃ pieces, IsCut (characters source) pieces ∧ ∀ piece ∈ pieces, piece.isTag = false := by
  rw [read_eq, readFrom_eq_ok_iff]
  constructor
  · rintro ⟨pieces, st', hcut, hfold, hend, hroot⟩
    rcases exists_element_of_foldlM hfold hend with
      ⟨hnone, -⟩ | ⟨-, before, element, after, node, rfl, -, -, hafter⟩
    · exact ⟨pieces, hcut, hnone⟩
    · rcases exists_element_of_foldlM hafter hend with ⟨-, hsome⟩ | ⟨hnone, -⟩
      · rw [hroot] at hsome
        cases hsome
      · cases hnone
  · rintro ⟨pieces, hcut, hnone⟩
    exact ⟨pieces, _, hcut, foldlM_step_of_isTag_eq_false hnone _, rfl, rfl⟩

end Filing.Xml
