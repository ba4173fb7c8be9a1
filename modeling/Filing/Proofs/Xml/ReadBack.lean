import Filing.Proofs.Xml.Attributes

/-!
# Reading undoes writing

What is written for a tree is read as that tree, but for texts beside children and for repeated
keys. Positions matter only to errors, so the reading of
a well-formed document is followed by the relation `Leads`: wherever the reading stands, it takes up
the given characters and goes on. An element that was written leads from any state to the state in
which it is attached, by induction on the tree.

Main statements: `read_document_eq_reread`, `read_document`.
-/

namespace Filing.Xml

open Filing.Path (isElementName isNameChar)
open Filing.Text (utf8Size)

/-! ## The pieces of a written document -/

/-- A run of text ends at the next bracket. -/
theorem next_text {c : Char} {raw : List Char} (hc : c ≠ '<') (hraw : ∀ d ∈ raw, d ≠ '<')
    (t : List Char) :
    next c (raw ++ '<' :: t) = .ok ⟨.text (c :: raw), c.utf8Size + utf8Size raw, '<' :: t⟩ := by
  have hpos : ∀ d ∈ raw, (d != '<') = true := fun d hd => by simp [hraw d hd]
  unfold next
  rw [if_neg hc, takeWhile_append_of_forall t hpos (by decide),
    dropWhile_append_of_forall t hpos (by decide)]

/-- Tags of elements begin with none of the characters that begin another piece. -/
theorem markup_eq_tag {s : List Char} (h : ∀ c, s.head? = some c → c ∉ ['!', '?', '/']) :
    markup s = tag s := by
  unfold markup
  split
  · exact absurd (h '!' rfl) (by decide)
  · exact absurd (h '?' rfl) (by decide)
  · exact absurd (h '/' rfl) (by decide)
  · rfl

/-- A name opens neither a declaration nor an end tag. -/
theorem markup_of_isNameChar {c : Char} (hc : isNameChar c = true) (s : List Char) :
    markup (c :: s) = tag (c :: s) := by
  refine markup_eq_tag fun d hd => ?_
  obtain rfl : c = d := Option.some.inj hd
  have hc := not_mem_of_isNameChar hc
  simp only [List.mem_cons, not_or] at hc ⊢
  simp [hc]

/-- A head ends with a name character or with a quote. -/
theorem getLast?_writeHead {node : Node} (hname : isElementName node.name = true) :
    (writeHead node).getLast? ≠ some '/' := by
  intro h
  unfold writeHead at h
  rw [List.getLast?_append] at h
  cases hattrs : (node.attrs.flatMap writeAttribute).getLast? with
  | none =>
    rw [hattrs, Option.none_or] at h
    have hmem := not_mem_of_isNameChar
      (isNameChar_of_mem hname _ (List.mem_of_mem_getLast? (Option.mem_def.2 h)))
    exact hmem (by simp)
  | some d =>
    rw [hattrs, Option.some_or, Option.some.injEq] at h
    subst h
    cases hrev : node.attrs.reverse with
    | nil => simp [List.reverse_eq_nil_iff.1 hrev] at hattrs
    | cons a rest =>
      have hsplit : node.attrs = rest.reverse ++ [a] := by
        rw [← List.reverse_reverse node.attrs, hrev, List.reverse_cons]
      rw [hsplit, List.flatMap_append] at hattrs
      simp [writeAttribute, List.getLast?_append, List.getLast?_cons] at hattrs

section Tags

variable {name : String} {attrs : List (String × String)} {text : String}
  (hname : isElementName name = true) (hkeys : ∀ a ∈ attrs, isElementName a.1 = true)

include hname hkeys

/-- The start tag of an element. -/
theorem next_startTag (t : List Char) :
    next '<' (writeHead ⟨name, attrs, text, []⟩ ++ '>' :: t) =
      .ok ⟨.startTag (writeHead ⟨name, attrs, text, []⟩),
        utf8Size (writeHead ⟨name, attrs, text, []⟩) + 2, t⟩ := by
  obtain ⟨c, rest, hs, hchars⟩ := exists_cons_of_isElementName hname
  have hbreak : breakTag none (writeHead ⟨name, attrs, text, []⟩ ++ '>' :: t) =
      some (writeHead ⟨name, attrs, text, []⟩, t) := by
    rw [breakTag_writeHead hname hkeys]
    simp [breakTag]
  have hmarkup : markup (writeHead ⟨name, attrs, text, []⟩ ++ '>' :: t) =
      tag (writeHead ⟨name, attrs, text, []⟩ ++ '>' :: t) := by
    simp only [writeHead, hs, List.cons_append]
    exact markup_of_isNameChar (hchars c (by simp)) _
  have hlast : (writeHead ⟨name, attrs, text, []⟩).getLast? ≠ some '/' :=
    getLast?_writeHead hname
  unfold next
  rw [if_pos rfl, hmarkup]
  unfold tag
  rw [hbreak]
  simp only [if_neg hlast]

/-- The tag of an element without content. -/
theorem next_emptyTag (t : List Char) :
    next '<' (writeHead ⟨name, attrs, text, []⟩ ++ '/' :: '>' :: t) =
      .ok ⟨.emptyTag (writeHead ⟨name, attrs, text, []⟩),
        utf8Size (writeHead ⟨name, attrs, text, []⟩ ++ ['/']) + 2, t⟩ := by
  obtain ⟨c, rest, hs, hchars⟩ := exists_cons_of_isElementName hname
  have hbreak : breakTag none (writeHead ⟨name, attrs, text, []⟩ ++ '/' :: '>' :: t) =
      some (writeHead ⟨name, attrs, text, []⟩ ++ ['/'], t) := by
    rw [breakTag_writeHead hname hkeys]
    simp [breakTag]
  have hmarkup : markup (writeHead ⟨name, attrs, text, []⟩ ++ '/' :: '>' :: t) =
      tag (writeHead ⟨name, attrs, text, []⟩ ++ '/' :: '>' :: t) := by
    simp only [writeHead, hs, List.cons_append]
    exact markup_of_isNameChar (hchars c (by simp)) _
  unfold next
  rw [if_pos rfl, hmarkup]
  unfold tag
  rw [hbreak]
  simp only [List.getLast?_concat, if_true, List.dropLast_concat]

end Tags

/-- The end tag of an element. -/
theorem next_endTag {name : String} (hname : isElementName name = true) (t : List Char) :
    next '<' ('/' :: (name.toList ++ '>' :: t)) =
      .ok ⟨.endTag name.toList, utf8Size name.toList + 3, t⟩ := by
  obtain ⟨c, rest, hs, hchars⟩ := exists_cons_of_isElementName hname
  have hbreak : breakTag none (name.toList ++ '>' :: t) = some (name.toList, t) := by
    rw [breakTag_name hname]
    simp [breakTag]
  have hend : endName name.toList = name.toList := by
    have hblank : ∀ d ∈ name.toList, isBlank d = false := fun d hd =>
      isBlank_eq_false_of_isNameChar (isNameChar_of_mem hname d hd)
    have hall : ¬ name.toList.all isBlank = true := by
      rw [List.all_eq_true]
      intro hall
      have hc := hall c (by rw [hs]; simp)
      rw [hblank c (by rw [hs]; simp)] at hc
      exact absurd hc (by decide)
    unfold endName
    rw [if_neg hall]
    have hdrop : name.toList.reverse.dropWhile isBlank = name.toList.reverse := by
      cases hrev : name.toList.reverse with
      | nil => rfl
      | cons d r =>
        have hd := hblank d (by rw [← List.mem_reverse, hrev]; simp)
        simp [List.dropWhile, hd]
    rw [hdrop, List.reverse_reverse]
  unfold next
  rw [if_pos rfl]
  simp only [markup, endTag, hbreak, hend]

/-! ## Reading piece by piece -/

/-- From any position, reading `s` in the state `st` comes down to reading `t` in the state
`st'`. -/
def Leads (st : Progress) (s : List Char) (st' : Progress) (t : List Char) : Prop :=
  ∀ position, ∃ position', readFrom position st s = readFrom position' st' t

theorem Leads.refl (st : Progress) (s : List Char) : Leads st s st s := fun position =>
  ⟨position, rfl⟩

theorem Leads.trans {st₁ st₂ st₃ : Progress} {s₁ s₂ s₃ : List Char} (h₁ : Leads st₁ s₁ st₂ s₂)
    (h₂ : Leads st₂ s₂ st₃ s₃) : Leads st₁ s₁ st₃ s₃ := by
  intro position
  obtain ⟨position₂, e₁⟩ := h₁ position
  obtain ⟨position₃, e₂⟩ := h₂ position₂
  exact ⟨position₃, e₁.trans e₂⟩

/-- A piece that is cut off is taken up. -/
theorem Leads.of_next {st st' : Progress} {c : Char} {s : List Char} {cut : Cut}
    (hcut : next c s = .ok cut) (hstep : st.step cut.token = .ok st') :
    Leads st (c :: s) st' cut.rest := by
  intro position
  refine ⟨position + cut.size, ?_⟩
  rw [readFrom]
  split
  · next h => rw [hcut] at h; exact absurd h (by simp)
  · next cut' h =>
    rw [hcut, Except.ok.injEq] at h
    subst h
    rw [hstep]

/-- Text that is taken up where an element is open. -/
def Progress.addText (st : Progress) (text : List Char) : Progress :=
  match st.pending with
  | [] => st
  | top :: below => { st with pending := top.addText text :: below }

theorem step_text {st : Progress} {raw text : List Char} (h : unescape raw = .ok text) :
    st.step (.text raw) = .ok (st.addText text) := by
  unfold Progress.step Progress.addText
  cases st.pending with
  | nil => rfl
  | cons top below => simp only [h]

/-- Indentation is text of the element around it. -/
theorem leads_newline (st : Progress) (level : Nat) (t : List Char) :
    Leads st (newline level ++ '<' :: t) (st.addText (newline level)) ('<' :: t) := by
  have hspaces : ∀ d ∈ List.replicate (2 * level) ' ', d ≠ '<' := fun d hd => by
    rw [List.eq_of_mem_replicate hd]; decide
  have hraw : unescape (newline level) = .ok (newline level) := by
    conv => lhs; rw [← escape_newline]
    exact unescape_escape _
  exact Leads.of_next (next_text (by decide) hspaces t) (step_text hraw)

/-- The text of an element is read as it was before it was escaped. -/
theorem leads_text (st : Progress) {text : List Char} (hne : text ≠ []) (t : List Char) :
    Leads st (escape text ++ '<' :: t) (st.addText text) ('<' :: t) := by
  cases hs : escape text with
  | nil => exact absurd hs (escape_ne_nil hne)
  | cons c raw =>
    have hchars : ∀ d ∈ c :: raw, d ≠ '<' := fun d hd => (mem_escape (hs ▸ hd)).1
    refine Leads.of_next (next_text (hchars c (by simp)) (fun d hd => hchars d (by simp [hd])) t)
      (step_text ?_)
    rw [← hs, unescape_escape]

/-! ## Elements -/

/-- Elements that were written one after another are attached one after another; the indentation
between them is text of the element around them. -/
theorem leads_flatMap_written (level : Nat) (nodes : List Node)
    (hnodes : ∀ node ∈ nodes, ∀ st st' : Progress, ∀ t : List Char,
      (st.addText (newline level)).attach node.reread = .ok st' →
        Leads st (written level node ++ t) st' t)
    (top : Pending) (below : List Pending) (root : Option Node) (t : List Char) :
    ∃ text, Leads ⟨top :: below, root⟩ (nodes.flatMap (written level) ++ t)
      ⟨⟨{ top.node with text }, (nodes.map Node.reread).reverse ++ top.children⟩ :: below, root⟩
      t := by
  induction nodes generalizing top with
  | nil =>
    obtain ⟨⟨name, attrs, text, children⟩, found⟩ := top
    exact ⟨text, Leads.refl _ t⟩
  | cons node nodes ih =>
    have hfirst := hnodes node (by simp) ⟨top :: below, root⟩
      ⟨{ top.addText (newline level) with children := node.reread :: top.children } :: below, root⟩
      (nodes.flatMap (written level) ++ t) rfl
    obtain ⟨text, hrest⟩ := ih (fun n hn => hnodes n (by simp [hn]))
      { top.addText (newline level) with children := node.reread :: top.children }
    refine ⟨text, ?_⟩
    rw [List.flatMap_cons, List.append_assoc]
    refine hfirst.trans ?_
    simpa [Pending.addText] using hrest

/-- The start tag of an element opens it. -/
theorem leads_startTag {name : String} {attrs : List (String × String)} (text : String)
    (hname : isElementName name = true) (hkeys : ∀ a ∈ attrs, isElementName a.1 = true)
    (st : Progress) (t : List Char) :
    Leads st ('<' :: (writeHead ⟨name, attrs, text, []⟩ ++ '>' :: t))
      { st with pending := ⟨{ name, attrs := heldAttributes attrs }, []⟩ :: st.pending } t := by
  refine Leads.of_next (next_startTag hname hkeys t) ?_
  simp only [Progress.step, elementOf_writeHead hname hkeys]

/-- The end tag of an element closes it. -/
theorem leads_endTag {top : Pending} {below : List Pending} {root : Option Node} {st' : Progress}
    (hname : isElementName top.node.name = true) (t : List Char)
    (h : Progress.attach ⟨below, root⟩ top.close = .ok st') :
    Leads ⟨top :: below, root⟩ ('<' :: '/' :: (top.node.name.toList ++ '>' :: t)) st' t := by
  refine Leads.of_next (next_endTag hname t) ?_
  simp only [Progress.step, String.ofList_toList, if_true]
  exact h

section Element

variable {name : String} {attrs : List (String × String)} (hname : isElementName name = true)
  (hkeys : ∀ a ∈ attrs, isElementName a.1 = true)
  {level : Nat} {st st' : Progress} (t : List Char)

include hname hkeys

/-- An element with nothing in it is a tag of its own. -/
theorem leads_written_empty
    (h : (st.addText (newline level)).attach (Node.reread ⟨name, attrs, "", []⟩) = .ok st') :
    Leads st (written level ⟨name, attrs, "", []⟩ ++ t) st' t := by
  have hshape : written level ⟨name, attrs, "", []⟩ ++ t =
      newline level ++ '<' :: (writeHead ⟨name, attrs, "", []⟩ ++ '/' :: '>' :: t) := by
    simp [written]
  rw [hshape]
  refine (leads_newline st level _).trans (Leads.of_next (next_emptyTag hname hkeys t) ?_)
  simp only [Progress.step, elementOf_writeHead hname hkeys]
  rw [← h, Node.reread]
  rfl

/-- The text of an element without children stands between its tags. -/
theorem leads_written_text {text : String} (htext : text ≠ "")
    (h : (st.addText (newline level)).attach (Node.reread ⟨name, attrs, text, []⟩) = .ok st') :
    Leads st (written level ⟨name, attrs, text, []⟩ ++ t) st' t := by
  have hshape : written level ⟨name, attrs, text, []⟩ ++ t =
      newline level ++ '<' :: (writeHead ⟨name, attrs, text, []⟩ ++ '>' ::
        (escape text.toList ++ '<' :: '/' :: (name.toList ++ '>' :: t))) := by
    simp [written, htext]
  have hne : text.toList ≠ [] := fun hnil => htext (String.toList_eq_nil_iff.1 hnil)
  have hopen := leads_startTag text hname hkeys (st.addText (newline level))
  rw [hshape]
  refine (leads_newline st level _).trans ((hopen _).trans ((leads_text _ hne _).trans ?_))
  refine leads_endTag hname t ?_
  rw [← h, Node.reread]
  simp [Pending.addText, Pending.close, Progress.attach]

/-- Children stand between the tags, each on lines of its own. -/
theorem leads_written_children {text : String} {children : List Node} (hne : children ≠ [])
    (hchildren : ∀ child ∈ children, ∀ st st' : Progress, ∀ t : List Char,
      (st.addText (newline (level + 1))).attach child.reread = .ok st' →
        Leads st (written (level + 1) child ++ t) st' t)
    (h : (st.addText (newline level)).attach (Node.reread ⟨name, attrs, text, children⟩) =
      .ok st') :
    Leads st (written level ⟨name, attrs, text, children⟩ ++ t) st' t := by
  cases children with
  | nil => exact absurd rfl hne
  | cons child children =>
    have hshape : written level ⟨name, attrs, text, child :: children⟩ ++ t =
        newline level ++ '<' :: (writeHead ⟨name, attrs, text, []⟩ ++ '>' ::
          ((child :: children).flatMap (written (level + 1)) ++
            (newline level ++ '<' :: '/' :: (name.toList ++ '>' :: t)))) := by
      simp [written]
    have hopen := leads_startTag text hname hkeys (st.addText (newline level))
    obtain ⟨between, hbelow⟩ := leads_flatMap_written (level + 1) (child :: children) hchildren
      ⟨{ name, attrs := heldAttributes attrs }, []⟩ (st.addText (newline level)).pending
      (st.addText (newline level)).root
      (newline level ++ '<' :: '/' :: (name.toList ++ '>' :: t))
    rw [hshape]
    refine (leads_newline st level _).trans ((hopen _).trans (hbelow.trans ?_))
    refine (leads_newline _ level _).trans (leads_endTag hname t ?_)
    rw [← h, Node.reread]
    -- the indentation collected so far goes with the closing of an element that has children
    cases hrev : ((child :: children).map Node.reread).reverse with
    | nil => simp at hrev
    | cons last others =>
      have hall : (last :: others).reverse = (child :: children).map Node.reread := by
        rw [← hrev, List.reverse_reverse]
      simp [Pending.addText, Pending.close, Progress.attach, hall]

end Element

/-- An element that was written is attached as a reader sees it. -/
theorem leads_written {node : Node} (hnode : node.HasElementNames) {level : Nat} {st st' : Progress}
    (t : List Char) (h : (st.addText (newline level)).attach node.reread = .ok st') :
    Leads st (written level node ++ t) st' t := by
  induction node using Node.induct generalizing level st st' t with
  | step name attrs text children ih =>
    cases hnode with
    | mk hname hkeys hchildren =>
      by_cases hnil : children = []
      · subst hnil
        by_cases htext : text = ""
        · subst htext
          exact leads_written_empty hname hkeys t h
        · exact leads_written_text hname hkeys t htext h
      · refine leads_written_children hname hkeys t hnil (fun child hchild => ?_) h
        exact fun st st' t => ih child hchild (hchildren child hchild) t

/-! ## Documents -/

/-- Where all names can be written, a tree comes back from its document. -/
theorem read_document_eq_reread {root : Node} (h : root.HasElementNames) :
    read root.document = .ok (some root.reread) := by
  have hdoc : root.document.toList =
      '<' :: ("?xml version=\"1.0\" encoding=\"UTF-8\"?>".toList ++ written 0 root) :=
    toList_writeNode 0 _ root
  have hnext : next '<' ("?xml version=\"1.0\" encoding=\"UTF-8\"?>".toList ++ written 0 root) =
      .ok ⟨.aside, 38, written 0 root⟩ := rfl
  have hlead : Leads {} root.document.toList ⟨[], some root.reread⟩ [] := by
    rw [hdoc]
    refine (Leads.of_next hnext rfl).trans ?_
    have hroot : Leads {} (written 0 root ++ []) ⟨[], some root.reread⟩ [] := leads_written h [] rfl
    rwa [List.append_nil] at hroot
  obtain ⟨position, hread⟩ := hlead 0
  have hstart : read root.document = readFrom 0 {} root.document.toList := by
    unfold read
    rw [hdoc]
    rfl
  rw [hstart, hread, readFrom]
  rfl

/-- What is written for a tree is read as the tree without the texts beside children. -/
theorem read_document {root : Node} (h : root.IsWritable) :
    read root.document = .ok (some root.tidy) := by
  rw [read_document_eq_reread h.hasElementNames, h.reread_eq_tidy]

end Filing.Xml
