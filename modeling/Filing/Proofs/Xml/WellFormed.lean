import Filing.Proofs.Xml.Nesting

/-!
# Well-formed documents

A well-formed document is one element in which every attribute is a key, an equals sign and a value
between quotes, no key is repeated in a tag, and around which there are only blanks and asides. The
reader reads every such document, with all its attributes, but it is more lenient: it leaves out of
a tag what is not written like that, and it ignores text outside the root. In everything else it is
strict.

Main statement: `read_iff_isDocument`.
-/

namespace Filing.Xml

/-! ## Tags -/

/-- Attributes one after another, as they should be written. -/
inductive AreAttributes : List Char → List (String × String) → Prop where
  | nil {gap : List Char} (hgap : AreBlanks gap) : AreAttributes gap []
  | cons {gap key before after raw value rest : List Char} {q : Char}
    {attrs : List (String × String)} (hgap : AreBlanks gap) (hne : key ≠ [])
    (hkey : ∀ c ∈ key, endsKey c = false) (hbefore : AreBlanks before) (hafter : AreBlanks after)
    (hq : q = '"' ∨ q = '\'') (hraw : q ∉ raw) (hvalue : unescape raw = .ok value)
    (hrest : AreAttributes rest attrs) :
    AreAttributes (gap ++ (key ++ (before ++ '=' :: (after ++ q :: (raw ++ q :: rest)))))
      ((String.ofList key, String.ofList value) :: attrs)

/-- The tag of an element, as it should be written. -/
def IsTag : TagReading := fun body name attrs =>
  ∃ written, body = name.toList ++ written ∧ (∀ c ∈ name.toList, isBlank c = false) ∧
    (∀ c, written.head? = some c → isBlank c = true) ∧ AreAttributes written attrs ∧
    (attrs.map (·.1)).Nodup

theorem attributes_of_areBlanks {gap : List Char} (hgap : AreBlanks gap) (seen : List (List Char)) :
    attributes seen gap = [] := by
  have hnil : gap.dropWhile isBlank = [] := by
    rw [← List.append_nil gap, List.dropWhile_append_of_pos hgap]
    rfl
  rw [attributes]
  split
  · rfl
  · next h =>
    rw [hnil] at h
    cases h

/-- Attributes that are written as they should be are all read. -/
theorem AreAttributes.mapM_attributes {s : List Char} {attrs : List (String × String)}
    (h : AreAttributes s attrs) {seen : List (List Char)} (hnodup : (attrs.map (·.1)).Nodup)
    (hseen : ∀ a ∈ attrs, a.1.toList ∉ seen) :
    (attributes seen s).mapM RawAttribute.resolve = .ok attrs := by
  induction h generalizing seen with
  | nil hgap =>
    rw [attributes_of_areBlanks hgap]
    rfl
  | @cons gap key before after raw value rest q attrs hgap hne hkey hbefore hafter hq hraw hvalue
      _ ih =>
    obtain ⟨hnew, hnodup⟩ := List.nodup_cons.1 hnodup
    obtain ⟨hfirst, hseen⟩ := List.forall_mem_cons.1 hseen
    rw [String.toList_ofList] at hfirst
    have hrest : ∀ a ∈ attrs, a.1.toList ∉ key :: seen := by
      intro a ha
      rw [List.mem_cons, not_or]
      refine ⟨?_, hseen a ha⟩
      rintro rfl
      rw [String.ofList_toList] at hnew
      exact hnew (List.mem_map.2 ⟨a, ha, rfl⟩)
    rw [attributes_quoted hgap hne hkey hbefore hafter hq hraw hfirst]
    exact mapM_cons_eq_ok_iff.2 ⟨_, attrs, RawAttribute.resolve_eq_ok_iff.2 ⟨value, hvalue, rfl⟩,
      ih hnodup hrest, rfl⟩

section IsTag

variable {body : List Char} {name : String} {attrs : List (String × String)}

theorem isTag_iff : IsTag body name attrs ↔ name = String.ofList (body.takeWhile (!isBlank ·)) ∧
    AreAttributes (skipWord body) attrs ∧ (attrs.map (·.1)).Nodup := by
  constructor
  · rintro ⟨written, rfl, hname, hwritten, hattrs, hnodup⟩
    have hpos : ∀ c ∈ name.toList, (!isBlank c) = true := fun c hc => by rw [hname c hc]; rfl
    have hstop : written.takeWhile (!isBlank ·) = [] ∧
        written.dropWhile (!isBlank ·) = written := by
      cases written with
      | nil => exact ⟨rfl, rfl⟩
      | cons c written => simp [hwritten c rfl]
    unfold skipWord
    rw [List.takeWhile_append_of_pos hpos, List.dropWhile_append_of_pos hpos, hstop.1, hstop.2,
      List.append_nil, String.ofList_toList]
    exact ⟨rfl, hattrs, hnodup⟩
  · rintro ⟨rfl, hattrs, hnodup⟩
    refine ⟨skipWord body, ?_, ?_, ?_, hattrs, hnodup⟩
    · rw [String.toList_ofList]
      exact List.takeWhile_append_dropWhile.symm
    · intro c hc
      rw [String.toList_ofList] at hc
      simpa using List.all_eq_true.1 List.all_takeWhile c hc
    · intro c hc
      have hstop := List.head?_dropWhile_not (!isBlank ·) body
      unfold skipWord at hc
      rw [hc] at hstop
      simpa using hstop

/-- A tag that is written as it should be is read with all its attributes. -/
theorem IsTag.readsTag (h : IsTag body name attrs) : ReadsTag body name attrs := by
  obtain ⟨rfl, hattrs, hnodup⟩ := isTag_iff.1 h
  have hread := hattrs.mapM_attributes hnodup fun _ _ => List.not_mem_nil
  exact elementOf_eq_ok_iff.2 ⟨attrs, hread, rfl⟩

end IsTag

/-! ## Tags that are not well-formed -/

/-- What a tag is read to is written in it. -/
theorem ReadsTag.isWrittenIn {body : List Char} {name : String} {attrs : List (String × String)}
    (h : ReadsTag body name attrs) {a : String × String} (ha : a ∈ attrs) :
    ∃ raw, RawAttribute.IsWrittenIn ⟨a.1.toList, raw⟩ body ∧ unescape raw = .ok a.2.toList := by
  obtain ⟨_, hattrs, hnode⟩ := elementOf_eq_ok_iff.1 h
  obtain ⟨-, rfl, -, -⟩ := Node.mk.inj hnode
  obtain ⟨raw, hraw, hresolve⟩ := exists_of_mem_mapM hattrs ha
  obtain ⟨value, hvalue, rfl⟩ := RawAttribute.resolve_eq_ok_iff.1 hresolve
  rw [String.toList_ofList, String.toList_ofList]
  have hwritten := (isWrittenIn_of_mem_attributes hraw).of_suffix (List.dropWhile_suffix _)
  exact ⟨raw.value, hwritten, hvalue⟩

/-! ## Elements and their tags -/

/-- The body of a start tag, or of the tag of an empty element. -/
def Token.body? : Token → Option (List Char)
  | .startTag body | .emptyTag body => some body
  | _ => none

/-- The bodies of the tags that carry attributes. -/
def tagBodies (pieces : List Token) : List (List Char) := pieces.filterMap Token.body?

@[simp] theorem tagBodies_nil : tagBodies [] = [] := rfl

@[simp] theorem tagBodies_cons (piece : Token) (pieces : List Token) :
    tagBodies (piece :: pieces) = piece.body?.toList ++ tagBodies pieces := by
  cases piece <;> rfl

@[simp] theorem tagBodies_append (pieces more : List Token) :
    tagBodies (pieces ++ more) = tagBodies pieces ++ tagBodies more := List.filterMap_append

theorem tagBodies_eq_nil {pieces : List Token} (h : ∀ piece ∈ pieces, piece.isTag = false) :
    tagBodies pieces = [] := by
  refine List.filterMap_eq_nil_iff.2 fun piece hpiece => ?_
  cases piece with
  | startTag | emptyTag => cases h _ hpiece
  | _ => rfl

section Tags

variable {tag other : TagReading}

mutual

/-- An element stays one if its tags can be read in another way. -/
theorem IsElement.imp {pieces : List Token} {node : Node} : IsElement tag pieces node →
    (∀ body ∈ tagBodies pieces, ∀ name attrs, tag body name attrs → other body name attrs) →
      IsElement other pieces node
  | .empty htag, h => .empty (h _ (by simp [Token.body?]) _ _ htag)
  | .pair htag hcontent, h => .pair (h _ (by simp [Token.body?]) _ _ htag)
      (hcontent.imp fun body hbody => h body (by simp [hbody]))

theorem IsContent.imp {pieces : List Token} {text : List Char} {children : List Node} :
    IsContent tag pieces text children →
    (∀ body ∈ tagBodies pieces, ∀ name attrs, tag body name attrs → other body name attrs) →
      IsContent other pieces text children
  | .nil, _ => .nil
  | .text hraw hrest, h => .text hraw (hrest.imp h)
  | .cdata hrest, h => .cdata (hrest.imp h)
  | .aside hrest, h => .aside (hrest.imp h)
  | .child helement hrest, h => .child
      (helement.imp fun body hbody => h body (by simp [hbody]))
      (hrest.imp fun body hbody => h body (by simp [hbody]))

end

mutual

theorem IsElement.exists_tag {pieces : List Token} {node : Node} {body : List Char} :
    IsElement tag pieces node → body ∈ tagBodies pieces → ∃ name attrs, tag body name attrs
  | .empty htag, h => by
    obtain rfl : body = _ := by simpa [Token.body?] using h
    exact ⟨_, _, htag⟩
  | .pair htag hcontent, h => by
    rw [tagBodies_cons, tagBodies_append, List.mem_append, List.mem_append] at h
    rcases h with h | h | h
    · exact List.mem_singleton.1 h ▸ ⟨_, _, htag⟩
    · exact hcontent.exists_tag h
    · exact absurd h List.not_mem_nil

theorem IsContent.exists_tag {pieces : List Token} {text : List Char} {children : List Node}
    {body : List Char} :
    IsContent tag pieces text children → body ∈ tagBodies pieces → ∃ name attrs, tag body name attrs
  | .nil, h => absurd h List.not_mem_nil
  | .text _ hrest, h => hrest.exists_tag h
  | .cdata hrest, h => hrest.exists_tag h
  | .aside hrest, h => hrest.exists_tag h
  | .child helement hrest, h => by
    rw [tagBodies_append] at h
    rcases List.mem_append.1 h with h | h
    · exact helement.exists_tag h
    · exact hrest.exists_tag h

end

/-- The pieces of an element begin and end with tags. -/
theorem IsElement.ends {pieces : List Token} {node : Node} (h : IsElement tag pieces node) :
    (∃ first rest, pieces = first :: rest ∧ first.isTag = true) ∧
      ∃ rest last, pieces = rest ++ [last] ∧ last.isTag = true := by
  cases h with
  | empty htag => exact ⟨⟨_, [], rfl, rfl⟩, [], _, rfl, rfl⟩
  | pair htag hcontent => exact ⟨⟨_, _, rfl, rfl⟩, _ :: _, _, rfl, rfl⟩

end Tags

/-! ## What surrounds the root -/

/-- A piece that may surround the root: blanks, or an aside. -/
def Token.isMargin : Token → Bool
  | .text raw => raw.all isBlank
  | .aside => true
  | _ => false

theorem Token.isTag_eq_false {piece : Token} (h : piece.isMargin = true) : piece.isTag = false := by
  cases piece with
  | text | aside => rfl
  | _ => cases h

/-- The pieces before the first tag and those behind the last. -/
def margins (pieces : List Token) : List Token :=
  pieces.takeWhile (!·.isTag) ++ (pieces.reverse.takeWhile (!·.isTag)).reverse

theorem margins_append {tag : TagReading} {before element after : List Token} {node : Node}
    (hmargins : ∀ piece ∈ before ++ after, piece.isTag = false)
    (helement : IsElement tag element node) :
    margins (before ++ element ++ after) = before ++ after := by
  have hopen : ∀ {pieces : List Token}, (∀ piece ∈ pieces, piece.isTag = false) →
      ∀ piece ∈ pieces, (!piece.isTag) = true := fun h piece hpiece => by rw [h piece hpiece]; rfl
  obtain ⟨hbefore, hafter⟩ := List.forall_mem_append.1 hmargins
  obtain ⟨⟨first, rest, hhead, hfirst⟩, others, last, hlast, htag⟩ := helement.ends
  have hstart : (before ++ element ++ after).takeWhile (!·.isTag) = before := by
    rw [hhead, List.append_assoc, List.cons_append]
    exact takeWhile_append_of_forall _ (hopen hbefore) (by rw [hfirst]; rfl)
  have hend : (before ++ element ++ after).reverse.takeWhile (!·.isTag) = after.reverse := by
    rw [hlast, List.reverse_append, List.reverse_append, List.reverse_append,
      List.reverse_singleton, List.append_assoc, List.singleton_append]
    refine takeWhile_append_of_forall _ (hopen fun piece hpiece => ?_) (by rw [htag]; rfl)
    exact hafter piece (List.mem_reverse.1 hpiece)
  unfold margins
  rw [hstart, hend, List.reverse_reverse]

/-! ## Well-formed documents -/

/-- The document is well-formed, with this root. -/
def IsWellFormed (source : String) (root : Node) : Prop :=
  IsDocument IsTag (·.isMargin = true) source root

/-- All attributes are written as they should be, and there is no text around the tags. -/
structure IsCareful (pieces : List Token) : Prop where
  tags : ∀ body ∈ tagBodies pieces, ∃ name attrs, IsTag body name attrs
  margins : ∀ piece ∈ margins pieces, piece.isMargin = true

theorem isWellFormed_iff {source : String} {root : Node} : IsWellFormed source root ↔
    read source = .ok (some root) ∧
      ∃ pieces, IsCut (characters source) pieces ∧ IsCareful pieces := by
  rw [read_eq_ok_some_iff]
  constructor
  · rintro ⟨before, element, after, hcut, hmargins, helement⟩
    have hplain : ∀ piece ∈ before ++ after, piece.isTag = false := fun piece hpiece =>
      Token.isTag_eq_false (hmargins piece hpiece)
    obtain ⟨hbefore, hafter⟩ := List.forall_mem_append.1 hplain
    refine ⟨⟨before, element, after, hcut, hplain, helement.imp fun _ _ _ _ h => h.readsTag⟩,
      _, hcut, fun body hbody => ?_, ?_⟩
    · rw [tagBodies_append, tagBodies_append, tagBodies_eq_nil hbefore, tagBodies_eq_nil hafter,
        List.nil_append, List.append_nil] at hbody
      exact helement.exists_tag hbody
    · rw [margins_append hplain helement]
      exact hmargins
  · rintro ⟨⟨before, element, after, hcut, hplain, helement⟩, pieces, hpieces, hcareful⟩
    obtain rfl := hcut.unique hpieces
    have hmargins := hcareful.margins
    rw [margins_append hplain helement] at hmargins
    refine ⟨before, element, after, hcut, hmargins, helement.imp fun body hbody name attrs h => ?_⟩
    obtain ⟨name', attrs', htag⟩ := hcareful.tags body (by simp [hbody])
    have hnode : elementOf body = .ok { name := name', attrs := attrs' } := htag.readsTag
    have hsame : elementOf body = .ok { name, attrs } := h
    rw [hnode, Except.ok.injEq, Node.mk.injEq] at hsame
    obtain ⟨rfl, rfl, -, -⟩ := hsame
    exact htag

/-- A document is read if it is one element with matching tags and has no tag besides; each tag is
read to attributes that are written in it, none of them twice. Of these documents those are
well-formed that are written with care, and they are read in full. A document without any tag has no
root, and every other one is an error. -/
theorem read_iff_isDocument (source : String) :
    (∀ root, read source = .ok (some root) ↔
      IsDocument ReadsTag (·.isTag = false) source root) ∧
    (∀ body name attrs, ReadsTag body name attrs → (attrs.map (·.1)).Nodup ∧ ∀ a ∈ attrs,
      ∃ raw, RawAttribute.IsWrittenIn ⟨a.1.toList, raw⟩ body ∧ unescape raw = .ok a.2.toList) ∧
    (∀ root, IsWellFormed source root ↔ read source = .ok (some root) ∧
      ∃ pieces, IsCut (characters source) pieces ∧ IsCareful pieces) ∧
    (read source = .ok none ↔
      ∃ pieces, IsCut (characters source) pieces ∧ ∀ piece ∈ pieces, piece.isTag = false) := by
  refine ⟨fun root => read_eq_ok_some_iff, fun body name attrs h => ⟨?_, fun a ha => ?_⟩,
    fun root => isWellFormed_iff, read_eq_ok_none_iff⟩
  · obtain ⟨_, _, hnode, hnodup⟩ := eq_of_elementOf h
    obtain ⟨-, rfl, -, -⟩ := Node.mk.inj hnode
    exact hnodup
  · exact ReadsTag.isWrittenIn h ha

theorem read_iff_isDocument_carelessCell :
    IsDocument ReadsTag (·.isTag = false) "<Cell Path='a' MaxValue=5/>"
        { name := "Cell", attrs := [("Path", "a")] } ∧
      read "<Cell Path='a' MaxValue=5/>" =
        .ok (some { name := "Cell", attrs := [("Path", "a")] }) ∧
      ReadsTag "Cell Path='a' MaxValue=5".toList "Cell" [("Path", "a")] ∧
      ∃ raw, RawAttribute.IsWrittenIn ⟨"Path".toList, raw⟩ "Cell Path='a' MaxValue=5".toList ∧
        unescape raw = .ok "a".toList := by
  obtain ⟨hdocument, hwritten, -⟩ := read_iff_isDocument "<Cell Path='a' MaxValue=5/>"
  have htag : ReadsTag "Cell Path='a' MaxValue=5".toList "Cell" [("Path", "a")] := by
    unfold ReadsTag
    decide +kernel
  have hcut : IsCut (characters "<Cell Path='a' MaxValue=5/>")
      [.emptyTag "Cell Path='a' MaxValue=5".toList] := isCut_singleton rfl
  have hroot : IsDocument ReadsTag (·.isTag = false) "<Cell Path='a' MaxValue=5/>"
      { name := "Cell", attrs := [("Path", "a")] } := ⟨[], _, [], hcut, by simp, .empty htag⟩
  exact ⟨hroot, (hdocument _).2 hroot, htag,
    (hwritten _ _ _ htag).2 ("Path", "a") List.mem_cons_self⟩

/-- A value without quotes is dropped with its key, and nothing is said about it. -/
theorem read_unquotedValue :
    read "<Cell MaxValue=5/>" = .ok (some { name := "Cell" }) ∧
      ∀ root, ¬ IsWellFormed "<Cell MaxValue=5/>" root := by
  have hcut : IsCut (characters "<Cell MaxValue=5/>") [.emptyTag "Cell MaxValue=5".toList] :=
    isCut_singleton rfl
  have hread : elementOf "Cell MaxValue=5".toList = .ok { name := "Cell" } := by decide +kernel
  refine ⟨read_eq_ok_some_iff.2 ⟨[], _, [], hcut, by simp, .empty hread⟩, fun root hroot => ?_⟩
  obtain ⟨-, pieces, hpieces, hcareful⟩ := isWellFormed_iff.1 hroot
  obtain rfl := hcut.unique hpieces
  obtain ⟨name, attrs, htag⟩ := hcareful.tags "Cell MaxValue=5".toList List.mem_cons_self
  have hattrs : elementOf "Cell MaxValue=5".toList = .ok { name, attrs } := htag.readsTag
  rw [hread, Except.ok.injEq, Node.mk.injEq] at hattrs
  obtain ⟨-, rfl, -, -⟩ := hattrs
  obtain ⟨-, hwritten, -⟩ := isTag_iff.1 htag
  generalize hbody : skipWord "Cell MaxValue=5".toList = written at hwritten
  cases hwritten with
  | nil hgap => exact absurd (hgap 'M' (by rw [← hbody]; decide)) (by decide)

end Filing.Xml
