import Filing.Proofs.Xml.Written

/-!
# What is read from a tag

Whatever stands in a tag, an attribute that is read from it is written there with its value between
quotes, also where the reader goes on in the middle of a value after an attribute that it leaves out.
In a tag that was written no value holds a quote, so what stands between two quotes is a value or
the key between two values, and the references in it are whole. Hence every tag that was written is
read, even when it repeats a key; then some of its attributes are lost.

Main statement: `elementOf_writeHead`.
-/

namespace Filing.Xml

open Filing.Path (isElementName isNameChar)

/-! ## The tag of an element -/

theorem mapM_cons_eq_ok_iff {ε α β : Type} {f : α → Except ε β} {a : α} {l : List α} {r : List β} :
    (a :: l).mapM f = .ok r ↔ ∃ b rest, f a = .ok b ∧ l.mapM f = .ok rest ∧ r = b :: rest := by
  rw [List.mapM_cons]
  cases f a with
  | error e => simp [bind, Except.bind]
  | ok b =>
    cases l.mapM f with
    | error e => simp [bind, Except.bind]
    | ok rest => simp [bind, Except.bind, pure, Except.pure, eq_comm]

theorem map_eq_map_of_mapM {ε α β γ : Type} {f : α → Except ε β} {g : β → γ} {k : α → γ}
    (hf : ∀ a b, f a = .ok b → g b = k a) {l : List α} {r : List β} (h : l.mapM f = .ok r) :
    r.map g = l.map k := by
  induction l generalizing r with
  | nil =>
    obtain rfl : [] = r := Except.ok.inj h
    rfl
  | cons a l ih =>
    obtain ⟨b, rest, hb, hrest, rfl⟩ := mapM_cons_eq_ok_iff.1 h
    rw [List.map_cons, List.map_cons, hf a b hb, ih hrest]

theorem exists_of_mem_mapM {ε α β : Type} {f : α → Except ε β} {l : List α} {r : List β}
    (h : l.mapM f = .ok r) {b : β} (hb : b ∈ r) : ∃ a ∈ l, f a = .ok b := by
  induction l generalizing r with
  | nil =>
    obtain rfl : [] = r := Except.ok.inj h
    cases hb
  | cons a l ih =>
    obtain ⟨first, rest, hfirst, hrest, rfl⟩ := mapM_cons_eq_ok_iff.1 h
    rcases List.mem_cons.1 hb with rfl | hb
    · exact ⟨a, List.mem_cons_self, hfirst⟩
    · obtain ⟨a', ha', heq⟩ := ih hrest hb
      exact ⟨a', List.mem_cons_of_mem _ ha', heq⟩

/-- An attribute with its references resolved. -/
def RawAttribute.resolve (a : RawAttribute) : Except EscapeError (String × String) := do
  return (String.ofList a.key, String.ofList (← unescape a.value))

theorem RawAttribute.resolve_eq_ok_iff {a : RawAttribute} {b : String × String} :
    a.resolve = .ok b ↔
      ∃ value, unescape a.value = .ok value ∧ b = (String.ofList a.key, String.ofList value) := by
  unfold resolve
  cases unescape a.value with
  | error e => simp [bind, Except.bind]
  | ok value => simp [bind, Except.bind, pure, Except.pure, eq_comm]

theorem elementOf_eq_ok_iff {body : List Char} {node : Node} : elementOf body = .ok node ↔
    ∃ attrs, (attributes [] (skipWord body)).mapM RawAttribute.resolve = .ok attrs ∧
      node = { name := String.ofList (body.takeWhile (!isBlank ·)), attrs } := by
  change (attributes [] (skipWord body)).mapM RawAttribute.resolve >>= (fun attrs =>
    .ok { name := String.ofList (body.takeWhile (!isBlank ·)), attrs }) = .ok node ↔ _
  cases (attributes [] (skipWord body)).mapM RawAttribute.resolve with
  | error e => simp [bind, Except.bind]
  | ok attrs => simp [bind, Except.bind, eq_comm]

theorem exists_mapM_eq_ok {ε α β : Type} {f : α → Except ε β} {l : List α}
    (h : ∀ a ∈ l, ∃ b, f a = .ok b) : ∃ r, l.mapM f = .ok r := by
  induction l with
  | nil => exact ⟨[], rfl⟩
  | cons a l ih =>
    obtain ⟨hfirst, hrest⟩ := List.forall_mem_cons.1 h
    obtain ⟨b, hb⟩ := hfirst
    obtain ⟨rest, hrest⟩ := ih hrest
    exact ⟨b :: rest, mapM_cons_eq_ok_iff.2 ⟨b, rest, hb, hrest, rfl⟩⟩

/-! ## Attributes stand in the tag -/

/-- Blanks, or nothing. -/
def AreBlanks (s : List Char) : Prop := ∀ c ∈ s, isBlank c = true

/-- The attribute stands in the text, with its value between quotes. -/
def RawAttribute.IsWrittenIn (a : RawAttribute) (s : List Char) : Prop :=
  ∃ front before after q back, (q = '"' ∨ q = '\'') ∧ AreBlanks before ∧ AreBlanks after ∧
    s = front ++ (a.key ++ (before ++ '=' :: (after ++ q :: (a.value ++ q :: back))))

theorem RawAttribute.IsWrittenIn.of_suffix {a : RawAttribute} {s t : List Char}
    (h : a.IsWrittenIn s) (hs : s <:+ t) : a.IsWrittenIn t := by
  obtain ⟨front, before, after, q, back, hq, hbefore, hafter, rfl⟩ := h
  obtain ⟨more, rfl⟩ := hs
  exact ⟨more ++ front, before, after, q, back, hq, hbefore, hafter, by simp⟩

theorem exists_blanks_of_dropWhile {s rest : List Char} {c : Char}
    (h : s.dropWhile isBlank = c :: rest) : ∃ gap, AreBlanks gap ∧ s = gap ++ c :: rest := by
  refine ⟨s.takeWhile isBlank, List.all_eq_true.1 List.all_takeWhile, ?_⟩
  rw [← h, List.takeWhile_append_dropWhile]

theorem exists_key_of_dropWhile {s rest after : List Char} {c d : Char}
    (hs : s.dropWhile isBlank = c :: rest)
    (htail : (rest.dropWhile (!endsKey ·)).dropWhile isBlank = d :: after) :
    ∃ gap before, AreBlanks before ∧
      s = gap ++ (c :: rest.takeWhile (!endsKey ·) ++ (before ++ d :: after)) := by
  obtain ⟨gap, -, rfl⟩ := exists_blanks_of_dropWhile hs
  obtain ⟨before, hbefore, hrest⟩ := exists_blanks_of_dropWhile htail
  refine ⟨gap, before, hbefore, ?_⟩
  rw [← hrest, List.cons_append, List.takeWhile_append_dropWhile]

/-- Wherever the reader goes on after an attribute that it leaves out, what it takes is written in
the tag. -/
theorem isWrittenIn_of_mem_attributes {seen : List (List Char)} {s : List Char} {a : RawAttribute}
    (h : a ∈ attributes seen s) : a.IsWrittenIn s := by
  fun_induction attributes seen s with
  | case1 | case2 | case5 | case6 => cases h
  | case3 seen s c rest hs _ d after htail _ _ ih =>
    obtain ⟨gap, before, -, rfl⟩ := exists_key_of_dropWhile hs htail
    exact (ih h).of_suffix ((List.suffix_append _ _).trans
      ((List.suffix_append _ _).trans (List.suffix_append _ _)))
  | case4 seen s c rest hs _ key d after htail _ _ _ _ ih =>
    obtain ⟨gap, before, -, rfl⟩ := exists_key_of_dropWhile hs htail
    exact (ih h).of_suffix ((List.dropWhile_suffix _).trans
      ⟨gap ++ (c :: rest.takeWhile (!endsKey ·) ++ (before ++ [d])), by simp⟩)
  | case7 seen s c rest hs _ key d after htail _ hd _ q value hvalue _ hq raw back hbreak _ ih =>
    obtain ⟨gap, before, hbefore, rfl⟩ := exists_key_of_dropWhile hs htail
    obtain ⟨between, hbetween, rfl⟩ := exists_blanks_of_dropWhile hvalue
    obtain ⟨q', hq', rfl, -⟩ := Text.eq_append_of_breakAt hbreak
    obtain rfl := eq_of_beq hq'
    rcases List.mem_cons.1 h with rfl | h
    · obtain rfl : d = '=' := by simpa using hd
      exact ⟨gap, before, between, q', back, hq, hbefore, hbetween, rfl⟩
    · exact (ih h).of_suffix ⟨gap ++ (key ++ (before ++ d :: (between ++ q' :: (raw ++ [q'])))),
        by simp [key]⟩
  | case8 seen s c rest hs _ key d after htail _ _ _ q value hvalue _ _ _ ih =>
    obtain ⟨gap, before, -, rfl⟩ := exists_key_of_dropWhile hs htail
    obtain ⟨between, -, rfl⟩ := exists_blanks_of_dropWhile hvalue
    exact (ih h).of_suffix ((List.dropWhile_suffix _).trans
      ⟨gap ++ (c :: rest.takeWhile (!endsKey ·) ++ (before ++ d :: (between ++ [q]))), by simp⟩)

/-! ## Texts whose references are whole -/

/-- Every ampersand of the text begins one of the references that are written for a character. -/
inductive IsEscaped : List Char → Prop where
  | nil : IsEscaped []
  | plain {c : Char} {s : List Char} (hc : c ≠ '&') (hs : IsEscaped s) : IsEscaped (c :: s)
  | escaped (c : Char) {s : List Char} (hs : IsEscaped s) : IsEscaped (escapeChar c ++ s)

/-- No quote is written as itself. -/
theorem quote_notMem_escapeChar {q : Char} (hq : q = '"' ∨ q = '\'') (c : Char) :
    q ∉ escapeChar c := by
  unfold escapeChar
  repeat' split
  · rcases hq with rfl | rfl <;> decide
  · rcases hq with rfl | rfl <;> decide
  · rcases hq with rfl | rfl <;> decide
  · rcases hq with rfl | rfl <;> decide
  · rcases hq with rfl | rfl <;> decide
  · next hapos hquot =>
    rw [List.mem_singleton]
    rintro rfl
    exact hq.elim hquot hapos

namespace IsEscaped

variable {s t : List Char}

theorem escape_append (hs : IsEscaped s) (value : List Char) : IsEscaped (escape value ++ s) := by
  induction value with
  | nil => exact hs
  | cons c value ih =>
    have hcons : escape (c :: value) ++ s = escapeChar c ++ (escape value ++ s) := by
      simp [escape]
    rw [hcons]
    exact ih.escaped c

theorem append_of_forall (hs : IsEscaped s) (ht : ∀ c ∈ t, c ≠ '&') : IsEscaped (t ++ s) := by
  induction t with
  | nil => exact hs
  | cons c t ih =>
    obtain ⟨hc, ht⟩ := List.forall_mem_cons.1 ht
    exact .plain hc (ih ht)

/-- A quote stands between references, never within one. -/
theorem split {q : Char} (hq : q = '"' ∨ q = '\'') (h : IsEscaped s) {front back : List Char}
    (heq : s = front ++ q :: back) : IsEscaped front ∧ IsEscaped back := by
  induction h generalizing front with
  | nil => simp at heq
  | @plain c s hc hs ih =>
    cases front with
    | nil =>
      obtain ⟨-, rfl⟩ := List.cons.inj heq
      exact ⟨.nil, hs⟩
    | cons d front =>
      obtain ⟨rfl, hrest⟩ := List.cons.inj heq
      exact ⟨(ih hrest).1.plain hc, (ih hrest).2⟩
  | @escaped c s hs ih =>
    rcases List.append_eq_append_iff.1 heq with ⟨more, rfl, hrest⟩ | ⟨more, hc, hrest⟩
    · exact ⟨(ih hrest).1.escaped c, (ih hrest).2⟩
    · cases more with
      | nil =>
        rw [List.append_nil] at hc
        have hsame : s = [] ++ q :: back := hrest.symm
        have hback := (ih hsame).2
        rw [← hc, ← List.append_nil (escapeChar c)]
        exact ⟨IsEscaped.nil.escaped c, hback⟩
      | cons d more =>
        obtain ⟨rfl, -⟩ := List.cons.inj hrest
        refine absurd ?_ (quote_notMem_escapeChar hq c)
        rw [hc]
        exact List.mem_append_right _ List.mem_cons_self

theorem exists_unescapeFrom (h : IsEscaped s) (total position : Nat) (acc : List Char) :
    ∃ text, unescapeFrom total position none acc s = .ok text := by
  induction h generalizing position acc with
  | nil => exact ⟨acc.reverse, rfl⟩
  | @plain c s hc hs ih =>
    rw [unescapeFrom, if_neg hc]
    exact ih _ _
  | @escaped c s hs ih =>
    obtain ⟨position', heq⟩ := unescapeFrom_escapeChar total position acc s c
    rw [heq]
    exact ih _ _

end IsEscaped

/-! ## Tags that were written -/

/-- The value of an attribute that is read from such a text can be read. -/
theorem RawAttribute.IsWrittenIn.exists_resolve {a : RawAttribute} {s : List Char}
    (h : a.IsWrittenIn s) (hs : IsEscaped s) : ∃ b, a.resolve = .ok b := by
  obtain ⟨front, before, after, q, back, hq, -, -, heq⟩ := h
  have hopen : s = (front ++ (a.key ++ (before ++ '=' :: after))) ++ q :: (a.value ++ q :: back) := by
    rw [heq]
    simp
  have hvalue := ((hs.split hq hopen).2.split hq rfl).1
  obtain ⟨text, htext⟩ := hvalue.exists_unescapeFrom (Text.utf8Size a.value) 0 []
  exact ⟨_, resolve_eq_ok_iff.2 ⟨text, htext, rfl⟩⟩

theorem isEscaped_flatMap_writeAttribute {attrs : List (String × String)}
    (hkeys : ∀ a ∈ attrs, isElementName a.1 = true) :
    IsEscaped (attrs.flatMap writeAttribute) := by
  induction attrs with
  | nil => exact .nil
  | cons a attrs ih =>
    obtain ⟨hkey, hkeys⟩ := List.forall_mem_cons.1 hkeys
    have hshape : writeAttribute a ++ attrs.flatMap writeAttribute =
        (' ' :: a.1.toList ++ ['=', '"']) ++
          (escape a.2.toList ++ '"' :: attrs.flatMap writeAttribute) := by
      simp [writeAttribute]
    have hplain : ∀ c ∈ ' ' :: a.1.toList ++ ['=', '"'], c ≠ '&' := by
      have hamp : isNameChar '&' = false := by decide +kernel
      have hname : ∀ c ∈ a.1.toList, c ≠ '&' := by
        rintro c hc rfl
        exact absurd (isNameChar_of_mem hkey _ hc) (by rw [hamp]; decide)
      rw [List.cons_append, List.forall_mem_cons, List.forall_mem_append, List.forall_mem_cons,
        List.forall_mem_singleton]
      exact ⟨by decide, hname, by decide, by decide⟩
    rw [List.flatMap_cons, hshape]
    exact (((ih hkeys).plain (by decide)).escape_append _).append_of_forall hplain

/-- What comes back of attributes when the tag into which they were written is read: all of them,
unless a key is repeated. -/
def heldAttributes (attrs : List (String × String)) : List (String × String) :=
  match (attributes [] (attrs.flatMap writeAttribute)).mapM RawAttribute.resolve with
  | .ok held => held
  | .error _ => []

theorem mapM_attributes_eq_ok {attrs : List (String × String)}
    (hkeys : ∀ a ∈ attrs, isElementName a.1 = true) :
    (attributes [] (attrs.flatMap writeAttribute)).mapM RawAttribute.resolve =
      .ok (heldAttributes attrs) := by
  have hescaped := isEscaped_flatMap_writeAttribute hkeys
  obtain ⟨held, hheld⟩ := exists_mapM_eq_ok fun a
    (ha : a ∈ attributes [] (attrs.flatMap writeAttribute)) =>
      (isWrittenIn_of_mem_attributes ha).exists_resolve hescaped
  rw [heldAttributes, hheld]

/-- Attributes with different keys all come back. -/
theorem heldAttributes_eq_self {attrs : List (String × String)}
    (hkeys : ∀ a ∈ attrs, isElementName a.1 = true) (hnodup : (attrs.map (·.1)).Nodup) :
    heldAttributes attrs = attrs := by
  have hvalues : ∀ l : List (String × String),
      ((l.map fun a => (⟨a.1.toList, escape a.2.toList⟩ : RawAttribute)).mapM
        RawAttribute.resolve) = .ok l := by
    intro l
    induction l with
    | nil => rfl
    | cons a l ih =>
      refine mapM_cons_eq_ok_iff.2 ⟨a, l, RawAttribute.resolve_eq_ok_iff.2 ?_, ih, rfl⟩
      exact ⟨_, unescape_escape _, by simp⟩
  rw [heldAttributes, attributes_flatMap hkeys hnodup fun _ _ => List.not_mem_nil, hvalues]

/-- A tag that was written names its element and carries the attributes that come back. -/
theorem elementOf_writeHead {name : String} {attrs : List (String × String)} {text : String}
    (hname : isElementName name = true) (hkeys : ∀ a ∈ attrs, isElementName a.1 = true) :
    elementOf (writeHead ⟨name, attrs, text, []⟩) =
      .ok { name, attrs := heldAttributes attrs } := by
  have hblank : ∀ c ∈ name.toList, (!isBlank c) = true := fun c hc => by
    rw [isBlank_eq_false_of_isNameChar (isNameChar_of_mem hname c hc)]; rfl
  have hcut : (writeHead ⟨name, attrs, text, []⟩).takeWhile (!isBlank ·) = name.toList ∧
      skipWord (writeHead ⟨name, attrs, text, []⟩) = attrs.flatMap writeAttribute := by
    unfold skipWord writeHead
    rw [List.takeWhile_append_of_pos hblank, List.dropWhile_append_of_pos hblank]
    cases attrs with
    | nil => simp
    | cons a attrs =>
      have hspace : isBlank ' ' = true := by decide
      simp [writeAttribute, hspace]
  refine elementOf_eq_ok_iff.2 ⟨heldAttributes attrs, ?_, ?_⟩
  · rw [hcut.2]
    exact mapM_attributes_eq_ok hkeys
  · rw [hcut.1, String.ofList_toList]

/-! ## Trees -/

namespace Node

/-- The tree as it comes back from its document: an element with children has lost its text, and
one that repeats a key some of its attributes. -/
def reread : Node → Node
  | ⟨name, attrs, text, children⟩ =>
    ⟨name, heldAttributes attrs, if children.isEmpty then text else "", children.map reread⟩

theorem name_reread (node : Node) : node.reread.name = node.name := by
  cases node
  rw [reread]

/-- An element with children has no text when it comes back. -/
theorem reread_append_cons (name : String) (attrs : List (String × String)) (text : String)
    (before : List Node) (child : Node) (after : List Node) :
    reread ⟨name, attrs, text, before ++ child :: after⟩ =
      ⟨name, heldAttributes attrs, "", before.map reread ++ child.reread :: after.map reread⟩ := by
  have hsome : (before ++ child :: after).isEmpty = false := by simp
  rw [reread, hsome, List.map_append, List.map_cons]
  rfl

theorem IsWritable.hasElementNames {node : Node} (h : node.IsWritable) :
    node.HasElementNames := by
  induction node using Node.induct with
  | step name attrs text children ih =>
    cases h with
    | mk hname hkeys _ hchildren =>
      exact .mk hname hkeys fun child hchild => ih child hchild (hchildren child hchild)

/-- Where no key is repeated only texts beside children are lost. -/
theorem IsWritable.reread_eq_tidy {node : Node} (h : node.IsWritable) :
    node.reread = node.tidy := by
  induction node using Node.induct with
  | step name attrs text children ih =>
    cases h with
    | mk hname hkeys hnodup hchildren =>
      have hall : children.map reread = children.map tidy :=
        List.map_congr_left fun child hchild => ih child hchild (hchildren child hchild)
      rw [reread, tidy, heldAttributes_eq_self hkeys hnodup, hall]

end Node

end Filing.Xml
