import Filing.Xml.Reader
import Filing.Xml.Writer

/-!
# What a written document looks like

The writer appends to a text; here the same document is a list of characters, one clause for each
shape of an element (`written`), and the reader's scanning functions are computed on its parts: tags
end where their bracket stands, quoted values hold no bracket, and the attributes of a tag are the
ones that were written into it.

`tidy` is the tree as a reader can see it: the text of an element with children is not written.
-/

namespace Filing.Xml

open Filing.Path (isElementName isNameChar isNameOf isNameStart)

/-! ## Trees -/

/-- Induction over a tree: what holds of an element when it holds of its children holds of all. -/
theorem Node.induct {motive : Node → Prop}
    (step : ∀ name attrs text children, (∀ child ∈ children, motive child) →
      motive ⟨name, attrs, text, children⟩) : ∀ node, motive node
  | ⟨name, attrs, text, children⟩ => step name attrs text children fun child _ =>
    Node.induct step child

/-- An element with names that can be written, keys that can be written and are not repeated, and
children of which the same is true. -/
inductive Node.IsWritable : Node → Prop where
  /-- What is asked of an element besides its children. -/
  | mk {name : String} {attrs : List (String × String)} {text : String} {children : List Node}
      (hname : isElementName name = true) (hkeys : ∀ a ∈ attrs, isElementName a.1 = true)
      (hnodup : (attrs.map (·.1)).Nodup) (hchildren : ∀ child ∈ children, child.IsWritable) :
      IsWritable ⟨name, attrs, text, children⟩

/-- All elements and all attributes are called by element names. -/
inductive Node.HasElementNames : Node → Prop where
  | mk {name : String} {attrs : List (String × String)} {text : String} {children : List Node}
      (hname : isElementName name = true) (hkeys : ∀ a ∈ attrs, isElementName a.1 = true)
      (hchildren : ∀ child ∈ children, child.HasElementNames) :
      HasElementNames ⟨name, attrs, text, children⟩

/-- The tree as a reader sees it: an element with children has no text. -/
def Node.tidy : Node → Node
  | ⟨name, attrs, text, children⟩ =>
    ⟨name, attrs, if children.isEmpty then text else "", children.map Node.tidy⟩
termination_by node => sizeOf node

@[simp] theorem Node.name_tidy (node : Node) : node.tidy.name = node.name := by
  cases node; simp [Node.tidy]

@[simp] theorem Node.attrs_tidy (node : Node) : node.tidy.attrs = node.attrs := by
  cases node; simp [Node.tidy]

@[simp] theorem Node.children_tidy (node : Node) :
    node.tidy.children = node.children.map Node.tidy := by
  cases node; simp [Node.tidy]

theorem Node.text_tidy (node : Node) :
    node.tidy.text = if node.children.isEmpty then node.text else "" := by
  cases node; simp [Node.tidy]

/-! ## The document as a list of characters -/

/-- An element whose tags stand at `level`. -/
def written (level : Nat) : Node → List Char
  | ⟨name, attrs, text, children⟩ =>
    let head := newline level ++ '<' :: writeHead ⟨name, attrs, text, []⟩
    if children.isEmpty then
      if text.isEmpty then head ++ ['/', '>']
      else head ++ '>' :: (escape text.toList ++ '<' :: '/' :: (name.toList ++ ['>']))
    else head ++ '>' :: ((children.flatMap (written (level + 1))) ++
      (newline level ++ '<' :: '/' :: (name.toList ++ ['>'])))

mutual

theorem toList_writeNode (level : Nat) (out : String) :
    ∀ node : Node, (writeNode level out node).toList = out.toList ++ written level node
  | ⟨name, attrs, text, []⟩ => by
    by_cases h : text.isEmpty = true
    · simp [writeNode, written, h, String.toList_append]
    · simp [writeNode, written, h, String.toList_append]
  | ⟨name, attrs, text, child :: children⟩ => by
    simp [writeNode, written, String.toList_append, toList_writeNodes, toList_writeNode]

theorem toList_writeNodes (level : Nat) (out : String) :
    ∀ nodes : List Node,
      (writeNodes level out nodes).toList = out.toList ++ nodes.flatMap (written level)
  | [] => by simp [writeNodes]
  | node :: rest => by simp [writeNodes, toList_writeNodes, toList_writeNode]

end

/-! ## Characters that are not written as themselves -/

/-- The characters that mean something to the reader are not among those of names. -/
theorem not_mem_of_isNameChar {c : Char} (h : isNameChar c = true) :
    c ∉ [' ', '\t', '\n', '\r', '=', '<', '>', '"', '\'', '/', '!', '?'] := by
  have hnone : [' ', '\t', '\n', '\r', '=', '<', '>', '"', '\'', '/', '!', '?'].all
      (!isNameChar ·) = true := by decide +kernel
  intro hmem
  have hc := List.all_eq_true.1 hnone c hmem
  rw [h] at hc
  exact absurd hc (by decide)

/-- An element name is a first character and further ones, all of them name characters. -/
theorem exists_cons_of_isElementName {name : String} (h : isElementName name = true) :
    ∃ c rest, name.toList = c :: rest ∧ ∀ d ∈ c :: rest, isNameChar d = true := by
  unfold isElementName at h
  cases hs : name.toList with
  | nil => simp [hs, isNameOf] at h
  | cons c rest =>
    simp only [hs, isNameOf, Bool.and_eq_true, List.all_eq_true] at h
    refine ⟨c, rest, rfl, fun d hd => ?_⟩
    rcases List.mem_cons.1 hd with rfl | hd
    · exact Path.isNameChar_of_isNameStart h.1
    · exact h.2 d hd

theorem isNameChar_of_mem {name : String} (h : isElementName name = true) :
    ∀ c ∈ name.toList, isNameChar c = true := by
  obtain ⟨c, rest, hs, hall⟩ := exists_cons_of_isElementName h
  rw [hs]
  exact hall

theorem isBlank_eq_false_of_isNameChar {c : Char} (h : isNameChar c = true) :
    isBlank c = false := by
  have hc := not_mem_of_isNameChar h
  simp only [List.mem_cons, not_or] at hc
  simp [isBlank, hc]

theorem endsKey_eq_false_of_isNameChar {c : Char} (h : isNameChar c = true) :
    endsKey c = false := by
  have hc := not_mem_of_isNameChar h
  simp only [List.mem_cons, not_or] at hc
  simp [endsKey, isBlank, hc]

theorem mem_escapeChar {c d : Char} (h : d ∈ escapeChar c) : d ≠ '<' ∧ d ≠ '"' := by
  have hplain : ∀ text : List Char, text.all (fun d => d != '<' && d != '"') = true → d ∈ text →
      d ≠ '<' ∧ d ≠ '"' := by
    intro text htext hd
    have hboth := List.all_eq_true.1 htext d hd
    rw [Bool.and_eq_true, bne_iff_ne, bne_iff_ne] at hboth
    exact hboth
  unfold escapeChar at h
  split at h
  · exact hplain "&lt;".toList (by decide) h
  · split at h
    · exact hplain "&gt;".toList (by decide) h
    · split at h
      · exact hplain "&amp;".toList (by decide) h
      · split at h
        · exact hplain "&apos;".toList (by decide) h
        · split at h
          · exact hplain "&quot;".toList (by decide) h
          · next hlt _ _ _ hquot =>
            rw [List.mem_singleton.1 h]
            exact ⟨hlt, hquot⟩

/-- Escaped texts hold neither opening brackets nor quotes. -/
theorem mem_escape {s : List Char} {d : Char} (h : d ∈ escape s) : d ≠ '<' ∧ d ≠ '"' := by
  obtain ⟨c, -, hc⟩ := List.mem_flatMap.1 h
  exact mem_escapeChar hc

theorem escapeChar_ne_nil (c : Char) : escapeChar c ≠ [] := by
  unfold escapeChar
  repeat' split
  all_goals simp

/-- Escaping keeps a text from being empty. -/
theorem escape_ne_nil {s : List Char} (h : s ≠ []) : escape s ≠ [] := by
  cases s with
  | nil => exact absurd rfl h
  | cons c s => simp [escape, escapeChar_ne_nil]

/-- Line breaks and indentation are written as themselves. -/
theorem escape_newline (level : Nat) : escape (newline level) = newline level := by
  have hspaces : ∀ n, escape (List.replicate n ' ') = List.replicate n ' ' := by
    intro n
    induction n with
    | zero => rfl
    | succ n ih =>
      have hcons : escape (' ' :: List.replicate n ' ') = ' ' :: escape (List.replicate n ' ') :=
        rfl
      rw [List.replicate_succ, hcons, ih]
  have hcons : escape (newline level) = '\n' :: escape (List.replicate (2 * level) ' ') := rfl
  rw [hcons, hspaces]
  rfl

/-! ## Where tags end -/

/-- Characters that are neither quotes nor closing brackets belong to the tag. -/
theorem breakTag_append {s : List Char} (t : List Char)
    (hs : ∀ c ∈ s, c ≠ '>' ∧ c ≠ '"' ∧ c ≠ '\'') :
    breakTag none (s ++ t) = (breakTag none t).map fun (a, b) => (s ++ a, b) := by
  induction s with
  | nil => simp
  | cons c s ih =>
    obtain ⟨h1, h2, h3⟩ := hs c (by simp)
    rw [List.cons_append]
    simp only [breakTag, h1, h2, h3, or_self, if_false]
    rw [ih fun d hd => hs d (by simp [hd])]
    simp [Option.map_map, Function.comp_def]

/-- Between quotes, everything up to the quote that closes belongs to the tag. -/
theorem breakTag_quoted {q : Char} {s : List Char} (t : List Char) (hs : ∀ c ∈ s, c ≠ q) :
    breakTag (some q) (s ++ q :: t) = (breakTag none t).map fun (a, b) => (s ++ q :: a, b) := by
  induction s with
  | nil => simp [breakTag]
  | cons c s ih =>
    rw [List.cons_append]
    simp only [breakTag, hs c (by simp), if_false]
    rw [ih fun d hd => hs d (by simp [hd])]
    simp [Option.map_map, Function.comp_def]

theorem breakTag_name {name : String} (h : isElementName name = true) (t : List Char) :
    breakTag none (name.toList ++ t) =
      (breakTag none t).map fun (a, b) => (name.toList ++ a, b) := by
  refine breakTag_append t fun c hc => ?_
  have hc := not_mem_of_isNameChar (isNameChar_of_mem h c hc)
  simp only [List.mem_cons, not_or] at hc
  simp [hc]

theorem breakTag_writeAttribute {a : String × String} (h : isElementName a.1 = true)
    (t : List Char) :
    breakTag none (writeAttribute a ++ t) =
      (breakTag none t).map fun (x, y) => (writeAttribute a ++ x, y) := by
  have hquoted := breakTag_quoted t fun c hc => (mem_escape (s := a.2.toList) hc).2
  have hname := breakTag_name h ('=' :: '"' :: (escape a.2.toList ++ '"' :: t))
  have hshape : writeAttribute a ++ t =
      ' ' :: (a.1.toList ++ '=' :: '"' :: (escape a.2.toList ++ '"' :: t)) := by
    simp [writeAttribute]
  rw [hshape]
  simp [breakTag, hname, hquoted, Option.map_map, Function.comp_def, writeAttribute]

/-- A head that was written ends where it was ended. -/
theorem breakTag_writeHead {node : Node} (hname : isElementName node.name = true)
    (hkeys : ∀ a ∈ node.attrs, isElementName a.1 = true) (t : List Char) :
    breakTag none (writeHead node ++ t) =
      (breakTag none t).map fun (a, b) => (writeHead node ++ a, b) := by
  have hattrs : ∀ attrs : List (String × String), (∀ a ∈ attrs, isElementName a.1 = true) →
      breakTag none (attrs.flatMap writeAttribute ++ t) =
        (breakTag none t).map fun (a, b) => (attrs.flatMap writeAttribute ++ a, b) := by
    intro attrs hattrs
    induction attrs with
    | nil => simp
    | cons a attrs ih =>
      rw [List.flatMap_cons, List.append_assoc, breakTag_writeAttribute (hattrs a (by simp)),
        ih fun b hb => hattrs b (by simp [hb])]
      simp [Option.map_map, Function.comp_def]
  unfold writeHead
  rw [List.append_assoc, breakTag_name hname, hattrs node.attrs hkeys]
  simp [Option.map_map, Function.comp_def]

/-! ## The attributes of a tag -/

theorem takeWhile_append_of_forall {α : Type} {p : α → Bool} {s : List α} {d : α} (t : List α)
    (hs : ∀ c ∈ s, p c = true) (hd : p d = false) : (s ++ d :: t).takeWhile p = s := by
  rw [List.takeWhile_append_of_pos hs]
  simp [hd]

theorem dropWhile_append_of_forall {α : Type} {p : α → Bool} {s : List α} {d : α} (t : List α)
    (hs : ∀ c ∈ s, p c = true) (hd : p d = false) : (s ++ d :: t).dropWhile p = d :: t := by
  rw [List.dropWhile_append_of_pos hs]
  simp [hd]

theorem breakAt_append {α : Type} {p : α → Bool} {s : List α} {d : α} (t : List α)
    (hs : ∀ c ∈ s, p c = false) (hd : p d = true) :
    Text.breakAt p (s ++ d :: t) = some (s, t) := by
  induction s with
  | nil => simp [Text.breakAt, hd]
  | cons c s ih =>
    simp [Text.breakAt, hs c (by simp), ih fun x hx => hs x (by simp [hx])]

/-- The first attribute of a tag, when its key is new and its value stands between quotes. -/
theorem attributes_eq_cons {seen : List (List Char)} {s rest after value raw more : List Char}
    {c q : Char} (hs : s.dropWhile isBlank = c :: rest)
    (hkey : (rest.dropWhile (!endsKey ·)).dropWhile isBlank = '=' :: after)
    (hseen : c :: rest.takeWhile (!endsKey ·) ∉ seen)
    (hvalue : after.dropWhile isBlank = q :: value) (hq : q = '"' ∨ q = '\'')
    (hraw : Text.breakAt (· == q) value = some (raw, more)) :
    attributes seen s = ⟨c :: rest.takeWhile (!endsKey ·), raw⟩ ::
      attributes ((c :: rest.takeWhile (!endsKey ·)) :: seen) more := by
  rw [attributes]
  split
  · next h => rw [hs] at h; exact absurd h (by simp)
  · next c' rest' h =>
    rw [hs, List.cons.injEq] at h
    obtain ⟨rfl, rfl⟩ := h
    dsimp only
    split
    · next h => rw [hkey] at h; exact absurd h (by simp)
    · next d after' h =>
      rw [hkey, List.cons.injEq] at h
      obtain ⟨rfl, rfl⟩ := h
      rw [if_neg (by simp), if_neg hseen]
      split
      · next h => rw [hvalue] at h; exact absurd h (by simp)
      · next q' value' h =>
        rw [hvalue, List.cons.injEq] at h
        obtain ⟨rfl, rfl⟩ := h
        rw [if_pos hq]
        split
        · next h => rw [hraw] at h; exact absurd h (by simp)
        · next raw' more' h =>
          rw [hraw, Option.some.injEq, Prod.mk.injEq] at h
          obtain ⟨rfl, rfl⟩ := h
          rfl

/-- The first attribute of a tag, when it is written as it should be: blanks may stand around its key
and its equals sign. -/
theorem attributes_quoted {seen : List (List Char)} {gap key before after raw : List Char}
    {q : Char}
    (hgap : ∀ c ∈ gap, isBlank c = true) (hne : key ≠ []) (hkey : ∀ c ∈ key, endsKey c = false)
    (hbefore : ∀ c ∈ before, isBlank c = true) (hafter : ∀ c ∈ after, isBlank c = true)
    (hq : q = '"' ∨ q = '\'') (hraw : q ∉ raw) (hseen : key ∉ seen) (rest : List Char) :
    attributes seen (gap ++ (key ++ (before ++ '=' :: (after ++ q :: (raw ++ q :: rest))))) =
      ⟨key, raw⟩ :: attributes (key :: seen) rest := by
  obtain ⟨c, letters, rfl⟩ := List.exists_cons_of_ne_nil hne
  have hletters : ∀ d ∈ letters, (!endsKey d) = true := fun d hd => by
    rw [hkey d (List.mem_cons_of_mem _ hd)]
    rfl
  obtain ⟨d, more, htail, hd⟩ : ∃ d more,
      before ++ '=' :: (after ++ q :: (raw ++ q :: rest)) = d :: more ∧ (!endsKey d) = false := by
    cases before with
    | nil => exact ⟨'=', _, rfl, by decide⟩
    | cons d before => exact ⟨d, _, rfl, by simp [endsKey, hbefore d List.mem_cons_self]⟩
  have hquote : isBlank q = false := by
    rcases hq with rfl | rfl <;> decide
  have hc : isBlank c = false := by
    have hends := hkey c List.mem_cons_self
    rw [endsKey, Bool.or_eq_false_iff] at hends
    exact hends.2
  have hs : (gap ++ (c :: letters ++ d :: more)).dropWhile isBlank = c :: (letters ++ d :: more) :=
    dropWhile_append_of_forall _ hgap hc
  have hequals : ((letters ++ d :: more).dropWhile (!endsKey ·)).dropWhile isBlank =
      '=' :: (after ++ q :: (raw ++ q :: rest)) := by
    rw [dropWhile_append_of_forall more hletters hd, ← htail]
    exact dropWhile_append_of_forall _ hbefore (by decide)
  have hvalue : (after ++ q :: (raw ++ q :: rest)).dropWhile isBlank = q :: (raw ++ q :: rest) :=
    dropWhile_append_of_forall _ hafter hquote
  have hbreak : Text.breakAt (· == q) (raw ++ q :: rest) = some (raw, rest) :=
    breakAt_append rest (fun e he => beq_false_of_ne fun heq => hraw (heq ▸ he))
      (beq_self_eq_true q)
  have htake : (letters ++ d :: more).takeWhile (!endsKey ·) = letters :=
    takeWhile_append_of_forall more hletters hd
  have hfirst := attributes_eq_cons hs hequals (by rwa [htake]) hvalue hq hbreak
  rw [htail, hfirst, htake]

/-- Reading one attribute that was written. -/
theorem attributes_writeAttribute {seen : List (List Char)} {a : String × String}
    (ha : isElementName a.1 = true) (hseen : a.1.toList ∉ seen) (t : List Char) :
    attributes seen (writeAttribute a ++ t) =
      ⟨a.1.toList, escape a.2.toList⟩ :: attributes (a.1.toList :: seen) t := by
  obtain ⟨c, rest, hkey, hchars⟩ := exists_cons_of_isElementName ha
  have hshape : writeAttribute a ++ t =
      [' '] ++ (a.1.toList ++ ([] ++ '=' :: ([] ++ '"' :: (escape a.2.toList ++ '"' :: t)))) := by
    simp [writeAttribute]
  rw [hshape]
  exact attributes_quoted (List.forall_mem_singleton.2 rfl)
    (by rw [hkey]; exact List.cons_ne_nil _ _)
    (fun d hd => endsKey_eq_false_of_isNameChar (isNameChar_of_mem ha d hd)) (by simp) (by simp)
    (.inl rfl) (fun hmem => (mem_escape hmem).2 rfl) hseen t

/-- The attributes of a tag are those that were written into it. -/
theorem attributes_flatMap {attrs : List (String × String)} {seen : List (List Char)}
    (hkeys : ∀ a ∈ attrs, isElementName a.1 = true) (hnodup : (attrs.map (·.1)).Nodup)
    (hseen : ∀ a ∈ attrs, a.1.toList ∉ seen) :
    attributes seen (attrs.flatMap writeAttribute) =
      attrs.map fun a => ⟨a.1.toList, escape a.2.toList⟩ := by
  induction attrs generalizing seen with
  | nil => rw [List.flatMap_nil, attributes]; rfl
  | cons a attrs ih =>
    rw [List.map_cons, List.nodup_cons] at hnodup
    rw [List.flatMap_cons, attributes_writeAttribute (hkeys a (by simp)) (hseen a (by simp)),
      ih (fun b hb => hkeys b (by simp [hb])) hnodup.2, List.map_cons]
    intro b hb
    rw [List.mem_cons, not_or]
    refine ⟨fun heq => hnodup.1 ?_, hseen b (by simp [hb])⟩
    rw [← String.toList_injective heq]
    exact List.mem_map_of_mem hb

end Filing.Xml
