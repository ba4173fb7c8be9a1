import Filing.Xml.Error

/-!
# Markup

What a document is made of on its surface: runs of text, tags, CDATA sections, and asides (comments,
processing instructions, document types) that carry no data. `next` cuts the next of these pieces
off a document; names and nesting are looked at later.

Main statement: a piece is never empty (`length_rest_lt`), so cutting pieces off comes to an end.
-/

namespace Filing.Xml

open Filing.Text (breakAt dropWord? utf8Size)

/-- Blank, tab, line feed and carriage return. -/
def isBlank (c : Char) : Bool := c == ' ' || c == '\t' || c == '\n' || c == '\r'

/-- A piece of a document. -/
inductive Token where
  /-- A run of text, its references still in place. -/
  | text (raw : List Char)
  /-- A start tag, without its angle brackets. -/
  | startTag (body : List Char)
  /-- The tag of an empty element, without its angle brackets and the closing slash. -/
  | emptyTag (body : List Char)
  /-- An end tag with the given name. -/
  | endTag (name : List Char)
  /-- The content of a CDATA section. -/
  | cdata (content : List Char)
  /-- A comment, a processing instruction or a document type. -/
  | aside
deriving DecidableEq, Repr

/-- A piece cut off a document. -/
structure Cut where
  /-- The piece. -/
  token : Token
  /-- Its size in the document, in bytes. -/
  size : Nat
  /-- What follows it. -/
  rest : List Char

/-! ## Where a piece ends -/

/-- Cuts at the first closing bracket outside quotes; `quote` is the quote that is open. -/
def breakTag : Option Char → List Char → Option (List Char × List Char)
  | _, [] => none
  | none, c :: rest =>
    if c = '>' then some ([], rest)
    else (breakTag (if c = '"' ∨ c = '\'' then some c else none) rest).map fun (a, b) => (c :: a, b)
  | some q, c :: rest =>
    (breakTag (if c = q then none else some q) rest).map fun (a, b) => (c :: a, b)

/-- Cuts at the first closing bracket before which `done` accepts the characters, given in reverse;
answers those characters, still in reverse, and what follows the bracket. -/
def breakWhere (done : List Char → Bool) : List Char → List Char → Option (List Char × List Char)
  | _, [] => none
  | acc, c :: rest =>
    if c = '>' ∧ done acc = true then some (acc, rest) else breakWhere done (c :: acc) rest

/-- Cuts at the closing bracket that balances the opening ones, of which `depth` are open. -/
def breakBalanced : Nat → List Char → Option (List Char × List Char)
  | _, [] => none
  | depth, c :: rest =>
    if c = '>' then
      match depth with
      | 0 => some ([], rest)
      | depth + 1 => (breakBalanced depth rest).map fun (a, b) => (c :: a, b)
    else
      (breakBalanced (if c = '<' then depth + 1 else depth) rest).map fun (a, b) => (c :: a, b)

/-- A comment ends behind two hyphens other than those that open it. -/
def endsComment : List Char → Bool
  | '-' :: '-' :: _ :: _ :: _ => true
  | _ => false

/-- A CDATA section ends behind two brackets. -/
def endsCData : List Char → Bool
  | ']' :: ']' :: _ => true
  | _ => false

/-- A processing instruction ends behind a question mark. -/
def endsInstruction : List Char → Bool
  | '?' :: _ => true
  | _ => false

/-! ## The pieces -/

/-- The name in an end tag: blanks behind it do not count, unless there is nothing else. -/
def endName (body : List Char) : List Char :=
  if body.all isBlank then body else (body.reverse.dropWhile isBlank).reverse

/-- A comment, from behind the exclamation mark. -/
def comment (s : List Char) : Except Fault Cut :=
  match breakWhere endsComment [] s with
  | some (acc, rest) =>
    if ['-', '-'].isPrefixOf acc.reverse then .ok ⟨.aside, utf8Size acc + 3, rest⟩
    else .error .unclosedComment
  | none => .error .unclosedComment

/-- A CDATA section, from behind the exclamation mark. -/
def cdata (s : List Char) : Except Fault Cut :=
  match breakWhere endsCData [] s with
  | some (acc, rest) =>
    match "[CDATA[".toList.isPrefixOf? acc.reverse with
    | some content =>
      .ok ⟨.cdata (content.take (content.length - 2)), utf8Size acc + 3, rest⟩
    | none => .error .unclosedCData
  | none => .error .unclosedCData

/-- A document type, from behind the exclamation mark. -/
def doctype (s : List Char) : Except Fault Cut :=
  match breakBalanced 0 s with
  | some (body, rest) =>
    match dropWord? "doctype".toList body with
    | some name =>
      if name.all isBlank then .error .unnamedDoctype
      else .ok ⟨.aside, utf8Size body + 3, rest⟩
    | none => .error .unclosedDoctype
  | none => .error .unclosedDoctype

/-- A processing instruction or the XML declaration, from its question mark on. -/
def instruction (s : List Char) : Except Fault Cut :=
  match breakWhere endsInstruction [] s with
  | some (acc, rest) =>
    if acc.length ≤ 1 then .error .unclosedInstruction
    else .ok ⟨.aside, utf8Size acc + 2, rest⟩
  | none => .error .unclosedInstruction

/-- An end tag, from behind its slash. -/
def endTag (s : List Char) : Except Fault Cut :=
  match breakTag none s with
  | some (body, rest) => .ok ⟨.endTag (endName body), utf8Size body + 3, rest⟩
  | none => .error .unclosedTag

/-- A start tag or the tag of an empty element, from behind its bracket. -/
def tag (s : List Char) : Except Fault Cut :=
  match breakTag none s with
  | some (body, rest) =>
    let token := if body.getLast? = some '/' then .emptyTag body.dropLast else .startTag body
    .ok ⟨token, utf8Size body + 2, rest⟩
  | none => .error .unclosedTag

/-- The piece that begins behind an opening bracket. -/
def markup : List Char → Except Fault Cut
  | '!' :: rest =>
    match rest with
    | '-' :: _ => comment rest
    | '[' :: _ => cdata rest
    | 'D' :: _ => doctype rest
    | 'd' :: _ => doctype rest
    | _ => .error .unknownMarkup
  | '?' :: rest => instruction ('?' :: rest)
  | '/' :: rest => endTag rest
  | s => tag s

/-- The piece that begins with a character `c`, the characters `rest` following. -/
def next (c : Char) (rest : List Char) : Except Fault Cut :=
  if c = '<' then markup rest
  else
    let raw := rest.takeWhile (· != '<')
    .ok ⟨.text (c :: raw), c.utf8Size + utf8Size raw, rest.dropWhile (· != '<')⟩

/-! ## A piece is never empty -/

theorem length_lt_of_breakTag {q : Option Char} {s a b : List Char}
    (h : breakTag q s = some (a, b)) : b.length < s.length := by
  induction s generalizing q a b with
  | nil => cases q <;> simp [breakTag] at h
  | cons c rest ih =>
    cases q with
    | none =>
      simp only [breakTag] at h
      split at h
      · simp only [Option.some.injEq, Prod.mk.injEq] at h; simp [h.2]
      · simp only [Option.map_eq_some_iff, Prod.mk.injEq, Prod.exists] at h
        obtain ⟨a', b', h', -, rfl⟩ := h
        have := ih h'
        simp only [List.length_cons]; omega
    | some q =>
      simp only [breakTag, Option.map_eq_some_iff, Prod.mk.injEq, Prod.exists] at h
      obtain ⟨a', b', h', -, rfl⟩ := h
      have := ih h'
      simp only [List.length_cons]; omega

theorem length_lt_of_breakWhere {done : List Char → Bool} {acc s a b : List Char}
    (h : breakWhere done acc s = some (a, b)) : b.length < s.length := by
  induction s generalizing acc with
  | nil => simp [breakWhere] at h
  | cons c rest ih =>
    simp only [breakWhere] at h
    split at h
    · simp only [Option.some.injEq, Prod.mk.injEq] at h; simp [h.2]
    · have := ih h
      simp only [List.length_cons]; omega

theorem length_lt_of_breakBalanced {n : Nat} {s a b : List Char}
    (h : breakBalanced n s = some (a, b)) : b.length < s.length := by
  induction s generalizing n a b with
  | nil => simp [breakBalanced] at h
  | cons c rest ih =>
    simp only [breakBalanced] at h
    split at h
    · split at h
      · simp only [Option.some.injEq, Prod.mk.injEq] at h; simp [h.2]
      · simp only [Option.map_eq_some_iff, Prod.mk.injEq, Prod.exists] at h
        obtain ⟨a', b', h', -, rfl⟩ := h
        have := ih h'
        simp only [List.length_cons]; omega
    · simp only [Option.map_eq_some_iff, Prod.mk.injEq, Prod.exists] at h
      obtain ⟨a', b', h', -, rfl⟩ := h
      have := ih h'
      simp only [List.length_cons]; omega

theorem length_rest_lt_of_markup {s : List Char} {cut : Cut} (h : markup s = .ok cut) :
    cut.rest.length < s.length := by
  have htag : ∀ {t : List Char}, tag t = .ok cut → cut.rest.length < t.length := by
    intro t ht
    unfold tag at ht
    split at ht
    · next hb => simp only [Except.ok.injEq] at ht; exact ht ▸ length_lt_of_breakTag hb
    · cases ht
  unfold markup at h
  split at h
  · next rest =>
    have hbang : cut.rest.length < rest.length := by
      split at h
      · unfold comment at h
        split at h
        · next hb =>
          split at h
          · simp only [Except.ok.injEq] at h; exact h ▸ length_lt_of_breakWhere hb
          · cases h
        · cases h
      · unfold cdata at h
        split at h
        · next hb =>
          split at h
          · simp only [Except.ok.injEq] at h; exact h ▸ length_lt_of_breakWhere hb
          · cases h
        · cases h
      · unfold doctype at h
        split at h
        · next hb =>
          split at h
          · split at h
            · cases h
            · simp only [Except.ok.injEq] at h; exact h ▸ length_lt_of_breakBalanced hb
          · cases h
        · cases h
      · unfold doctype at h
        split at h
        · next hb =>
          split at h
          · split at h
            · cases h
            · simp only [Except.ok.injEq] at h; exact h ▸ length_lt_of_breakBalanced hb
          · cases h
        · cases h
      · cases h
    simp only [List.length_cons]; omega
  · unfold instruction at h
    split at h
    · next hb =>
      split at h
      · cases h
      · simp only [Except.ok.injEq] at h; exact h ▸ length_lt_of_breakWhere hb
    · cases h
  · unfold endTag at h
    split at h
    · next hb =>
      simp only [Except.ok.injEq] at h
      have := length_lt_of_breakTag hb
      rw [← h]
      simp only [List.length_cons]; omega
    · cases h
  · exact htag h

/-- What follows a piece is shorter than the document. -/
theorem length_rest_lt {c : Char} {rest : List Char} {cut : Cut} (h : next c rest = .ok cut) :
    cut.rest.length < (c :: rest).length := by
  unfold next at h
  split at h
  · have := length_rest_lt_of_markup h
    simp only [List.length_cons]; omega
  · simp only [Except.ok.injEq] at h
    rw [← h]
    simp only [List.length_cons]
    have := (List.dropWhile_suffix (· != '<') : rest.dropWhile (· != '<') <:+ rest).length_le
    omega

end Filing.Xml
