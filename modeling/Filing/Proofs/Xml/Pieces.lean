import Filing.Proofs.Text.Words
import Filing.Proofs.Xml.ReadBack
import Mathlib.Data.List.Basic

/-!
# How the pieces of a document are written

The reader cuts a document from the front, one piece after another, with a scan for the end of each
kind of piece. What these scans find is said here without them: a tag ends at a bracket outside
quotes, a comment at the first bracket behind two hyphens, and so on. A document can be read only if
all of it is such pieces, and it is then read by taking them up in turn.

Main statements: `exists_cut_iff`, `readFrom_eq_ok_iff`.
-/

namespace Filing.Xml

open Filing.Text (utf8Size dropWord?)

/-! ## How pieces are written -/

/-- Text in which every closing bracket stands between quotes, and no quote stays open. -/
inductive IsQuoted : List Char → Prop where
  | nil : IsQuoted []
  | char {c : Char} {s : List Char} (hc : c ≠ '>' ∧ c ≠ '"' ∧ c ≠ '\'') (hs : IsQuoted s) :
    IsQuoted (c :: s)
  | quotes {q : Char} {inner s : List Char} (hq : q = '"' ∨ q = '\'') (hinner : q ∉ inner)
    (hs : IsQuoted s) : IsQuoted (q :: (inner ++ q :: s))

/-- Text that closes `depth` brackets more than it opens, but none before it is open. -/
inductive IsBalanced : Nat → List Char → Prop where
  | nil : IsBalanced 0 []
  | char {depth : Nat} {c : Char} {s : List Char} (hc : c ≠ '<' ∧ c ≠ '>')
    (hs : IsBalanced depth s) : IsBalanced depth (c :: s)
  | opening {depth : Nat} {s : List Char} (hs : IsBalanced (depth + 1) s) :
    IsBalanced depth ('<' :: s)
  | closing {depth : Nat} {s : List Char} (hs : IsBalanced depth s) :
    IsBalanced (depth + 1) ('>' :: s)

/-- The body of a tag begins like that of a start tag. -/
def OpensTag (body : List Char) : Prop := ∀ c, body.head? = some c → c ∉ ['!', '?', '/']

/-- A piece is written so. -/
inductive Spells : Token → List Char → Prop where
  | text {raw : List Char} (hne : raw ≠ []) (hraw : '<' ∉ raw) : Spells (.text raw) raw
  | startTag {body : List Char} (hopens : OpensTag body) (hquoted : IsQuoted body)
    (hlast : body.getLast? ≠ some '/') : Spells (.startTag body) ('<' :: (body ++ ['>']))
  | emptyTag {body : List Char} (hopens : OpensTag (body ++ ['/']))
    (hquoted : IsQuoted (body ++ ['/'])) : Spells (.emptyTag body) ('<' :: (body ++ ['/', '>']))
  | endTag {body : List Char} (hquoted : IsQuoted body) :
    Spells (.endTag (endName body)) ('<' :: '/' :: (body ++ ['>']))
  | cdata {content : List Char} (hend : ¬ "]]>".toList <:+: content) :
    Spells (.cdata content) ('<' :: '!' :: ("[CDATA[".toList ++ (content ++ [']', ']', '>'])))
  | comment {content : List Char} (hend : ¬ "-->".toList <:+: content) :
    Spells .aside ('<' :: '!' :: '-' :: '-' :: (content ++ ['-', '-', '>']))
  | instruction {content : List Char} (hend : ¬ "?>".toList <:+: '?' :: content) :
    Spells .aside ('<' :: '?' :: (content ++ ['?', '>']))
  | doctype {word name : List Char} (hword : word.map Char.toLower = "doctype".toList)
    (hname : ¬ ∀ c ∈ name, isBlank c = true) (hbalanced : IsBalanced 0 (word ++ name)) :
    Spells .aside ('<' :: '!' :: (word ++ name ++ ['>']))

/-! ## Where pieces end -/

theorem map_cons_eq_some_iff {c : Char} {o : Option (List Char × List Char)} {a b : List Char} :
    o.map (fun (a, b) => (c :: a, b)) = some (a, b) ↔ ∃ a', o = some (a', b) ∧ a = c :: a' := by
  rw [Option.map_eq_some_iff]
  constructor
  · rintro ⟨⟨a', b'⟩, ho, heq⟩
    obtain ⟨rfl, rfl⟩ := Prod.mk.inj heq
    exact ⟨a', ho, rfl⟩
  · rintro ⟨a', ho, rfl⟩
    exact ⟨(a', b), ho, rfl⟩

theorem IsQuoted.breakTag {s : List Char} (h : IsQuoted s) (t : List Char) :
    breakTag none (s ++ '>' :: t) = some (s, t) := by
  induction h with
  | nil => simp [Xml.breakTag]
  | @char c s hc _ ih =>
    simp [Xml.breakTag, hc, ih]
  | @quotes q inner s hq hinner _ ih =>
    have hbracket : q ≠ '>' := by
      rintro rfl
      exact absurd hq (by decide)
    have hsplit : (q :: (inner ++ q :: s)) ++ '>' :: t = q :: (inner ++ q :: (s ++ '>' :: t)) := by
      simp
    have hinside : ∀ c ∈ inner, c ≠ q := fun c hc heq => hinner (heq ▸ hc)
    rw [hsplit]
    simp [Xml.breakTag, hbracket, hq, breakTag_quoted (s ++ '>' :: t) hinside, ih]

theorem isQuoted_of_breakTag {s a b : List Char} :
    (breakTag none s = some (a, b) → s = a ++ '>' :: b ∧ IsQuoted a) ∧
      ∀ q, q = '"' ∨ q = '\'' → breakTag (some q) s = some (a, b) → s = a ++ '>' :: b ∧
        ∃ inner outer, a = inner ++ q :: outer ∧ q ∉ inner ∧ IsQuoted outer := by
  induction s generalizing a b with
  | nil => simp [breakTag]
  | cons c s ih =>
    refine ⟨fun h => ?_, fun q hq h => ?_⟩
    · simp only [breakTag] at h
      split at h
      · next hc =>
        obtain ⟨rfl, rfl⟩ := Prod.mk.inj (Option.some.inj h)
        exact ⟨by rw [hc]; rfl, .nil⟩
      · next hc =>
        obtain ⟨a, hbreak, rfl⟩ := map_cons_eq_some_iff.1 h
        split at hbreak
        · next hq =>
          obtain ⟨rfl, inner, outer, rfl, hinner, houter⟩ := ih.2 c hq hbreak
          exact ⟨rfl, .quotes hq hinner houter⟩
        · next hq =>
          obtain ⟨rfl, hquoted⟩ := ih.1 hbreak
          exact ⟨rfl, .char ⟨hc, not_or.1 hq⟩ hquoted⟩
    · simp only [breakTag] at h
      obtain ⟨a, hbreak, rfl⟩ := map_cons_eq_some_iff.1 h
      split at hbreak
      · next hc =>
        obtain ⟨rfl, hquoted⟩ := ih.1 hbreak
        exact ⟨rfl, [], a, by rw [hc]; rfl, List.not_mem_nil, hquoted⟩
      · next hc =>
        obtain ⟨rfl, inner, outer, rfl, hinner, houter⟩ := ih.2 q hq hbreak
        refine ⟨rfl, c :: inner, outer, rfl, ?_, houter⟩
        rw [List.mem_cons, not_or]
        exact ⟨Ne.symm hc, hinner⟩

/-- A tag ends at the first bracket outside quotes. -/
theorem breakTag_eq_some_iff {s a b : List Char} :
    breakTag none s = some (a, b) ↔ s = a ++ '>' :: b ∧ IsQuoted a := by
  refine ⟨isQuoted_of_breakTag.1, ?_⟩
  rintro ⟨rfl, hquoted⟩
  exact hquoted.breakTag b

/-- A document type ends at the bracket that balances its first. -/
theorem breakBalanced_eq_some_iff {depth : Nat} {s a b : List Char} :
    breakBalanced depth s = some (a, b) ↔ s = a ++ '>' :: b ∧ IsBalanced depth a := by
  constructor
  · intro h
    induction s generalizing depth a b with
    | nil => simp [breakBalanced] at h
    | cons c s ih =>
      simp only [breakBalanced] at h
      split at h
      · next hc =>
        cases depth with
        | zero =>
          obtain ⟨rfl, rfl⟩ := Prod.mk.inj (Option.some.inj h)
          exact ⟨by rw [hc]; rfl, .nil⟩
        | succ depth =>
          obtain ⟨a, hbreak, rfl⟩ := map_cons_eq_some_iff.1 h
          obtain ⟨rfl, hbalanced⟩ := ih hbreak
          exact ⟨rfl, hc ▸ .closing hbalanced⟩
      · next hc =>
        obtain ⟨a, hbreak, rfl⟩ := map_cons_eq_some_iff.1 h
        obtain ⟨rfl, hbalanced⟩ := ih hbreak
        refine ⟨rfl, ?_⟩
        split at hbalanced
        · next hopen => exact hopen ▸ .opening hbalanced
        · next hopen => exact .char ⟨hopen, hc⟩ hbalanced
  · rintro ⟨rfl, hbalanced⟩
    induction hbalanced with
    | nil => simp [breakBalanced]
    | char hc _ ih => simp [breakBalanced, hc, ih]
    | opening _ ih => simp [breakBalanced, ih]
    | closing _ ih => simp [breakBalanced, ih]

theorem breakWhere_eq_some_iff_forall {done : List Char → Bool} {acc s found b : List Char} :
    breakWhere done acc s = some (found, b) ↔ ∃ text, found = text.reverse ++ acc ∧
      s = text ++ '>' :: b ∧ done found = true ∧
      ∀ before after, text = before ++ '>' :: after → done (before.reverse ++ acc) = false := by
  induction s generalizing acc with
  | nil => simp [breakWhere]
  | cons c s ih =>
    rw [breakWhere]
    split
    · next hc =>
      constructor
      · intro h
        obtain ⟨rfl, rfl⟩ := Prod.mk.inj (Option.some.inj h)
        exact ⟨[], rfl, by rw [hc.1]; rfl, hc.2, by simp⟩
      · rintro ⟨text, rfl, hs, -, hfirst⟩
        cases text with
        | nil =>
          obtain ⟨-, rfl⟩ := List.cons.inj hs
          rfl
        | cons d text =>
          obtain ⟨rfl, -⟩ := List.cons.inj hs
          have hopen := hfirst [] text (by rw [hc.1]; rfl)
          exact absurd hc.2 (by rw [← List.nil_append acc, ← List.reverse_nil, hopen]; simp)
    · next hc =>
      rw [ih]
      constructor
      · rintro ⟨text, rfl, rfl, hdone, hfirst⟩
        refine ⟨c :: text, by simp, rfl, by simpa using hdone, fun before after hsplit => ?_⟩
        cases before with
        | nil =>
          obtain ⟨rfl, -⟩ := List.cons.inj hsplit
          simpa using hc
        | cons d before =>
          obtain ⟨rfl, hrest⟩ := List.cons.inj hsplit
          have hopen := hfirst before after hrest
          simpa using hopen
      · rintro ⟨text, rfl, hs, hdone, hfirst⟩
        cases text with
        | nil =>
          obtain ⟨rfl, -⟩ := List.cons.inj hs
          exact absurd ⟨rfl, hdone⟩ hc
        | cons d text =>
          obtain ⟨rfl, rfl⟩ := List.cons.inj hs
          refine ⟨text, by simp, rfl, hdone, fun before after hsplit => ?_⟩
          have hopen := hfirst (c :: before) after (by rw [hsplit]; rfl)
          simpa using hopen

/-- A piece that a mark and a bracket end, ends where these stand for the first time, not counting
the first `kept` characters. -/
theorem breakWhere_eq_some_iff {done : List Char → Bool} {mark : List Char} {kept : Nat}
    (hdone : ∀ acc, done acc = true ↔ ∃ text, kept ≤ text.length ∧ acc.reverse = text ++ mark)
    (hmark : '>' ∉ mark) {s found b : List Char} :
    breakWhere done [] s = some (found, b) ↔ ∃ text, found.reverse = text ++ mark ∧
      s = text ++ mark ++ '>' :: b ∧ kept ≤ text.length ∧
      ¬ mark ++ ['>'] <:+: text.drop kept := by
  rw [breakWhere_eq_some_iff_forall]
  constructor
  · rintro ⟨_, rfl, rfl, hfound, hfirst⟩
    obtain ⟨text, hkept, htext⟩ := (hdone _).1 hfound
    rw [List.append_nil, List.reverse_reverse] at htext
    subst htext
    refine ⟨text, by simp, rfl, hkept, ?_⟩
    rintro ⟨before, after, hsplit⟩
    have htext : text = text.take kept ++ (before ++ (mark ++ ['>']) ++ after) := by
      rw [hsplit, List.take_append_drop]
    have hearly : done ((text.take kept ++ before ++ mark).reverse ++ []) = true := by
      refine (hdone _).2 ⟨text.take kept ++ before, ?_, by simp⟩
      rw [List.length_append, List.length_take]
      omega
    have hlate := hfirst (text.take kept ++ before ++ mark) (after ++ mark) (by
      conv => lhs; rw [htext]
      simp)
    rw [hearly] at hlate
    exact absurd hlate (by simp)
  · rintro ⟨text, hfound, rfl, hkept, hfirst⟩
    refine ⟨text ++ mark, by rw [← hfound]; simp, rfl, (hdone _).2 ⟨text, hkept, hfound⟩, ?_⟩
    intro before after hsplit
    rw [Bool.eq_false_iff]
    intro hearly
    obtain ⟨early, hlength, hbefore⟩ := (hdone _).1 hearly
    rw [List.append_nil, List.reverse_reverse] at hbefore
    subst hbefore
    rcases List.append_eq_append_iff.1 hsplit with ⟨more, -, hmore⟩ | ⟨more, htext, hmore⟩
    · exact hmark (by rw [hmore]; simp)
    · cases more with
      | nil => exact hmark (by rw [← List.nil_append mark, ← hmore]; simp)
      | cons d more =>
        obtain ⟨rfl, -⟩ := List.cons.inj hmore
        refine hfirst ⟨early.drop kept, more, ?_⟩
        rw [htext, List.append_assoc early, List.drop_append_of_le_length hlength]
        simp

/-! ## The pieces between brackets -/

theorem endsComment_iff (acc : List Char) : endsComment acc = true ↔
    ∃ text, 2 ≤ text.length ∧ acc.reverse = text ++ ['-', '-'] := by
  constructor
  · intro h
    unfold endsComment at h
    split at h
    · next c d rest => exact ⟨(c :: d :: rest).reverse, by simp, by simp⟩
    · cases h
  · rintro ⟨text, hlength, hacc⟩
    rw [List.reverse_eq_iff] at hacc
    obtain ⟨c, d, rest, htext⟩ : ∃ c d rest, text.reverse = c :: d :: rest := by
      rw [← List.length_reverse] at hlength
      match text.reverse, hlength with
      | c :: d :: rest, _ => exact ⟨c, d, rest, rfl⟩
    rw [hacc, List.reverse_append, htext]
    rfl

theorem endsCData_iff (acc : List Char) : endsCData acc = true ↔
    ∃ text, 0 ≤ text.length ∧ acc.reverse = text ++ [']', ']'] := by
  constructor
  · intro h
    unfold endsCData at h
    split at h
    · next rest => exact ⟨rest.reverse, Nat.zero_le _, by simp⟩
    · cases h
  · rintro ⟨text, -, hacc⟩
    rw [List.reverse_eq_iff] at hacc
    rw [hacc, List.reverse_append]
    rfl

theorem endsInstruction_iff (acc : List Char) : endsInstruction acc = true ↔
    ∃ text, 0 ≤ text.length ∧ acc.reverse = text ++ ['?'] := by
  constructor
  · intro h
    unfold endsInstruction at h
    split at h
    · next rest => exact ⟨rest.reverse, Nat.zero_le _, by simp⟩
    · cases h
  · rintro ⟨text, -, hacc⟩
    rw [List.reverse_eq_iff] at hacc
    rw [hacc, List.reverse_append]
    rfl

theorem comment_eq_ok_iff {s more : List Char} {token : Token} :
    (∃ size, comment s = .ok ⟨token, size, more⟩) ↔ token = .aside ∧ ∃ content,
      s = '-' :: '-' :: (content ++ '-' :: '-' :: '>' :: more) ∧
        ¬ "-->".toList <:+: content := by
  have hbreak := @breakWhere_eq_some_iff _ _ _ endsComment_iff (by decide)
  constructor
  · rintro ⟨size, h⟩
    unfold comment at h
    split at h
    · next acc rest hfound =>
      obtain ⟨text, hacc, rfl, hkept, hend⟩ := hbreak.1 hfound
      split at h
      · next hopens =>
        obtain ⟨rfl, -, rfl⟩ := Cut.mk.inj (Except.ok.inj h)
        rw [hacc, List.isPrefixOf_iff_prefix] at hopens
        obtain ⟨content, rfl⟩ : ['-', '-'] <+: text :=
          List.prefix_of_prefix_length_le hopens (List.prefix_append _ _) hkept
        exact ⟨rfl, content, by simp, hend⟩
      · cases h
    · cases h
  · rintro ⟨rfl, content, rfl, hend⟩
    have hfound : breakWhere endsComment [] ('-' :: '-' :: (content ++ '-' :: '-' :: '>' :: more)) =
        some (('-' :: '-' :: (content ++ ['-', '-'])).reverse, more) :=
      hbreak.2 ⟨'-' :: '-' :: content, by simp, by simp, by simp, hend⟩
    refine ⟨utf8Size ('-' :: '-' :: (content ++ ['-', '-'])).reverse + 3, ?_⟩
    unfold comment
    rw [hfound]
    exact if_pos (by simp)

theorem infix_of_infix_append {c : Char} {mark opening text : List Char} (hc : c ∉ opening)
    (h : c :: mark <:+: opening ++ text) : c :: mark <:+: text := by
  induction opening with
  | nil => exact h
  | cons d opening ih =>
    rw [List.mem_cons, not_or] at hc
    rw [List.cons_append, List.infix_cons_iff] at h
    rcases h with hprefix | hinfix
    · exact absurd (List.cons_prefix_cons.1 hprefix).1 hc.1
    · exact ih hc.2 hinfix

theorem cdata_eq_ok_iff {s more : List Char} {token : Token} :
    (∃ size, cdata s = .ok ⟨token, size, more⟩) ↔ ∃ content, token = .cdata content ∧
      s = "[CDATA[".toList ++ (content ++ ']' :: ']' :: '>' :: more) ∧
        ¬ "]]>".toList <:+: content := by
  have hbreak := @breakWhere_eq_some_iff _ _ _ endsCData_iff (by decide)
  constructor
  · rintro ⟨size, h⟩
    unfold cdata at h
    split at h
    · next acc rest hfound =>
      obtain ⟨text, hacc, rfl, -, hend⟩ := hbreak.1 hfound
      split at h
      · next content hopens =>
        obtain ⟨rfl, -, rfl⟩ := Cut.mk.inj (Except.ok.inj h)
        rw [hacc, List.isPrefixOf?_eq_some_iff_append_eq] at hopens
        obtain ⟨inner, rfl, rfl⟩ : ∃ inner, text = "[CDATA[".toList ++ inner ∧
            content = inner ++ [']', ']'] := by
          rcases List.append_eq_append_iff.1 hopens with
            ⟨inner, htext, hcontent⟩ | ⟨inner, h, hmark⟩
          · exact ⟨inner, htext, hcontent⟩
          · cases inner with
            | nil => exact ⟨[], by simpa using h.symm, by simpa using hmark.symm⟩
            | cons c inner =>
              obtain rfl : ']' = c := (List.cons.inj hmark).1
              have hmem : ']' ∈ "[CDATA[".toList := by rw [h]; simp
              exact absurd hmem (by decide)
        refine ⟨inner, by simp, by simp, fun hinfix => hend ?_⟩
        exact List.IsInfix.trans hinfix (List.suffix_append _ _).isInfix
      · cases h
    · cases h
  · rintro ⟨content, rfl, rfl, hend⟩
    have hfound : breakWhere endsCData []
          ("[CDATA[".toList ++ (content ++ ']' :: ']' :: '>' :: more)) =
        some (("[CDATA[".toList ++ (content ++ [']', ']'])).reverse, more) := by
      refine hbreak.2 ⟨"[CDATA[".toList ++ content, by simp, by simp, by simp, fun h => hend ?_⟩
      exact infix_of_infix_append (by decide) h
    have hopens : "[CDATA[".toList.isPrefixOf? ("[CDATA[".toList ++ (content ++ [']', ']'])) =
        some (content ++ [']', ']']) := List.isPrefixOf?_eq_some_iff_append_eq.2 rfl
    refine ⟨utf8Size ("[CDATA[".toList ++ (content ++ [']', ']'])).reverse + 3, ?_⟩
    unfold cdata
    rw [hfound]
    simp only [List.reverse_reverse, hopens]
    simp

theorem instruction_eq_ok_iff {s more : List Char} {token : Token} :
    (∃ size, instruction ('?' :: s) = .ok ⟨token, size, more⟩) ↔ token = .aside ∧ ∃ content,
      s = content ++ '?' :: '>' :: more ∧ ¬ "?>".toList <:+: '?' :: content := by
  have hbreak := @breakWhere_eq_some_iff _ _ _ endsInstruction_iff (by decide)
  constructor
  · rintro ⟨size, h⟩
    unfold instruction at h
    split at h
    · next acc rest hfound =>
      obtain ⟨text, hacc, hs, -, hend⟩ := hbreak.1 hfound
      split at h
      · cases h
      · next hlength =>
        obtain ⟨rfl, -, rfl⟩ := Cut.mk.inj (Except.ok.inj h)
        cases text with
        | nil =>
          rw [← List.length_reverse, hacc] at hlength
          exact absurd (Nat.le_refl 1) hlength
        | cons c content =>
          obtain ⟨rfl, rfl⟩ := List.cons.inj hs
          exact ⟨rfl, content, by simp, hend⟩
    · cases h
  · rintro ⟨rfl, content, rfl, hend⟩
    have hfound : breakWhere endsInstruction [] ('?' :: (content ++ '?' :: '>' :: more)) =
        some (('?' :: (content ++ ['?'])).reverse, more) :=
      hbreak.2 ⟨'?' :: content, by simp, by simp, by simp, hend⟩
    refine ⟨utf8Size ('?' :: (content ++ ['?'])).reverse + 2, ?_⟩
    unfold instruction
    rw [hfound]
    exact if_neg (by simp)

theorem dropWord?_eq_some_iff {word s rest : List Char} : dropWord? word s = some rest ↔
    ∃ start, s = start ++ rest ∧ start.map Char.toLower = word.map Char.toLower := by
  induction word generalizing s with
  | nil =>
    simp only [dropWord?, Option.some.injEq, List.map_nil, List.map_eq_nil_iff]
    constructor
    · rintro rfl
      exact ⟨[], rfl, rfl⟩
    · rintro ⟨_, rfl, rfl⟩
      rfl
  | cons w word ih =>
    cases s with
    | nil =>
      simp only [dropWord?, reduceCtorEq, false_iff, not_exists, not_and]
      intro start hstart hmap
      obtain ⟨rfl, -⟩ := List.append_eq_nil_iff.1 hstart.symm
      exact absurd hmap (by simp)
    | cons c s =>
      rw [dropWord?]
      constructor
      · intro h
        split at h
        · next hc =>
          obtain ⟨start, rfl, hmap⟩ := ih.1 h
          exact ⟨c :: start, rfl, by rw [List.map_cons, List.map_cons, hmap, hc]⟩
        · cases h
      · rintro ⟨start, hs, hmap⟩
        cases start with
        | nil => exact absurd hmap (by simp)
        | cons d start =>
          obtain ⟨rfl, rfl⟩ := List.cons.inj hs
          rw [List.map_cons, List.map_cons, List.cons.injEq] at hmap
          rw [if_pos hmap.1.symm]
          exact ih.2 ⟨start, rfl, hmap.2⟩

theorem doctype_eq_ok_iff {s more : List Char} {token : Token} :
    (∃ size, doctype s = .ok ⟨token, size, more⟩) ↔ token = .aside ∧ ∃ word name,
      s = word ++ name ++ '>' :: more ∧ word.map Char.toLower = "doctype".toList ∧
        (¬ ∀ c ∈ name, isBlank c = true) ∧ IsBalanced 0 (word ++ name) := by
  have hlower : "doctype".toList.map Char.toLower = "doctype".toList := by decide
  constructor
  · rintro ⟨size, h⟩
    unfold doctype at h
    split at h
    · next body rest hfound =>
      obtain ⟨rfl, hbalanced⟩ := breakBalanced_eq_some_iff.1 hfound
      split at h
      · next name hname =>
        obtain ⟨word, rfl, hword⟩ := dropWord?_eq_some_iff.1 hname
        split at h
        · cases h
        · next hblank =>
          obtain ⟨rfl, -, rfl⟩ := Cut.mk.inj (Except.ok.inj h)
          rw [List.all_eq_true] at hblank
          exact ⟨rfl, word, name, rfl, hword.trans hlower, hblank, hbalanced⟩
      · cases h
    · cases h
  · rintro ⟨rfl, word, name, rfl, hword, hblank, hbalanced⟩
    have hfound : breakBalanced 0 (word ++ name ++ '>' :: more) = some (word ++ name, more) :=
      breakBalanced_eq_some_iff.2 ⟨rfl, hbalanced⟩
    have hname : dropWord? "doctype".toList (word ++ name) = some name :=
      dropWord?_eq_some_iff.2 ⟨word, rfl, hword.trans hlower.symm⟩
    refine ⟨utf8Size (word ++ name) + 3, ?_⟩
    unfold doctype
    rw [hfound]
    simp only [hname]
    exact if_neg (by rwa [List.all_eq_true])

theorem endTag_eq_ok_iff {s more : List Char} {token : Token} :
    (∃ size, endTag s = .ok ⟨token, size, more⟩) ↔ ∃ body, token = .endTag (endName body) ∧
      s = body ++ '>' :: more ∧ IsQuoted body := by
  constructor
  · rintro ⟨size, h⟩
    unfold endTag at h
    split at h
    · next body rest hfound =>
      obtain ⟨rfl, hquoted⟩ := breakTag_eq_some_iff.1 hfound
      obtain ⟨rfl, -, rfl⟩ := Cut.mk.inj (Except.ok.inj h)
      exact ⟨body, rfl, rfl, hquoted⟩
    · cases h
  · rintro ⟨body, rfl, rfl, hquoted⟩
    refine ⟨utf8Size body + 3, ?_⟩
    unfold endTag
    rw [hquoted.breakTag more]

/-- A tag whose body ends in a slash is that of an empty element. -/
theorem tag_eq_ok_iff {s more : List Char} {token : Token} :
    (∃ size, tag s = .ok ⟨token, size, more⟩) ↔
      (∃ body, token = .startTag body ∧ s = body ++ '>' :: more ∧ IsQuoted body ∧
        body.getLast? ≠ some '/') ∨
      ∃ body, token = .emptyTag body ∧ s = body ++ '/' :: '>' :: more ∧
        IsQuoted (body ++ ['/']) := by
  constructor
  · rintro ⟨size, h⟩
    unfold tag at h
    split at h
    · next body rest hfound =>
      obtain ⟨rfl, hquoted⟩ := breakTag_eq_some_iff.1 hfound
      obtain ⟨htoken, -, rfl⟩ := Cut.mk.inj (Except.ok.inj h)
      by_cases hlast : body.getLast? = some '/'
      · rw [if_pos hlast] at htoken
        obtain ⟨body, rfl⟩ := List.getLast?_eq_some_iff.1 hlast
        rw [List.dropLast_concat] at htoken
        exact .inr ⟨body, htoken.symm, by simp, hquoted⟩
      · rw [if_neg hlast] at htoken
        exact .inl ⟨body, htoken.symm, rfl, hquoted, hlast⟩
    · cases h
  · rintro (⟨body, rfl, rfl, hquoted, hlast⟩ | ⟨body, rfl, rfl, hquoted⟩)
    · refine ⟨utf8Size body + 2, ?_⟩
      unfold tag
      rw [hquoted.breakTag more]
      simp only [if_neg hlast]
    · refine ⟨utf8Size (body ++ ['/']) + 2, ?_⟩
      have hfound : breakTag none (body ++ '/' :: '>' :: more) = some (body ++ ['/'], more) :=
        breakTag_eq_some_iff.2 ⟨by simp, hquoted⟩
      unfold tag
      rw [hfound]
      simp

/-! ## The next piece -/

theorem opensTag_append_iff {body more : List Char} :
    OpensTag (body ++ '>' :: more) ↔ OpensTag body := by
  cases body with
  | nil => simp [OpensTag]
  | cons c body => exact .rfl

theorem markup_eq_doctype {word name : List Char}
    (hword : word.map Char.toLower = "doctype".toList) :
    markup ('!' :: (word ++ name)) = doctype (word ++ name) := by
  cases word with
  | nil => exact absurd hword (by decide)
  | cons c word =>
    have hc : c.toLower = 'd' := (List.cons.inj hword).1
    rcases (Text.toLower_eq_iff rfl).1 hc with rfl | rfl
    · rfl
    · rfl

/-- Behind an opening bracket each piece is told from the others by how it begins. -/
theorem exists_markup_iff {s more : List Char} {token : Token} :
    (∃ size, markup s = .ok ⟨token, size, more⟩) ↔
      ∃ w, Spells token ('<' :: w) ∧ s = w ++ more := by
  constructor
  · rintro ⟨size, h⟩
    unfold markup at h
    split at h
    · have hdoctype : ∀ {rest}, doctype rest = .ok ⟨token, size, more⟩ →
          ∃ w, Spells token ('<' :: w) ∧ '!' :: rest = w ++ more := by
        intro rest h
        obtain ⟨rfl, word, name, rfl, hword, hname, hbalanced⟩ := doctype_eq_ok_iff.1 ⟨size, h⟩
        exact ⟨_, .doctype hword hname hbalanced, by simp⟩
      split at h
      · obtain ⟨rfl, content, hs, hend⟩ := comment_eq_ok_iff.1 ⟨size, h⟩
        exact ⟨_, .comment hend, by rw [hs]; simp⟩
      · obtain ⟨content, rfl, hs, hend⟩ := cdata_eq_ok_iff.1 ⟨size, h⟩
        exact ⟨_, .cdata hend, by rw [hs]; simp⟩
      · exact hdoctype h
      · exact hdoctype h
      · cases h
    · obtain ⟨rfl, content, rfl, hend⟩ := instruction_eq_ok_iff.1 ⟨size, h⟩
      exact ⟨_, .instruction hend, by simp⟩
    · obtain ⟨body, rfl, rfl, hquoted⟩ := endTag_eq_ok_iff.1 ⟨size, h⟩
      exact ⟨_, .endTag hquoted, by simp⟩
    · next hbang hquestion hslash =>
      have hopens : OpensTag s := by
        rintro c hc
        obtain ⟨rest, rfl⟩ := List.head?_eq_some_iff.1 hc
        simp only [List.mem_cons, List.not_mem_nil, or_false, not_or]
        exact ⟨fun h => hbang rest (h ▸ rfl), fun h => hquestion rest (h ▸ rfl),
          fun h => hslash rest (h ▸ rfl)⟩
      rcases tag_eq_ok_iff.1 ⟨size, h⟩ with
        ⟨body, rfl, rfl, hquoted, hlast⟩ | ⟨body, rfl, rfl, hquoted⟩
      · exact ⟨_, .startTag (opensTag_append_iff.1 hopens) hquoted hlast, by simp⟩
      · have hopens : OpensTag (body ++ ['/'] ++ '>' :: more) := by simpa using hopens
        exact ⟨_, .emptyTag (opensTag_append_iff.1 hopens) hquoted, by simp⟩
  · rintro ⟨w, hspells, rfl⟩
    generalize hw : '<' :: w = whole at hspells
    cases hspells with
    | text hne hraw => exact absurd (by rw [← hw]; simp) hraw
    | @startTag body hopens hquoted hlast =>
      obtain rfl := (List.cons.inj hw).2
      rw [List.append_assoc, List.singleton_append, markup_eq_tag (opensTag_append_iff.2 hopens)]
      exact tag_eq_ok_iff.2 (.inl ⟨body, rfl, rfl, hquoted, hlast⟩)
    | @emptyTag body hopens hquoted =>
      obtain rfl := (List.cons.inj hw).2
      have hopens : OpensTag (body ++ ['/'] ++ '>' :: more) := opensTag_append_iff.2 hopens
      rw [List.append_assoc, List.singleton_append] at hopens
      rw [List.append_assoc, List.cons_append, List.singleton_append, markup_eq_tag hopens]
      exact tag_eq_ok_iff.2 (.inr ⟨body, rfl, rfl, hquoted⟩)
    | @endTag body hquoted =>
      obtain rfl := (List.cons.inj hw).2
      exact endTag_eq_ok_iff.2 ⟨body, rfl, by simp, hquoted⟩
    | @cdata content hend =>
      obtain rfl := (List.cons.inj hw).2
      exact cdata_eq_ok_iff.2 ⟨content, rfl, by simp, hend⟩
    | @comment content hend =>
      obtain rfl := (List.cons.inj hw).2
      exact comment_eq_ok_iff.2 ⟨rfl, content, by simp, hend⟩
    | @instruction content hend =>
      obtain rfl := (List.cons.inj hw).2
      exact instruction_eq_ok_iff.2 ⟨rfl, content, by simp, hend⟩
    | @doctype word name hword hname hbalanced =>
      obtain rfl := (List.cons.inj hw).2
      have hmarkup : markup ('!' :: (word ++ name ++ ['>']) ++ more) =
          doctype (word ++ name ++ '>' :: more) := by
        rw [List.cons_append, List.append_assoc, List.singleton_append, List.append_assoc,
          markup_eq_doctype hword]
      rw [hmarkup]
      exact doctype_eq_ok_iff.2 ⟨rfl, word, name, rfl, hword, hname, hbalanced⟩

/-- A run of text goes on to the next opening bracket. -/
def Token.EndsBefore (token : Token) (more : List Char) : Prop :=
  ∀ raw, token = .text raw → ∀ c, more.head? = some c → c = '<'

theorem Spells.eq_text_or {token : Token} {w : List Char} (h : Spells token w) :
    (token = .text w ∧ w ≠ [] ∧ '<' ∉ w) ∨ ∃ rest, w = '<' :: rest := by
  cases h with
  | text hne hraw => exact .inl ⟨rfl, hne, hraw⟩
  | _ => exact .inr ⟨_, rfl⟩

/-- The reader cuts off what is written like a piece. -/
theorem exists_cut_iff {c : Char} {rest more : List Char} {token : Token} :
    (∃ size, next c rest = .ok ⟨token, size, more⟩) ↔
      ∃ w, Spells token w ∧ c :: rest = w ++ more ∧ token.EndsBefore more := by
  by_cases hc : c = '<'
  · subst hc
    have hnext : next '<' rest = markup rest := if_pos rfl
    rw [hnext, exists_markup_iff]
    constructor
    · rintro ⟨w, hspells, rfl⟩
      refine ⟨'<' :: w, hspells, rfl, ?_⟩
      rintro raw rfl
      cases hspells with
      | text hne hraw => exact absurd List.mem_cons_self hraw
    · rintro ⟨w, hspells, hw, -⟩
      cases w with
      | nil => cases hspells with | text hne hraw => exact absurd rfl hne
      | cons d w =>
        obtain ⟨rfl, rfl⟩ := List.cons.inj hw
        exact ⟨w, hspells, rfl⟩
  · have hnext : next c rest = .ok ⟨.text (c :: rest.takeWhile (· != '<')),
        c.utf8Size + utf8Size (rest.takeWhile (· != '<')), rest.dropWhile (· != '<')⟩ := if_neg hc
    constructor
    · rintro ⟨size, h⟩
      rw [hnext] at h
      obtain ⟨rfl, -, rfl⟩ := Cut.mk.inj (Except.ok.inj h)
      refine ⟨_, .text (List.cons_ne_nil _ _) ?_, by simp, fun _ _ d hd => ?_⟩
      · rw [List.mem_cons, not_or]
        refine ⟨Ne.symm hc, fun hmem => ?_⟩
        exact absurd (List.all_eq_true.1 List.all_takeWhile '<' hmem) (by decide)
      · have hstop := List.head?_dropWhile_not (· != '<') rest
        rw [hd] at hstop
        simpa using hstop
    · rintro ⟨w, hspells, hw, hmore⟩
      rcases hspells.eq_text_or with ⟨rfl, hne, hraw⟩ | ⟨w, rfl⟩
      · cases w with
        | nil => exact absurd rfl hne
        | cons d raw =>
          rw [List.cons_append] at hw
          obtain ⟨rfl, rfl⟩ := List.cons.inj hw
          have hpos : ∀ d ∈ raw, (d != '<') = true := fun d hd =>
            bne_iff_ne.2 fun h => hraw (List.mem_cons_of_mem _ (h ▸ hd))
          have hstop : more.takeWhile (· != '<') = [] ∧ more.dropWhile (· != '<') = more := by
            cases more with
            | nil => exact ⟨rfl, rfl⟩
            | cons e more =>
              obtain rfl := hmore _ rfl e rfl
              exact ⟨rfl, rfl⟩
          refine ⟨c.utf8Size + utf8Size raw, ?_⟩
          rw [hnext, List.takeWhile_append_of_pos hpos, List.dropWhile_append_of_pos hpos, hstop.1,
            hstop.2, List.append_nil]
      · exact absurd (List.cons.inj hw).1 hc

/-! ## Documents in pieces -/

/-- The text is these pieces, one after another. -/
inductive IsCut : List Char → List Token → Prop where
  | nil : IsCut [] []
  | cons {token : Token} {w rest : List Char} {pieces : List Token} (hspells : Spells token w)
    (hends : token.EndsBefore rest) (hrest : IsCut rest pieces) :
    IsCut (w ++ rest) (token :: pieces)

theorem Spells.ne_nil {token : Token} {w : List Char} (h : Spells token w) : w ≠ [] := by
  rcases h.eq_text_or with ⟨-, hne, -⟩ | ⟨rest, rfl⟩
  · exact hne
  · exact List.cons_ne_nil _ _

theorem isCut_singleton {c : Char} {rest : List Char} {token : Token} {size : Nat}
    (h : next c rest = .ok ⟨token, size, []⟩) : IsCut (c :: rest) [token] := by
  obtain ⟨w, hspells, hw, hends⟩ := exists_cut_iff.1 ⟨size, h⟩
  rw [hw]
  exact .cons hspells hends .nil

/-- Text is cut in no two ways. -/
theorem IsCut.unique {s : List Char} {pieces others : List Token} (h : IsCut s pieces)
    (h' : IsCut s others) : pieces = others := by
  induction h generalizing others with
  | nil =>
    generalize hs : ([] : List Char) = s at h'
    cases h' with
    | nil => rfl
    | cons hspells => exact absurd (List.append_eq_nil_iff.1 hs.symm).1 hspells.ne_nil
  | @cons token w rest pieces hspells hends hrest ih =>
    generalize hs : w ++ rest = s at h'
    cases h' with
    | nil => exact absurd (List.append_eq_nil_iff.1 hs).1 hspells.ne_nil
    | @cons other w' rest' others hspells' hends' hrest' =>
      obtain ⟨c, s, hw⟩ := List.exists_cons_of_ne_nil hspells.ne_nil
      rw [hw] at hs
      obtain ⟨size, hnext⟩ := exists_cut_iff.2 ⟨w, hspells, by rw [hw]; rfl, hends⟩
      obtain ⟨size', hnext'⟩ := exists_cut_iff.2 ⟨w', hspells', hs, hends'⟩
      rw [hnext] at hnext'
      obtain ⟨rfl, -, rfl⟩ := Cut.mk.inj (Except.ok.inj hnext')
      rw [ih hrest']

theorem foldlM_cons_eq_ok_iff {piece : Token} {pieces : List Token} {st st' : Progress} :
    (piece :: pieces).foldlM Progress.step st = .ok st' ↔
      ∃ st₁, st.step piece = .ok st₁ ∧ pieces.foldlM Progress.step st₁ = .ok st' := by
  rw [List.foldlM_cons]
  cases st.step piece with
  | error fault => simp [bind, Except.bind]
  | ok st₁ => simp [bind, Except.bind]

theorem finish_eq_ok_iff {st : Progress} {position : Nat} {root : Option Node} :
    st.finish position = .ok root ↔ st.pending = [] ∧ st.root = root := by
  unfold Progress.finish
  cases hpending : st.pending with
  | nil => simp
  | cons top below => simp

/-- Pieces that are taken up one after another are read. -/
theorem IsCut.leads {s : List Char} {pieces : List Token} (h : IsCut s pieces)
    {st st' : Progress} (hfold : pieces.foldlM Progress.step st = .ok st') : Leads st s st' [] := by
  induction h generalizing st with
  | nil =>
    obtain rfl : st = st' := Except.ok.inj hfold
    exact .refl st []
  | @cons token w rest pieces hspells hends _ ih =>
    obtain ⟨st₁, hstep, hfold⟩ := foldlM_cons_eq_ok_iff.1 hfold
    obtain ⟨c, s, rfl⟩ := List.exists_cons_of_ne_nil hspells.ne_nil
    obtain ⟨size, hnext⟩ := exists_cut_iff.2 ⟨c :: s, hspells, rfl, hends⟩
    exact (Leads.of_next hnext hstep).trans (ih hfold)

/-- A text is read by taking up its pieces, of which the last closes the last open element. -/
theorem readFrom_eq_ok_iff {position : Nat} {st : Progress} {s : List Char}
    {root : Option Node} : readFrom position st s = .ok root ↔
      ∃ pieces st', IsCut s pieces ∧ pieces.foldlM Progress.step st = .ok st' ∧
        st'.pending = [] ∧ st'.root = root := by
  constructor
  · intro h
    fun_induction readFrom position st s with
    | case1 position st => exact ⟨[], st, .nil, rfl, finish_eq_ok_iff.1 h⟩
    | case2 => cases h
    | case3 => cases h
    | case4 position st c rest cut hcut hlength st₁ hstep ih =>
      obtain ⟨pieces, st', hpieces, hfold, hend⟩ := ih h
      obtain ⟨w, hspells, hw, hends⟩ := exists_cut_iff.1 ⟨cut.size, hcut⟩
      exact ⟨cut.token :: pieces, st', hw ▸ .cons hspells hends hpieces,
        foldlM_cons_eq_ok_iff.2 ⟨st₁, hstep, hfold⟩, hend⟩
  · rintro ⟨pieces, st', hpieces, hfold, hend⟩
    obtain ⟨position', hread⟩ := hpieces.leads hfold position
    rw [hread, readFrom]
    exact finish_eq_ok_iff.2 hend

end Filing.Xml
