/-!
# Maps from texts

Submitted values, rows and recovered values are addressed by text and always listed in the order of
their keys. A `KeyMap` is the list of its entries, strictly increasing in the key, so two maps with
the same entries are equal, and the order in which they were entered leaves no trace.

Main statements: one equation of `find?` for each operation (`find?_insert`, `find?_insertNew`,
`find?_erase`), and two maps that answer every look-up alike are equal (`ext_find?`).
-/

namespace Filing

/-- A finite map from texts, listed in increasing order of the keys. -/
structure KeyMap (β : Type) where
  /-- The entries, in increasing order of their keys. -/
  entries : List (String × β)
  /-- Each key is smaller than those after it. -/
  sorted : entries.Pairwise (fun a b => a.1 < b.1)
deriving DecidableEq

namespace KeyMap

variable {β : Type}

/-! ## Entry lists -/

/-- Enters a value at its place in an increasing list, replacing the one with its key. -/
def insertEntry (k : String) (v : β) : List (String × β) → List (String × β)
  | [] => [(k, v)]
  | (k', v') :: rest =>
    if k < k' then (k, v) :: (k', v') :: rest
    else if k = k' then (k, v) :: rest
    else (k', v') :: insertEntry k v rest

/-- The value entered with a key. -/
def findValue? (k : String) : List (String × β) → Option β
  | [] => none
  | (k', v) :: rest => if k = k' then some v else findValue? k rest

theorem mem_insertEntry {k : String} {v : β} {l : List (String × β)} {e : String × β}
    (h : e ∈ insertEntry k v l) : e = (k, v) ∨ e ∈ l := by
  induction l with
  | nil => simpa [insertEntry] using h
  | cons a rest ih =>
    obtain ⟨k', v'⟩ := a
    simp only [insertEntry] at h
    split at h
    · simpa using h
    · split at h
      · simp only [List.mem_cons] at h ⊢
        rcases h with h | h
        · exact .inl h
        · exact .inr (.inr h)
      · simp only [List.mem_cons] at h ⊢
        rcases h with h | h
        · exact .inr (.inl h)
        · exact (ih h).imp id .inr

theorem lt_of_not_lt_of_ne {a b : String} (h : ¬ a < b) (hne : a ≠ b) : b < a := by
  rcases String.le_total a b with hab | hba
  · exact absurd (String.le_antisymm hab (String.not_lt.1 h)) hne
  · exact String.not_le.1 fun hab => hne (String.le_antisymm hab hba)

theorem pairwise_insertEntry (k : String) (v : β) {l : List (String × β)}
    (h : l.Pairwise (fun a b => a.1 < b.1)) :
    (insertEntry k v l).Pairwise (fun a b => a.1 < b.1) := by
  induction l with
  | nil => simp [insertEntry]
  | cons a rest ih =>
    obtain ⟨k', v'⟩ := a
    have hr := List.pairwise_cons.1 h
    simp only [insertEntry]
    split
    · next hlt =>
      refine List.pairwise_cons.2 ⟨fun e he => ?_, h⟩
      rcases List.mem_cons.1 he with rfl | he
      · exact hlt
      · exact String.lt_trans hlt (hr.1 e he)
    · next hnlt =>
      split
      · next heq =>
        refine List.pairwise_cons.2 ⟨fun e he => ?_, hr.2⟩
        exact heq ▸ hr.1 e he
      · next hne =>
        refine List.pairwise_cons.2 ⟨fun e he => ?_, ih hr.2⟩
        rcases mem_insertEntry he with rfl | he
        · exact lt_of_not_lt_of_ne hnlt hne
        · exact hr.1 e he

theorem findValue?_insertEntry (k k' : String) (v : β) {l : List (String × β)}
    (h : l.Pairwise (fun a b => a.1 < b.1)) :
    findValue? k' (insertEntry k v l) = if k' = k then some v else findValue? k' l := by
  induction l with
  | nil => simp [insertEntry, findValue?]
  | cons a rest ih =>
    obtain ⟨x, w⟩ := a
    have hr := List.pairwise_cons.1 h
    simp only [insertEntry]
    split
    · simp [findValue?]
    · split
      · next heq =>
        subst heq
        by_cases hk : k' = k <;> simp [findValue?, hk]
      · next hne =>
        simp only [findValue?, ih hr.2]
        by_cases hx : k' = x
        · have hxk : x ≠ k := fun e => hne e.symm
          simp [hx, hxk]
        · simp [hx]

theorem findValue?_eq_none_of_forall {k : String} {l : List (String × β)}
    (h : ∀ e ∈ l, k < e.1) : findValue? k l = none := by
  induction l with
  | nil => rfl
  | cons a rest ih =>
    obtain ⟨x, w⟩ := a
    have hx : k ≠ x := fun e => String.lt_irrefl x (by have := h (x, w) (by simp); rwa [e] at this)
    simp [findValue?, hx, ih fun e he => h e (by simp [he])]

theorem findValue?_filter (k k' : String) (l : List (String × β)) :
    findValue? k' (l.filter (fun e => e.1 ≠ k)) = if k' = k then none else findValue? k' l := by
  induction l with
  | nil => simp [findValue?]
  | cons a rest ih =>
    obtain ⟨x, w⟩ := a
    by_cases hx : x = k
    · by_cases hk : k' = k
      · simpa [hx, hk] using ih
      · have hkx : k' ≠ x := fun e => hk (e.trans hx)
        simpa [hx, hk, findValue?, hkx] using ih
    · simp only [ne_eq, hx, not_false_eq_true, decide_true, List.filter_cons_of_pos, findValue?]
      by_cases hk : k' = x
      · simp [hk, hx]
      · simpa [hk] using ih

theorem eq_of_findValue? {l m : List (String × β)} (hl : l.Pairwise (fun a b => a.1 < b.1))
    (hm : m.Pairwise (fun a b => a.1 < b.1)) (h : ∀ k, findValue? k l = findValue? k m) :
    l = m := by
  induction l generalizing m with
  | nil =>
    cases m with
    | nil => rfl
    | cons b m => obtain ⟨y, w⟩ := b; simpa [findValue?] using h y
  | cons a l ih =>
    obtain ⟨x, v⟩ := a
    cases m with
    | nil => simpa [findValue?] using h x
    | cons b m =>
      obtain ⟨y, w⟩ := b
      have hl' := List.pairwise_cons.1 hl
      have hm' := List.pairwise_cons.1 hm
      have hxy : x = y := by
        rcases Decidable.em (x = y) with e | hne
        · exact e
        · exfalso
          have hx := h x
          have hy := h y
          by_cases hlt : x < y
          · have : findValue? x ((y, w) :: m) = none :=
              findValue?_eq_none_of_forall fun e he => by
                rcases List.mem_cons.1 he with rfl | he
                · exact hlt
                · exact String.lt_trans hlt (hm'.1 e he)
            rw [this] at hx; simp [findValue?] at hx
          · have hlt' := lt_of_not_lt_of_ne hlt hne
            have : findValue? y ((x, v) :: l) = none :=
              findValue?_eq_none_of_forall fun e he => by
                rcases List.mem_cons.1 he with rfl | he
                · exact hlt'
                · exact String.lt_trans hlt' (hl'.1 e he)
            rw [this] at hy; simp [findValue?] at hy
      subst hxy
      have hv : v = w := by simpa [findValue?] using h x
      subst hv
      congr 1
      refine ih hl'.2 hm'.2 fun k => ?_
      by_cases hk : k = x
      · subst hk
        rw [findValue?_eq_none_of_forall hl'.1, findValue?_eq_none_of_forall hm'.1]
      · simpa [findValue?, hk] using h k

/-! ## Maps -/

/-- The map without entries. -/
def empty : KeyMap β := ⟨[], List.Pairwise.nil⟩

instance : EmptyCollection (KeyMap β) := ⟨empty⟩

instance : Inhabited (KeyMap β) := ⟨∅⟩

/-- Enters a value, replacing the one with its key. -/
def insert (m : KeyMap β) (k : String) (v : β) : KeyMap β :=
  ⟨insertEntry k v m.entries, pairwise_insertEntry k v m.sorted⟩

/-- Drops the entry with a key, if there is one. -/
def erase (m : KeyMap β) (k : String) : KeyMap β :=
  ⟨m.entries.filter (fun e => e.1 ≠ k), m.sorted.filter _⟩

/-- The value with a key. -/
def find? (m : KeyMap β) (k : String) : Option β := findValue? k m.entries

/-- Some value has the key. -/
def contains (m : KeyMap β) (k : String) : Bool := (m.find? k).isSome

/-- Enters a value under a key that has none yet. -/
def insertNew (m : KeyMap β) (k : String) (v : β) : KeyMap β :=
  match m.find? k with
  | some _ => m
  | none => m.insert k v

/-- The keys, in increasing order. -/
def keys (m : KeyMap β) : List String := m.entries.map (·.1)

/-- The map of the given entries; the last one with a key counts. -/
def ofList (l : List (String × β)) : KeyMap β := l.foldl (fun m e => m.insert e.1 e.2) ∅

@[simp] theorem find?_empty (k : String) : (∅ : KeyMap β).find? k = none := rfl

theorem find?_insert (m : KeyMap β) (k k' : String) (v : β) :
    (m.insert k v).find? k' = if k' = k then some v else m.find? k' :=
  findValue?_insertEntry k k' v m.sorted

@[simp] theorem find?_insert_self (m : KeyMap β) (k : String) (v : β) :
    (m.insert k v).find? k = some v := by simp [find?_insert]

/-- A value that is there already stays. -/
theorem find?_insertNew (m : KeyMap β) (k k' : String) (v : β) :
    (m.insertNew k v).find? k' = (m.find? k').or (if k' = k then some v else none) := by
  unfold insertNew
  split
  · next w hfind =>
    by_cases hk : k' = k
    · rw [hk, hfind, Option.some_or]
    · rw [if_neg hk, Option.or_none]
  · next hfind =>
    rw [find?_insert]
    by_cases hk : k' = k
    · rw [if_pos hk, if_pos hk, hk, hfind, Option.none_or]
    · rw [if_neg hk, if_neg hk, Option.or_none]

theorem find?_erase (m : KeyMap β) (k k' : String) :
    (m.erase k).find? k' = if k' = k then none else m.find? k' :=
  findValue?_filter k k' m.entries

/-- Two maps that answer every look-up alike are equal. -/
theorem ext_find? {m n : KeyMap β} (h : ∀ k, m.find? k = n.find? k) : m = n := by
  obtain ⟨l, hl⟩ := m
  obtain ⟨l', hl'⟩ := n
  have : l = l' := eq_of_findValue? hl hl' h
  subst this
  rfl

end KeyMap

end Filing
