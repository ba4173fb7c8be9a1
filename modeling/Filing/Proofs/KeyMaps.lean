import Filing.KeyMap

/-!
# Entries and look-ups

The entries of a map and its look-ups tell the same. A map made of a list of entries answers with
the last entry of each key, or with the first where a key that is there is not entered again.
-/

namespace Filing.KeyMap

variable {β : Type}

theorem findValue?_eq_some_of_mem {k : String} {v : β} {l : List (String × β)}
    (hl : l.Pairwise (fun a b => a.1 < b.1)) (h : (k, v) ∈ l) : findValue? k l = some v := by
  induction l with
  | nil => exact absurd h List.not_mem_nil
  | cons e rest ih =>
    obtain ⟨x, w⟩ := e
    have hrest := List.pairwise_cons.1 hl
    rcases List.mem_cons.1 h with heq | hmem
    · obtain ⟨rfl, rfl⟩ := Prod.mk.inj heq
      rw [findValue?, if_pos rfl]
    · have hne : k ≠ x := by
        rintro rfl
        exact String.lt_irrefl k (hrest.1 (k, v) hmem)
      rw [findValue?, if_neg hne]
      exact ih hrest.2 hmem

theorem mem_of_findValue? {k : String} {v : β} {l : List (String × β)}
    (h : findValue? k l = some v) : (k, v) ∈ l := by
  induction l with
  | nil => exact absurd h (by simp [findValue?])
  | cons e rest ih =>
    obtain ⟨x, w⟩ := e
    rw [findValue?] at h
    split at h
    · next heq =>
      obtain rfl := Option.some.inj h
      exact heq ▸ List.mem_cons_self
    · exact List.mem_cons_of_mem _ (ih h)

/-- The entries are what the look-ups answer. -/
theorem mem_entries_iff {m : KeyMap β} {k : String} {v : β} :
    (k, v) ∈ m.entries ↔ m.find? k = some v :=
  ⟨findValue?_eq_some_of_mem m.sorted, mem_of_findValue?⟩

theorem mem_keys_iff {m : KeyMap β} {k : String} : k ∈ m.keys ↔ (m.find? k).isSome := by
  rw [Option.isSome_iff_exists]
  constructor
  · intro h
    obtain ⟨⟨_, v⟩, hmem, rfl⟩ := List.mem_map.1 h
    exact ⟨v, mem_entries_iff.1 hmem⟩
  · rintro ⟨v, hv⟩
    exact List.mem_map.2 ⟨(k, v), mem_entries_iff.2 hv, rfl⟩

theorem nodup_keys (m : KeyMap β) : m.keys.Nodup := by
  refine List.pairwise_map.2 (m.sorted.imp fun hlt heq => ?_)
  rw [heq] at hlt
  exact String.lt_irrefl _ hlt

/-! ## Maps made of a list -/

theorem find?_foldl_insert (l : List (String × β)) (m : KeyMap β) (k : String) :
    (l.foldl (fun m e => m.insert e.1 e.2) m).find? k =
      ((l.reverse.find? (·.1 == k)).map (·.2)).or (m.find? k) := by
  induction l generalizing m with
  | nil => simp
  | cons e rest ih =>
    rw [List.foldl_cons, ih, List.reverse_cons, List.find?_append, find?_insert]
    cases rest.reverse.find? (·.1 == k) with
    | some found => rfl
    | none =>
      by_cases hk : k = e.1
      · simp [hk]
      · simp [hk, Ne.symm hk]

/-- Of several entries with one key the last counts. -/
theorem find?_ofList (l : List (String × β)) (k : String) :
    (ofList l).find? k = (l.reverse.find? (·.1 == k)).map (·.2) := by
  unfold ofList
  rw [find?_foldl_insert, find?_empty, Option.or_none]

theorem mem_of_find?_ofList {l : List (String × β)} {k : String} {v : β}
    (h : (ofList l).find? k = some v) : (k, v) ∈ l := by
  rw [find?_ofList, Option.map_eq_some_iff] at h
  obtain ⟨⟨x, w⟩, hfind, rfl⟩ := h
  have hx : x = k := by simpa using List.find?_some hfind
  exact hx ▸ List.mem_reverse.1 (List.mem_of_find?_eq_some hfind)

theorem find?_ofList_eq_none {l : List (String × β)} {k : String} (h : ∀ v, (k, v) ∉ l) :
    (ofList l).find? k = none := by
  cases hfind : (ofList l).find? k with
  | none => rfl
  | some v => exact absurd (mem_of_find?_ofList hfind) (h v)

/-- Where each value is entered only under a new key, the first of each key counts. -/
theorem find?_foldl_insertNew {α : Type} (key : α → String) (value : α → β) (l : List α)
    (m : KeyMap β) (k : String) :
    (l.foldl (fun m a => m.insertNew (key a) (value a)) m).find? k =
      (m.find? k).or ((l.find? (key · == k)).map value) := by
  induction l generalizing m with
  | nil => simp
  | cons a rest ih =>
    rw [List.foldl_cons, ih, find?_insertNew, Option.or_assoc]
    by_cases hk : k = key a
    · rw [if_pos hk, Option.some_or, List.find?_cons_of_pos (by simp [hk]), Option.map_some]
    · rw [if_neg hk, Option.none_or, List.find?_cons_of_neg (by simpa using Ne.symm hk)]

/-- A key that comes with a value is found. -/
theorem isSome_find?_ofList {l : List (String × β)} {k : String} {v : β} (h : (k, v) ∈ l) :
    ((ofList l).find? k).isSome := by
  rw [find?_ofList, Option.isSome_map, List.find?_isSome]
  exact ⟨(k, v), List.mem_reverse.2 h, by simp⟩

/-- A key that always comes with one value is found with it. -/
theorem find?_ofList_eq_some {l : List (String × β)} {k : String} {v : β} (hmem : (k, v) ∈ l)
    (huniq : ∀ w, (k, w) ∈ l → w = v) : (ofList l).find? k = some v := by
  obtain ⟨w, hfind⟩ := Option.isSome_iff_exists.1 (isSome_find?_ofList hmem)
  rw [hfind, huniq w (mem_of_find?_ofList hfind)]

/-- The entries of a map make up the map. -/
theorem ofList_entries (m : KeyMap β) : ofList m.entries = m := by
  apply ext_find?
  intro k
  cases hfind : m.find? k with
  | none =>
    refine find?_ofList_eq_none fun v hmem => ?_
    rw [mem_entries_iff.1 hmem] at hfind
    cases hfind
  | some v =>
    refine find?_ofList_eq_some (mem_entries_iff.2 hfind) fun w hmem => ?_
    rw [mem_entries_iff.1 hmem] at hfind
    exact Option.some.inj hfind

end Filing.KeyMap
