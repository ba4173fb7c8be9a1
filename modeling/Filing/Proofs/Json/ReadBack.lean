import Filing.Proofs.Json.Scalars
import Filing.Proofs.Lists

/-!
# Reading JSON undoes writing it

A written value is read with at least as much fuel as it has characters, by induction on the value
and in both layouts at once: they differ in the blanks between the parts of a value, which the
reader skips. Behind a value the printer puts nothing that goes on with a number.

A literal is written as it stands; values that hold one are left out (`IsPlain`).

Main statements: `read_render`, `read_renderIndented`.
-/

namespace Filing.Json

open Filing.Data (Value)

/-! ## Written values -/

/-- A value without literals, which are written as they stand. -/
inductive IsPlain : Value → Prop where
  | null : IsPlain .null
  | bool (b : Bool) : IsPlain (.bool b)
  | integer (n : Int) : IsPlain (.integer n)
  | string (s : String) : IsPlain (.string s)
  | list {l : List Value} (h : ∀ v ∈ l, IsPlain v) : IsPlain (.list l)
  | record {m : List (String × Value)} (h : ∀ e ∈ m, IsPlain e.2) : IsPlain (.record m)

/-- What stands between the parts of a value: nothing in the compact layout, and in the indented one
a line break and the indentation of the level. -/
def gap : Option Nat → List Char
  | none => []
  | some level => (newline level).toList

/-- What stands behind the name of a member. -/
def colon : Option Nat → List Char
  | none => [':']
  | some _ => [':', ' ']

/-- The level of the parts of a value. -/
def deeper (level : Option Nat) : Option Nat := level.map (· + 1)

mutual

/-- The characters of a written value, at a level or compact. -/
def spelled (level : Option Nat) : Value → List Char
  | .list [] => ['[', ']']
  | .list (v :: vs) =>
    '[' :: (gap (deeper level) ++ (spelled (deeper level) v ++ spelledItems level vs))
  | .record [] => ['\x7b', '\x7d']
  | .record ((name, v) :: ms) =>
    '\x7b' :: (gap (deeper level) ++ '"' :: (unquoted name ++
      (colon level ++ (spelled (deeper level) v ++ spelledMembers level ms))))
  | v => (scalar v).toList

/-- The further items of a list, with its closing bracket. -/
def spelledItems (level : Option Nat) : List Value → List Char
  | [] => gap level ++ [']']
  | v :: vs => ',' :: (gap (deeper level) ++ (spelled (deeper level) v ++ spelledItems level vs))

/-- The further members of a record, with its closing brace. -/
def spelledMembers (level : Option Nat) : List (String × Value) → List Char
  | [] => gap level ++ ['\x7d']
  | (name, v) :: ms =>
    ',' :: (gap (deeper level) ++ '"' :: (unquoted name ++
      (colon level ++ (spelled (deeper level) v ++ spelledMembers level ms))))

end

/-- Writing a value in either layout appends its characters. -/
def Appends (v : Value) : Prop :=
  (∀ out, (compact out v).toList = out.toList ++ spelled none v) ∧
    ∀ level out, (indented level out v).toList = out.toList ++ spelled (some level) v

theorem toList_compactItems {vs : List Value} (h : ∀ v ∈ vs, Appends v) (out : String) :
    (compactItems out vs ++ "]").toList = out.toList ++ spelledItems none vs := by
  induction vs generalizing out with
  | nil => rw [compactItems, String.toList_append, spelledItems]; rfl
  | cons v vs ih =>
    obtain ⟨hv, hvs⟩ := List.forall_mem_cons.1 h
    rw [compactItems, ih hvs, hv.1, spelledItems, String.toList_append]
    simp [deeper, gap]

theorem toList_compactMembers {ms : List (String × Value)} (h : ∀ e ∈ ms, Appends e.2)
    (out : String) :
    (compactMembers out ms ++ "\x7d").toList = out.toList ++ spelledMembers none ms := by
  induction ms generalizing out with
  | nil => rw [compactMembers, String.toList_append, spelledMembers]; rfl
  | cons e ms ih =>
    obtain ⟨hv, hms⟩ := List.forall_mem_cons.1 h
    rw [compactMembers, ih hms, hv.1, spelledMembers]
    simp [toList_quote, deeper, gap, colon]

theorem toList_indentedItems {vs : List Value} (h : ∀ v ∈ vs, Appends v) (level : Nat)
    (out : String) : (indentedItems level out vs ++ newline level ++ "]").toList =
      out.toList ++ spelledItems (some level) vs := by
  induction vs generalizing out with
  | nil => rw [indentedItems, String.toList_append, String.toList_append, spelledItems]; simp [gap]
  | cons v vs ih =>
    obtain ⟨hv, hvs⟩ := List.forall_mem_cons.1 h
    rw [indentedItems, ih hvs, hv.2, spelledItems]
    simp [deeper, gap]

theorem toList_indentedMembers {ms : List (String × Value)} (h : ∀ e ∈ ms, Appends e.2)
    (level : Nat) (out : String) :
    (indentedMembers level out ms ++ newline level ++ "\x7d").toList =
      out.toList ++ spelledMembers (some level) ms := by
  induction ms generalizing out with
  | nil =>
    rw [indentedMembers, spelledMembers]
    simp [gap]
  | cons e ms ih =>
    obtain ⟨hv, hms⟩ := List.forall_mem_cons.1 h
    rw [indentedMembers, ih hms, hv.2, spelledMembers]
    simp [toList_quote, deeper, gap, colon]

theorem appends_scalar {v : Value} (hlist : ∀ l, v ≠ .list l) (hrecord : ∀ m, v ≠ .record m) :
    Appends v := by
  constructor
  · intro out
    cases v with
    | list l => exact absurd rfl (hlist l)
    | record m => exact absurd rfl (hrecord m)
    | _ => simp [compact, spelled]
  · intro level out
    cases v with
    | list l => exact absurd rfl (hlist l)
    | record m => exact absurd rfl (hrecord m)
    | _ => simp [indented, spelled]

theorem IsPlain.appends {v : Value} (h : IsPlain v) : Appends v := by
  induction h with
  | @list l _ ih =>
    cases l with
    | nil => simp [Appends, compact, indented, spelled]
    | cons v vs =>
      obtain ⟨hv, hvs⟩ := List.forall_mem_cons.1 ih
      constructor
      · intro out
        rw [compact, toList_compactItems hvs, hv.1, spelled]
        simp [deeper, gap]
      · intro level out
        rw [indented, toList_indentedItems hvs, hv.2, spelled]
        simp [deeper, gap]
  | @record m _ ih =>
    cases m with
    | nil => simp [Appends, compact, indented, spelled]
    | cons e ms =>
      obtain ⟨hv, hms⟩ := List.forall_mem_cons.1 ih
      constructor
      · intro out
        rw [compact, toList_compactMembers hms, hv.1, spelled]
        simp [toList_quote, deeper, gap, colon]
      · intro level out
        rw [indented, toList_indentedMembers hms, hv.2, spelled]
        simp [toList_quote, deeper, gap, colon]
  | _ => exact appends_scalar nofun nofun

/-! ## Blanks -/

theorem isBlank_iff {c : Char} :
    isBlank c = true ↔ c = ' ' ∨ c = '\t' ∨ c = '\n' ∨ c = '\r' := by
  simp [isBlank, or_assoc]

theorem BeginsNumber.isBlank_eq_false {c : Char} (hc : BeginsNumber c) : isBlank c = false := by
  rw [Bool.eq_false_iff]
  intro hblank
  obtain h | h | h | h := isBlank_iff.1 hblank <;> exact hc.ne (by decide) h

theorem skipBlanks_append {blanks : List Char} (h : ∀ c ∈ blanks, isBlank c = true)
    (s : List Char) : skipBlanks (blanks ++ s) = skipBlanks s :=
  List.dropWhile_append_of_pos h

theorem skipBlanks_cons {c : Char} (h : isBlank c = false) (s : List Char) :
    skipBlanks (c :: s) = c :: s := by
  rw [skipBlanks, List.dropWhile_cons, h]
  rfl

theorem gap_some (level : Nat) : gap (some level) = '\n' :: List.replicate (2 * level) ' ' := by
  simp [gap, newline]

theorem isBlank_of_mem_gap {level : Option Nat} : ∀ c ∈ gap level, isBlank c = true := by
  cases level with
  | none => exact List.forall_mem_nil _
  | some level =>
    intro c hc
    rw [gap_some] at hc
    rcases List.mem_cons.1 hc with rfl | hc
    · rfl
    · rw [List.eq_of_mem_replicate hc]
      rfl

/-- A written value begins with a character that is neither blank nor the end of a list. -/
theorem IsPlain.spelled_eq_cons {v : Value} (h : IsPlain v) (level : Option Nat) :
    ∃ c s, spelled level v = c :: s ∧ isBlank c = false ∧ c ≠ ']' := by
  cases h with
  | null => exact ⟨'n', _, rfl, rfl, by decide⟩
  | bool b => cases b <;> exact ⟨_, _, rfl, rfl, by decide⟩
  | integer n =>
    obtain ⟨c, s, hs, hc⟩ := exists_toString_eq_cons n
    exact ⟨c, s, hs, hc.isBlank_eq_false, hc.ne (by decide)⟩
  | string s => exact ⟨'"', unquoted s, toList_quote s, rfl, by decide⟩
  | @list l _ =>
    cases l with
    | nil => exact ⟨'[', _, rfl, rfl, by decide⟩
    | cons v vs => exact ⟨'[', _, by rw [spelled], rfl, by decide⟩
  | @record m _ =>
    cases m with
    | nil => exact ⟨'\x7b', _, rfl, rfl, by decide⟩
    | cons e ms => exact ⟨'\x7b', _, by rw [spelled], rfl, by decide⟩

theorem IsPlain.skipBlanks_spelled {v : Value} (h : IsPlain v) (level : Option Nat)
    (rest : List Char) : skipBlanks (spelled level v ++ rest) = spelled level v ++ rest := by
  obtain ⟨c, s, hs, hblank, -⟩ := h.spelled_eq_cons level
  rw [hs, List.cons_append, skipBlanks_cons hblank]

theorem IsPlain.exists_eq_succ {v : Value} (h : IsPlain v) {level : Option Nat} {n : Nat}
    (hn : (spelled level v).length ≤ n) : ∃ m, n = m + 1 := by
  obtain ⟨c, s, hs, -⟩ := h.spelled_eq_cons level
  rw [hs, List.length_cons] at hn
  exact Nat.exists_eq_add_of_le' (Nat.le_of_add_left_le hn)

/-- What stands behind a value in a list or a record: blanks and a delimiter. -/
theorem skipBlanks_spelledItems_nil (level : Option Nat) (rest : List Char) :
    skipBlanks (spelledItems level [] ++ rest) = ']' :: rest := by
  rw [spelledItems, List.append_assoc, skipBlanks_append isBlank_of_mem_gap]
  rfl

theorem skipBlanks_spelledMembers_nil (level : Option Nat) (rest : List Char) :
    skipBlanks (spelledMembers level [] ++ rest) = '\x7d' :: rest := by
  rw [spelledMembers, List.append_assoc, skipBlanks_append isBlank_of_mem_gap]
  rfl

theorem endsNumber_cons {c : Char} (hc : c ∈ [',', ']', '\x7d', '\n']) (rest : List Char) :
    EndsNumber (c :: rest) := by
  simp only [List.mem_cons, List.not_mem_nil, or_false] at hc
  rintro d ⟨⟩
  obtain rfl | rfl | rfl | rfl := hc <;> decide

theorem endsNumber_gap_append (level : Option Nat) {c : Char} (hc : c ∈ [',', ']', '\x7d', '\n'])
    (rest : List Char) : EndsNumber (gap level ++ c :: rest) := by
  cases level with
  | none => exact endsNumber_cons hc rest
  | some level =>
    rw [gap_some]
    exact endsNumber_cons (by decide) _

theorem endsNumber_spelledItems (level : Option Nat) (vs : List Value) (rest : List Char) :
    EndsNumber (spelledItems level vs ++ rest) := by
  cases vs with
  | nil =>
    rw [spelledItems, List.append_assoc]
    exact endsNumber_gap_append level (by decide) rest
  | cons v vs =>
    rw [spelledItems]
    exact endsNumber_cons (by decide) _

theorem endsNumber_spelledMembers (level : Option Nat) (ms : List (String × Value))
    (rest : List Char) : EndsNumber (spelledMembers level ms ++ rest) := by
  cases ms with
  | nil =>
    rw [spelledMembers, List.append_assoc]
    exact endsNumber_gap_append level (by decide) rest
  | cons e ms =>
    rw [spelledMembers]
    exact endsNumber_cons (by decide) _

/-! ## Reading written values -/

/-- With fuel for each of its characters a written value is read from in front of anything that does
not go on with a number. -/
def Reads (v : Value) : Prop := ∀ level n rest, EndsNumber rest → (spelled level v).length ≤ n →
  value n (spelled level v ++ rest) = some (v, rest)

theorem value_eq_number {c : Char} (hc : BeginsNumber c) (n : Nat) (s : List Char) :
    value (n + 1) (c :: s) = number (c :: s) := by
  have hword : c ≠ 'n' ∧ c ≠ 't' ∧ c ≠ 'f' :=
    ⟨hc.ne (by decide), hc.ne (by decide), hc.ne (by decide)⟩
  have hopening : c ≠ '"' ∧ c ≠ '[' ∧ c ≠ '\x7b' :=
    ⟨hc.ne (by decide), hc.ne (by decide), hc.ne (by decide)⟩
  rw [value]
  all_goals grind

theorem value_integer (n : Nat) (i : Int) {rest : List Char} (h : EndsNumber rest) :
    value (n + 1) ((toString i).toList ++ rest) = some (.integer i, rest) := by
  obtain ⟨c, s, hs, hc⟩ := exists_toString_eq_cons i
  rw [hs, List.cons_append, value_eq_number hc, ← List.cons_append, ← hs, number_toString i h]

theorem items_last {n : Nat} {v : Value} {s after rest : List Char}
    (h : value n s = some (v, after)) (hafter : skipBlanks after = ']' :: rest)
    (acc : List Value) : items (n + 1) acc s = some ((v :: acc).reverse, rest) := by
  rw [items, h]
  simp [hafter]

theorem items_next {n : Nat} {v : Value} {s rest : List Char}
    (h : value n s = some (v, ',' :: rest)) (acc : List Value) :
    items (n + 1) acc s = items n (v :: acc) (skipBlanks rest) := by
  rw [items, h]
  rfl

theorem members_last {n : Nat} {name : String} {v : Value} {level : Option Nat}
    {s after rest : List Char}
    (h : value n (skipBlanks s) = some (v, after)) (hafter : skipBlanks after = '\x7d' :: rest)
    (acc : List (Option String × Value)) :
    members (n + 1) acc ('"' :: (unquoted name ++ (colon level ++ s))) =
      some (((some name, v) :: acc).reverse, rest) := by
  rw [members, quoted_unquoted]
  cases level <;>
  · show (value n (skipBlanks s)).bind _ = _
    rw [h]
    simp [hafter]

theorem members_next {n : Nat} {name : String} {v : Value} {level : Option Nat}
    {s rest : List Char}
    (h : value n (skipBlanks s) = some (v, ',' :: rest)) (acc : List (Option String × Value)) :
    members (n + 1) acc ('"' :: (unquoted name ++ (colon level ++ s))) =
      members n ((some name, v) :: acc) (skipBlanks rest) := by
  rw [members, quoted_unquoted]
  cases level <;>
  · show (value n (skipBlanks s)).bind _ = _
    rw [h]
    rfl

section Parts

variable {level : Option Nat}

theorem spelledItems_cons_append (v : Value) (vs : List Value) (rest : List Char) :
    spelledItems level (v :: vs) ++ rest = ',' :: (gap (deeper level) ++
      (spelled (deeper level) v ++ (spelledItems level vs ++ rest))) := by
  simp [spelledItems]

theorem spelledMembers_cons_append (e : String × Value) (ms : List (String × Value))
    (rest : List Char) : spelledMembers level (e :: ms) ++ rest = ',' :: (gap (deeper level) ++
      '"' :: (unquoted e.1 ++ (colon level ++
        (spelled (deeper level) e.2 ++ (spelledMembers level ms ++ rest))))) := by
  simp [spelledMembers]

-- Each bracket, comma and brace takes one step and is one character, so the fuel lasts for the rest.
theorem items_spelled {v : Value} {vs : List Value} (hv : IsPlain v ∧ Reads v)
    (hvs : ∀ w ∈ vs, IsPlain w ∧ Reads w) {n : Nat} (acc : List Value) (rest : List Char)
    (hn : (spelled (deeper level) v).length + (spelledItems level vs).length ≤ n) :
    items n acc (spelled (deeper level) v ++ (spelledItems level vs ++ rest)) =
      some (acc.reverse ++ v :: vs, rest) := by
  induction vs generalizing v n acc with
  | nil =>
    rw [spelledItems, List.length_append, List.length_singleton] at hn
    obtain ⟨n, rfl⟩ := Nat.exists_eq_add_of_le' (show 1 ≤ n by omega)
    have hvalue := hv.2 (deeper level) n _ (endsNumber_spelledItems level [] rest) (by omega)
    rw [items_last hvalue (skipBlanks_spelledItems_nil level rest), List.reverse_cons]
  | cons w vs ih =>
    obtain ⟨hw, hvs⟩ := List.forall_mem_cons.1 hvs
    rw [spelledItems, List.length_cons, List.length_append, List.length_append] at hn
    obtain ⟨n, rfl⟩ := Nat.exists_eq_add_of_le' (show 1 ≤ n by omega)
    have hvalue := hv.2 (deeper level) n _ (endsNumber_spelledItems level (w :: vs) rest) (by omega)
    rw [spelledItems_cons_append] at hvalue ⊢
    rw [items_next hvalue, skipBlanks_append isBlank_of_mem_gap, hw.1.skipBlanks_spelled,
      ih hw hvs (v :: acc) (by omega), List.reverse_cons, List.append_assoc]
    rfl

theorem members_spelled {name : String} {v : Value} {ms : List (String × Value)}
    (hv : IsPlain v ∧ Reads v) (hms : ∀ e ∈ ms, IsPlain e.2 ∧ Reads e.2) {n : Nat}
    (acc : List (Option String × Value)) (rest : List Char)
    (hn : (spelled (deeper level) v).length + (spelledMembers level ms).length ≤ n) :
    members n acc ('"' :: (unquoted name ++ (colon level ++
        (spelled (deeper level) v ++ (spelledMembers level ms ++ rest))))) =
      some (acc.reverse ++ (some name, v) :: ms.map (fun e => (some e.1, e.2)), rest) := by
  induction ms generalizing name v n acc with
  | nil =>
    rw [spelledMembers, List.length_append, List.length_singleton] at hn
    obtain ⟨n, rfl⟩ := Nat.exists_eq_add_of_le' (show 1 ≤ n by omega)
    have hvalue := hv.2 (deeper level) n _ (endsNumber_spelledMembers level [] rest) (by omega)
    rw [← hv.1.skipBlanks_spelled] at hvalue
    rw [members_last hvalue (skipBlanks_spelledMembers_nil level rest), List.reverse_cons]
    rfl
  | cons e ms ih =>
    obtain ⟨he, hms⟩ := List.forall_mem_cons.1 hms
    rw [spelledMembers] at hn
    simp only [List.length_cons, List.length_append] at hn
    obtain ⟨n, rfl⟩ := Nat.exists_eq_add_of_le' (show 1 ≤ n by omega)
    have hvalue := hv.2 (deeper level) n _ (endsNumber_spelledMembers level (e :: ms) rest)
      (by omega)
    rw [← hv.1.skipBlanks_spelled] at hvalue
    rw [spelledMembers_cons_append] at hvalue ⊢
    rw [members_next hvalue, skipBlanks_append isBlank_of_mem_gap, skipBlanks_cons (by rfl),
      ih he hms _ (by omega), List.reverse_cons, List.append_assoc]
    rfl

end Parts

theorem value_string (n : Nat) (s : String) (rest : List Char) :
    value (n + 1) ('"' :: (unquoted s ++ rest)) = some (.string s, rest) := by
  show (quoted (unquoted s ++ rest)).bind _ = _
  rw [quoted_unquoted]
  rfl

theorem value_list {n : Nat} {v : Value} (hv : IsPlain v) (level : Option Nat) (s : List Char) :
    value (n + 1) ('[' :: (gap level ++ (spelled level v ++ s))) =
      (items n [] (spelled level v ++ s)).bind fun r => some (.list r.1, r.2) := by
  have hblank : skipBlanks (gap level ++ (spelled level v ++ s)) = spelled level v ++ s := by
    rw [skipBlanks_append isBlank_of_mem_gap, hv.skipBlanks_spelled]
  obtain ⟨c, t, ht, -, hend⟩ := hv.spelled_eq_cons level
  rw [value, hblank, ht, List.cons_append]
  split
  · next heq => exact absurd (List.cons.inj heq).1 hend
  · rfl

theorem value_record (n : Nat) (level : Option Nat) (s : List Char) :
    value (n + 1) ('\x7b' :: (gap level ++ '"' :: s)) =
      (members n [] ('"' :: s)).bind fun r => some (recordOf r.1, r.2) := by
  rw [value, skipBlanks_append isBlank_of_mem_gap]
  rfl

theorem recordOf_map_some (ms : List (String × Value)) :
    recordOf (ms.map fun e => (some e.1, e.2)) = .record ms := by
  rw [recordOf, mapM_map_eq_some]
  intro e
  rfl

/-- Reading undoes writing, in either layout, for every value without literals. -/
theorem IsPlain.reads {v : Value} (h : IsPlain v) : Reads v := by
  induction h with
  | null =>
    intro level n rest _ hn
    obtain ⟨n, rfl⟩ := IsPlain.null.exists_eq_succ hn
    rfl
  | bool b =>
    intro level n rest _ hn
    obtain ⟨n, rfl⟩ := (IsPlain.bool b).exists_eq_succ hn
    cases b <;> rfl
  | integer i =>
    intro level n rest hrest hn
    obtain ⟨n, rfl⟩ := (IsPlain.integer i).exists_eq_succ hn
    exact value_integer n i hrest
  | string s =>
    intro level n rest _ hn
    have hs : spelled level (.string s) = '"' :: unquoted s := toList_quote s
    obtain ⟨n, rfl⟩ := (IsPlain.string s).exists_eq_succ hn
    rw [hs, List.cons_append, value_string]
  | @list l hl ih =>
    intro level n rest _ hn
    obtain ⟨n, rfl⟩ := (IsPlain.list hl).exists_eq_succ hn
    cases l with
    | nil => rfl
    | cons v vs =>
      obtain ⟨hv, hvs⟩ := List.forall_mem_cons.1 hl
      obtain ⟨ihv, ihvs⟩ := List.forall_mem_cons.1 ih
      rw [spelled] at hn ⊢
      simp only [List.length_cons, List.length_append] at hn
      simp only [List.cons_append, List.append_assoc]
      rw [value_list hv,
        items_spelled ⟨hv, ihv⟩ (fun w hw => ⟨hvs w hw, ihvs w hw⟩) [] rest (by omega)]
      rfl
  | @record m hm ih =>
    intro level n rest _ hn
    obtain ⟨n, rfl⟩ := (IsPlain.record hm).exists_eq_succ hn
    cases m with
    | nil => rfl
    | cons e ms =>
      obtain ⟨hv, hms⟩ := List.forall_mem_cons.1 hm
      obtain ⟨ihv, ihms⟩ := List.forall_mem_cons.1 ih
      rw [spelled] at hn ⊢
      simp only [List.length_cons, List.length_append] at hn
      simp only [List.cons_append, List.append_assoc]
      rw [value_record,
        members_spelled ⟨hv, ihv⟩ (fun e he => ⟨hms e he, ihms e he⟩) [] rest (by omega),
        Option.bind_some]
      show some (recordOf (((e :: ms).map fun e => (some e.1, e.2))), rest) = _
      rw [recordOf_map_some]

theorem endsNumber_of_isBlank {blanks : List Char} (h : ∀ c ∈ blanks, isBlank c = true) :
    EndsNumber blanks := by
  intro c hc
  have hblank := h c (List.mem_of_mem_head? hc)
  obtain rfl | rfl | rfl | rfl := isBlank_iff.1 hblank <;> decide

/-- A text that is a written value, perhaps with blanks behind it, holds that value. -/
theorem IsPlain.read_eq {v : Value} (h : IsPlain v) (level : Option Nat) {s : String}
    {blanks : List Char} (hs : s.toList = spelled level v ++ blanks)
    (hblanks : ∀ c ∈ blanks, isBlank c = true) : read s = some v := by
  have hvalue := h.reads level (2 * (spelled level v ++ blanks).length + 2) blanks
    (endsNumber_of_isBlank hblanks) (by rw [List.length_append]; omega)
  have hrest : skipBlanks blanks = [] := by
    rw [← List.append_nil blanks, skipBlanks_append hblanks]
    rfl
  unfold read
  dsimp only
  rw [hs, h.skipBlanks_spelled, hvalue]
  show (if (skipBlanks blanks).isEmpty then some v else none) = some v
  rw [hrest]
  rfl

/-- The compact text of a value without literals holds that value. -/
theorem read_render {v : Value} (h : IsPlain v) : read (render v) = some v :=
  h.read_eq none ((h.appends.1 "").trans (List.append_nil _).symm) (List.forall_mem_nil _)

/-- So does its indented text with a line break behind it. -/
theorem read_renderIndented {v : Value} (h : IsPlain v) :
    read (renderIndented v ++ "\n") = some v := by
  have htext : (renderIndented v ++ "\n").toList = spelled (some 0) v ++ ['\n'] := by
    rw [String.toList_append, renderIndented, h.appends.2]
    rfl
  exact h.read_eq (some 0) htext (List.forall_mem_singleton.2 rfl)

end Filing.Json
