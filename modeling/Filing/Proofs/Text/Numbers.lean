import Filing.Proofs.Text.Stripping
import Filing.Text.Natural

/-!
# Numbers read back

A text is read as a number if it writes the number in decimal digits and the number lies within the
bound of the reader (`natural?_eq_some_iff`). So a number that is printed and read again is the same
number. Blanks are not among its digits, and trimming leaves it alone.
-/

namespace Filing.Text

/-! ## Digits -/

theorem digit?_ten_of_isDigit {c : Char} (h : c.isDigit = true) :
    digit? 10 c = some (c.toNat - '0'.toNat) := by
  have hlt : c.toNat - '0'.toNat < 10 := by
    have h9 : c.toNat ≤ '9'.toNat := by
      simp only [Char.isDigit, Bool.and_eq_true, decide_eq_true_eq] at h
      exact h.2
    have : '9'.toNat = 57 := rfl
    have : '0'.toNat = 48 := rfl
    omega
  simp only [digit?, digitValue?, h, if_true, Option.filter_some, decide_eq_true_eq]
  rw [if_pos hlt]

/-- Further digits never make a number smaller. -/
theorem le_ofDigitChars (n : Nat) (s : List Char) : n ≤ Nat.ofDigitChars 10 s n := by
  rw [Nat.ofDigitChars_eq_ofDigitChars_zero]
  have h : 1 * n ≤ 10 ^ s.length * n := Nat.mul_le_mul_right n (Nat.one_le_pow _ _ (by omega))
  omega

/-- Digits whose number stays within the bound are read to the end. -/
theorem appendDigits_ten {limit n : Nat} {s : List Char} (hs : ∀ c ∈ s, c.isDigit = true)
    (h : Nat.ofDigitChars 10 s n ≤ limit) :
    appendDigits 10 limit n s = .ok (Nat.ofDigitChars 10 s n) := by
  induction s generalizing n with
  | nil => simp [appendDigits]
  | cons c rest ih =>
    have hc := hs c (by simp)
    rw [Nat.ofDigitChars_cons, Nat.mul_comm] at h ⊢
    have hle := le_ofDigitChars (n * 10 + (c.toNat - '0'.toNat)) rest
    simp only [appendDigits, digit?_ten_of_isDigit hc]
    rw [if_pos (by omega)]
    exact ih (fun d hd => hs d (by simp [hd])) h

/-! ## Numbers that are read -/

/-- A text writes a number in decimal digits, perhaps with a plus sign in front. -/
def WritesNatural (s : String) (n : Nat) : Prop :=
  ∃ digits : List Char, digits ≠ [] ∧ (∀ c ∈ digits, c.isDigit = true) ∧ numberOf digits = n ∧
    (s.toList = digits ∨ s.toList = '+' :: digits)

theorem isDigit_of_digit?_ten {c : Char} {d : Nat} (h : digit? 10 c = some d) :
    c.isDigit = true := by
  unfold digit? digitValue? at h
  by_contra hc
  rw [if_neg hc] at h
  obtain ⟨hd, hlt⟩ := Option.filter_eq_some_iff.1 h
  have hten : d < 10 := of_decide_eq_true hlt
  -- Letters count from ten on.
  split at hd
  · have := Option.some.inj hd
    omega
  · split at hd
    · have := Option.some.inj hd
      omega
    · exact absurd hd nofun

/-- What is read to the end is decimal digits, and the number is the one they write. -/
theorem appendDigits_ten_eq_ok {limit n m : Nat} {s : List Char}
    (h : appendDigits 10 limit n s = .ok m) :
    (∀ c ∈ s, c.isDigit = true) ∧ Nat.ofDigitChars 10 s n = m := by
  induction s generalizing n with
  | nil => exact ⟨List.forall_mem_nil _, Except.ok.inj h⟩
  | cons c rest ih =>
    rw [appendDigits] at h
    cases hd : digit? 10 c with
    | none =>
      rw [hd] at h
      cases h
    | some d =>
      have hc := isDigit_of_digit?_ten hd
      obtain rfl := Option.some.inj (hd.symm.trans (digit?_ten_of_isDigit hc))
      simp only [hd] at h
      split at h
      · obtain ⟨hrest, hvalue⟩ := ih h
        rw [Nat.ofDigitChars_cons, Nat.mul_comm]
        exact ⟨List.forall_mem_cons.2 ⟨hc, hrest⟩, hvalue⟩
      · cases h

theorem readDigits_eq_ok_iff {limit n : Nat} {s : List Char} : readDigits 10 limit s = .ok n ↔
    s ≠ [] ∧ (∀ c ∈ s, c.isDigit = true) ∧ numberOf s = n ∧ n ≤ limit := by
  cases s with
  | nil => exact iff_of_false nofun fun h => h.1 rfl
  | cons c rest =>
    show appendDigits 10 limit 0 (c :: rest) = _ ↔ _
    constructor
    · intro h
      obtain ⟨hdigits, hvalue⟩ := appendDigits_ten_eq_ok h
      exact ⟨List.cons_ne_nil _ _, hdigits, hvalue, le_of_appendDigits (Nat.zero_le limit) h⟩
    · rintro ⟨-, hdigits, rfl, hle⟩
      exact appendDigits_ten hdigits hle

/-- A text is read as a number exactly if it writes the number, which lies within the bound. -/
theorem natural?_eq_some_iff {limit n : Nat} {s : String} :
    natural? limit s = some n ↔ WritesNatural s n ∧ n ≤ limit := by
  have hread : ∀ digits, (readDigits 10 limit digits).toOption = some n ↔
      (digits ≠ [] ∧ (∀ c ∈ digits, c.isDigit = true) ∧ numberOf digits = n) ∧ n ≤ limit := by
    intro digits
    rw [and_assoc, and_assoc, ← readDigits_eq_ok_iff]
    cases readDigits 10 limit digits <;> simp [Except.toOption]
  unfold natural? WritesNatural
  split
  · next digits hs =>
    rw [hread, hs]
    constructor
    · rintro ⟨⟨hne, hdigits, hvalue⟩, hle⟩
      exact ⟨⟨digits, hne, hdigits, hvalue, .inr rfl⟩, hle⟩
    · rintro ⟨⟨ds, hne, hdigits, hvalue, rfl | heq⟩, hle⟩
      · exact absurd (hdigits '+' List.mem_cons_self) (by decide)
      · obtain rfl := (List.cons.inj heq).2
        exact ⟨⟨hne, hdigits, hvalue⟩, hle⟩
  · next hplus =>
    rw [hread]
    constructor
    · rintro ⟨⟨hne, hdigits, hvalue⟩, hle⟩
      exact ⟨⟨_, hne, hdigits, hvalue, .inl rfl⟩, hle⟩
    · rintro ⟨⟨ds, hne, hdigits, hvalue, rfl | heq⟩, hle⟩
      · exact ⟨⟨hne, hdigits, hvalue⟩, hle⟩
      · exact absurd heq (hplus ds)

/-! ## Printed numbers -/

theorem isDigit_of_mem_toDigits (n : Nat) : ∀ c ∈ Nat.toDigits 10 n, c.isDigit = true :=
  fun _ hc => Nat.isDigit_of_mem_toDigits (by decide) (by decide) hc

/-- A number that is printed is read back within any bound that holds it. -/
theorem natural?_ofList_toDigits {limit n : Nat} (h : n ≤ limit) :
    natural? limit (String.ofList (Nat.toDigits 10 n)) = some n := by
  have hvalue : numberOf (Nat.toDigits 10 n) = n := Nat.ofDigitChars_ten_toDigits
  refine natural?_eq_some_iff.2 ⟨⟨_, Nat.toDigits_ne_nil, isDigit_of_mem_toDigits n, hvalue, ?_⟩, h⟩
  exact .inl String.toList_ofList

/-! ## Trimming -/

theorem isBlank_eq_false_of_isDigit {c : Char} (h : c.isDigit = true) : isBlank c = false := by
  simp only [Char.isDigit, Bool.and_eq_true, decide_eq_true_eq] at h
  have h0 : 48 ≤ c.toNat := h.1
  have h9 : c.toNat ≤ 57 := h.2
  simp only [isBlank, Bool.or_eq_false_iff, Bool.and_eq_false_iff, decide_eq_false_iff_not,
    beq_eq_false_iff_ne]
  omega

/-- What is blank is nothing once it is trimmed. -/
theorem trim_eq_empty_iff {s : String} : trim s = "" ↔ hasContent s = false := by
  have hempty : trim s = "" ↔ strip isBlank s.toList = [] := by
    rw [← String.toList_inj, trim, String.toList_ofList]
    rfl
  rw [hempty, strip_eq_nil_iff, hasContent, List.any_eq_false]
  simp

theorem trim_ofList_toDigits (n : Nat) :
    trim (String.ofList (Nat.toDigits 10 n)) = String.ofList (Nat.toDigits 10 n) := by
  have hd : ∀ c ∈ Nat.toDigits 10 n, isBlank c = false := fun c hc =>
    isBlank_eq_false_of_isDigit (isDigit_of_mem_toDigits n c hc)
  unfold trim
  rw [String.toList_ofList, strip_eq_self]
  · exact fun c hc => hd c (List.mem_of_mem_head? hc)
  · exact fun c hc => hd c (List.mem_of_mem_getLast? hc)

/-! ## Padded numbers -/

theorem isDigit_of_mem_padded {width n : Nat} {c : Char} (h : c ∈ padded width n) :
    c.isDigit = true := by
  unfold padded at h
  rcases List.mem_append.1 h with h | h
  · rw [List.eq_of_mem_replicate h]
    rfl
  · exact isDigit_of_mem_toDigits n c h

theorem padded_ne_nil (width n : Nat) : padded width n ≠ [] := by
  intro h
  exact Nat.toDigits_ne_nil (List.append_eq_nil_iff.1 h).2

theorem length_padded {width n : Nat} (h : (Nat.toDigits 10 n).length ≤ width) :
    (padded width n).length = width := by
  simp only [padded, List.length_append, List.length_replicate]
  omega

end Filing.Text
