import Filing.Proofs.Validation.Ranges
import Filing.Proofs.Validation.Wordings
import Mathlib.Computability.Language

/-!
# Taxpayer codes

The texts that pass as taxpayer codes are a language: ten digits, with or without a hyphen and three
digits after them. It is the language over the digits of all scripts. The codes that are written with
the digits 0 to 9 are a part of it, that of the plain text.
-/

namespace Filing

open Text (hasContent isDecimalDigit trim)

/-- The words of one letter. -/
def letters (p : Char → Bool) : Language Char := {w | ∃ c, p c = true ∧ w = [c]}

/-- Ten digits, then nothing or a hyphen and three digits. -/
def taxCodes (digit : Char → Bool) : Language Char :=
  letters digit ^ 10 * (1 + letters (· == '-') * letters digit ^ 3)

theorem mem_letters_pow {p : Char → Bool} {n : Nat} {w : List Char} :
    w ∈ letters p ^ n ↔ w.length = n ∧ ∀ c ∈ w, p c = true := by
  induction n generalizing w with
  | zero =>
    rw [pow_zero, Language.mem_one, List.length_eq_zero_iff]
    constructor
    · rintro rfl
      exact ⟨rfl, fun c hc => absurd hc List.not_mem_nil⟩
    · exact And.left
  | succ n ih =>
    rw [pow_succ', Language.mem_mul]
    constructor
    · rintro ⟨_, ⟨c, hc, rfl⟩, rest, hrest, rfl⟩
      obtain ⟨hlength, hall⟩ := ih.1 hrest
      exact ⟨congrArg Nat.succ hlength, List.forall_mem_cons.2 ⟨hc, hall⟩⟩
    · rintro ⟨hlength, hall⟩
      cases w with
      | nil => exact absurd hlength (Nat.succ_ne_zero n).symm
      | cons c rest =>
        obtain ⟨hc, hrest⟩ := List.forall_mem_cons.1 hall
        exact ⟨[c], ⟨c, hc, rfl⟩, rest, ih.2 ⟨Nat.succ.inj hlength, hrest⟩, rfl⟩

theorem mem_taxCodes {digit : Char → Bool} {w : List Char} :
    w ∈ taxCodes digit ↔ ∃ main branch, w = main ++ branch ∧
      (main.length = 10 ∧ ∀ c ∈ main, digit c = true) ∧
      (branch = [] ∨ ∃ tail, branch = '-' :: tail ∧ tail.length = 3 ∧
        ∀ c ∈ tail, digit c = true) := by
  have hbranch : ∀ branch : List Char,
      branch ∈ 1 + letters (· == '-') * letters digit ^ 3 ↔
        (branch = [] ∨ ∃ tail, branch = '-' :: tail ∧ tail.length = 3 ∧
          ∀ c ∈ tail, digit c = true) := by
    intro branch
    rw [Language.mem_add, Language.mem_one, Language.mem_mul]
    refine or_congr Iff.rfl ?_
    constructor
    · rintro ⟨_, ⟨c, hc, rfl⟩, tail, htail, rfl⟩
      exact ⟨tail, congrArg (· :: tail) (beq_iff_eq.1 hc), mem_letters_pow.1 htail⟩
    · rintro ⟨tail, rfl, htail⟩
      exact ⟨['-'], ⟨'-', rfl, rfl⟩, tail, mem_letters_pow.2 htail, rfl⟩
  rw [taxCodes, Language.mem_mul]
  constructor
  · rintro ⟨main, hmain, branch, hin, rfl⟩
    exact ⟨main, branch, rfl, mem_letters_pow.1 hmain, (hbranch branch).1 hin⟩
  · rintro ⟨main, branch, rfl, hmain, hin⟩
    exact ⟨main, mem_letters_pow.2 hmain, branch, (hbranch branch).2 hin, rfl⟩

theorem isTaxCode_iff (s : String) : isTaxCode s = true ↔ s.toList ∈ taxCodes isDecimalDigit := by
  rw [mem_taxCodes]
  unfold isTaxCode
  rw [Bool.and_eq_true, Bool.and_eq_true, beq_iff_eq, List.all_eq_true]
  constructor
  · rintro ⟨hmain, hbranch⟩
    refine ⟨_, _, (List.take_append_drop 10 s.toList).symm, hmain, ?_⟩
    split at hbranch
    case h_1 hnil => exact .inl hnil
    case h_2 h a b c hcons =>
      rw [Bool.and_eq_true, beq_iff_eq, List.all_eq_true] at hbranch
      obtain ⟨rfl, hdigits⟩ := hbranch
      exact .inr ⟨[a, b, c], hcons, rfl, hdigits⟩
    case h_3 => exact absurd hbranch Bool.false_ne_true
  · rintro ⟨main, branch, hs, ⟨hlength, hall⟩, hbranch⟩
    rw [hs, List.take_left' hlength, List.drop_left' hlength]
    refine ⟨⟨hlength, hall⟩, ?_⟩
    obtain rfl | ⟨tail, rfl, htail, hdigits⟩ := hbranch
    · rfl
    · obtain ⟨a, b, c, rfl⟩ := List.length_eq_three.1 htail
      rw [Bool.and_eq_true, beq_iff_eq, List.all_eq_true]
      exact ⟨rfl, hdigits⟩

theorem isDigit_iff (c : Char) : c.isDigit = true ↔ isDecimalDigit c = true ∧ c.toNat < 0x80 := by
  have hascii : c.isDigit = true → c.toNat < 0x80 := by
    intro hdigit
    have hnine : c.toNat ≤ '9'.toNat := by
      simp only [Char.isDigit, Bool.and_eq_true, decide_eq_true_eq] at hdigit
      exact hdigit.2
    exact Nat.lt_of_le_of_lt hnine (by decide)
  unfold isDecimalDigit
  by_cases hplain : c.toNat < 0x80
  · rw [if_pos hplain]
    exact ⟨fun hdigit => ⟨hdigit, hplain⟩, And.left⟩
  · exact ⟨fun hdigit => absurd (hascii hdigit) hplain, fun h => absurd h.2 hplain⟩

/-- Of the codes in the digits of all scripts, those in the digits 0 to 9 are the plain texts. -/
theorem mem_taxCodes_isDigit {w : List Char} :
    w ∈ taxCodes Char.isDigit ↔ w ∈ taxCodes isDecimalDigit ∧ ∀ c ∈ w, c.toNat < 0x80 := by
  have hall : ∀ cs : List Char, (∀ c ∈ cs, c.isDigit = true) ↔
      (∀ c ∈ cs, isDecimalDigit c = true) ∧ ∀ c ∈ cs, c.toNat < 0x80 := by
    intro cs
    rw [← forall₂_and]
    exact forall₂_congr fun c _ => isDigit_iff c
  rw [mem_taxCodes, mem_taxCodes]
  constructor
  · rintro ⟨main, branch, rfl, ⟨hlength, hmain⟩, hbranch⟩
    obtain ⟨hmain, hplain⟩ := (hall main).1 hmain
    obtain rfl | ⟨tail, rfl, hthree, htail⟩ := hbranch
    · exact ⟨⟨main, [], rfl, ⟨hlength, hmain⟩, .inl rfl⟩, by rwa [List.append_nil]⟩
    · obtain ⟨htail, hplain'⟩ := (hall tail).1 htail
      refine ⟨⟨main, _, rfl, ⟨hlength, hmain⟩, .inr ⟨tail, rfl, hthree, htail⟩⟩, ?_⟩
      exact List.forall_mem_append.2 ⟨hplain, List.forall_mem_cons.2 ⟨by decide, hplain'⟩⟩
  · rintro ⟨⟨main, branch, rfl, ⟨hlength, hmain⟩, hbranch⟩, hplain⟩
    obtain ⟨hplain, hplain'⟩ := List.forall_mem_append.1 hplain
    refine ⟨main, branch, rfl, ⟨hlength, (hall main).2 ⟨hmain, hplain⟩⟩, ?_⟩
    obtain rfl | ⟨tail, rfl, hthree, htail⟩ := hbranch
    · exact .inl rfl
    · have hrest := (List.forall_mem_cons.1 hplain').2
      exact .inr ⟨tail, rfl, hthree, (hall tail).2 ⟨htail, hrest⟩⟩

/-- What is said about a text that is no taxpayer code. -/
def invalidTaxCode (value : String) : String :=
  s!"'{value}' is not a valid tax code (10 digits, optional -NNN branch suffix)"

theorem invalidTaxCode_notMem {words : List String} (hapart : AreApart ["'"] words)
    {messages : List String} (h : ∀ m ∈ messages, beginsWith words m = true) (value : String) :
    invalidTaxCode value ∉ messages := by
  intro hmem
  have hquoted : beginsWith words (invalidTaxCode value) = false := by
    unfold invalidTaxCode
    dsimp only [toString]
    simp only [String.append_assoc]
    exact beginsWith_append_of_areApart hapart _
  exact Bool.eq_false_iff.1 hquoted (h _ hmem)

/-- The field of a taxpayer code says that a value is none if it is one no more than a blank. -/
theorem invalidTaxCode_mem_checkValue_iff {f : Field} (hcontrol : f.control = .taxCode)
    (formats : List String) (value place : String) :
    f.complaint place (invalidTaxCode (trim value)) ∈ checkValue formats f value place ↔
      trim value ≠ "" ∧ isTaxCode (trim value) = false := by
  have hinjective : Function.Injective (f.complaint place) :=
    fun m m' h => congrArg Issue.message h
  have hlength : invalidTaxCode (trim value) ∉ lengthComplaints f value :=
    invalidTaxCode_notMem (by decide) beginsWith_lengthComplaints _
  rw [checkValue_eq_map, List.mem_map_of_injective hinjective, valueComplaints, Ne,
    Text.trim_eq_empty_iff, Bool.not_eq_false]
  by_cases hfilled : hasContent value = true
  · rw [if_pos hfilled, List.mem_append, or_iff_left hlength, and_iff_right hfilled]
    unfold formComplaints
    rw [hcontrol]
    dsimp only
    cases isTaxCode (trim value) with
    | true => exact iff_of_false List.not_mem_nil Bool.noConfusion
    | false => exact iff_of_true List.mem_cons_self rfl
  · have hempty : ∀ m ∈ if f.required then [s!"required field '{f.id}' is empty"] else [],
        beginsWith ["required field '"] m = true := by
      dsimp only [toString]
      simp only [String.append_assoc]
      exact forall_mem_ite_singleton (beginsWith_append (by decide) _)
    rw [if_neg hfilled]
    exact iff_of_false (invalidTaxCode_notMem (by decide) hempty _) (mt And.left hfilled)

/-- A text is recognised as a taxpayer code exactly if it is one in the digits of all scripts; the
codes in the digits 0 to 9 are those without a letter beyond plain text. The field of a taxpayer
code says that a value is none exactly if the value, without the blanks around it, is no such code,
and is not blank. -/
theorem isTaxCode_iff_mem_taxCodes (s : String) :
    (isTaxCode s = true ↔ s.toList ∈ taxCodes isDecimalDigit) ∧
    (s.toList ∈ taxCodes Char.isDigit ↔ isTaxCode s = true ∧ ∀ c ∈ s.toList, c.toNat < 0x80) ∧
    ∀ (formats : List String) (f : Field) (value place : String), f.control = .taxCode →
      (f.complaint place (invalidTaxCode (trim value)) ∈ checkValue formats f value place ↔
        trim value ≠ "" ∧ (trim value).toList ∉ taxCodes isDecimalDigit) := by
  refine ⟨isTaxCode_iff s, ?_, ?_⟩
  · rw [mem_taxCodes_isDigit, isTaxCode_iff]
  · intro formats f value place hcontrol
    rw [invalidTaxCode_mem_checkValue_iff hcontrol, ← isTaxCode_iff, Bool.not_eq_true]

/-- A taxpayer code. -/
def taxCodeField : Field := Field.new "n" "N" .taxCode

theorem isTaxCode_iff_mem_taxCodes_shortBranch :
    taxCodeField.control = .taxCode ∧ taxCodeField.complaint "N" (invalidTaxCode "0123456789-01") ∈
      checkValue [] taxCodeField " 0123456789-01 " "N" := by
  have htrim : trim " 0123456789-01 " = "0123456789-01" := by decide
  have hchecked := isTaxCode_iff_mem_taxCodes "0123456789-01"
  refine ⟨rfl, ?_⟩
  rw [← htrim]
  refine (hchecked.2.2 [] taxCodeField " 0123456789-01 " "N" rfl).2 ⟨by decide, ?_⟩
  rw [htrim]
  exact mt hchecked.1.2 (by decide)

/-- Digits of another script pass as a taxpayer code, while as a number they are none. -/
theorem isTaxCode_arabicDigits :
    isTaxCode "٠١٢٣٤٥٦٧٨٩" = true ∧ "٠١٢٣٤٥٦٧٨٩".toList ∉ taxCodes Char.isDigit ∧
      taxCodeField.control = .taxCode ∧ checkValue [] taxCodeField "٠١٢٣٤٥٦٧٨٩" "N" = [] ∧
      Decimal.ofText? "٠١٢٣٤٥٦٧٨٩" = none := by
  refine ⟨by decide, fun hmem => ?_, rfl, by decide, by decide⟩
  have hplain := (mem_taxCodes_isDigit.1 hmem).2
  exact absurd (hplain '٠' (by decide)) (by decide)

end Filing
