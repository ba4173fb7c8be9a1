import Filing.Proofs.Decimal.Numerals
import Filing.Validation.FieldCheck
import Mathlib.Tactic.NormNum

/-!
# Numbers and their bounds

The value of a number field is compared with the bounds of the field as the decimal that it is read
as. That decimal is the number that was submitted, rounded to the places that fit. So a number just
outside a bound passes when it is rounded to the bound, and a number that is too large to be read is
none.
-/

namespace Filing

open Decimal (Fits IsSize ofText? rounded roundedSize)

/-- What is said about a value that was submitted at a place. -/
def Field.complaint (f : Field) (place message : String) : Issue where
  severity := .error
  category := .field
  field := some f.id
  path := place
  message

theorem checkValue_eq_map (formats : List String) (f : Field) (value place : String) :
    checkValue formats f value place = (valueComplaints formats f value).map (f.complaint place) :=
  rfl

theorem Decimal.rounded_eq_self {n : Numeral} (h : IsSize n.size) : rounded n.toRat = n.toRat := by
  have hsize : roundedSize n.size = n.size := by
    have hnonneg := n.size_nonneg
    exact le_antisymm (roundedSize_le hnonneg h le_rfl) (le_roundedSize hnonneg h le_rfl)
  rw [rounded_toRat, hsize]
  rfl

theorem Numeral.text_ne_empty (n : Numeral) : n.text ≠ "" := by
  intro hempty
  have htext : n.sign ++ n.body = [] := by
    rw [← String.toList_ofList (l := n.sign ++ n.body)]
    exact congrArg String.toList hempty
  have hbody : n.body = [] := (List.append_eq_nil_iff.1 htext).2
  have hdigits := n.digits_ne_nil
  unfold Numeral.body at hbody
  cases hpoint : n.fraction with
  | none =>
    rw [hpoint] at hbody hdigits
    exact hdigits hbody
  | some ds =>
    rw [hpoint] at hbody
    exact absurd (List.append_eq_nil_iff.1 hbody).2 (List.cons_ne_nil _ _)

theorem Numeral.hasContent_of_trim {n : Numeral} {value : String} (h : Text.trim value = n.text) :
    Text.hasContent value = true := by
  by_contra hblank
  have hempty := Text.trim_eq_empty_iff.2 (Bool.not_eq_true _ ▸ hblank)
  exact n.text_ne_empty (h ▸ hempty)

section

variable {f : Field} {n : Numeral} {value : String} (formats : List String) (place : String)

/-- Where a number field does not limit the length, it is the number alone that is looked at. -/
theorem checkValue_of_trim (hcontrol : f.control = .number) (hlength : f.maxLength = none)
    (hvalue : Text.trim value = n.text) :
    checkValue formats f value place = match ofText? n.text with
      | none => [f.complaint place s!"'{n.text}' is not a number"]
      | some d =>
        ((f.min.toList.filter (d < ·)).map fun min =>
          f.complaint place s!"{d} is below the minimum {min}") ++
        ((f.max.toList.filter (· < d)).map fun max =>
          f.complaint place s!"{d} is above the maximum {max}") := by
  rw [checkValue_eq_map, valueComplaints, if_pos (Numeral.hasContent_of_trim hvalue), hvalue]
  unfold formComplaints lengthComplaints
  rw [hcontrol, hlength]
  dsimp only
  cases ofText? n.text with
  | none => rfl
  | some d =>
    dsimp only
    rw [List.append_nil, List.map_append]
    congr 1
    · cases f.min with
      | none => rfl
      | some min => by_cases h : d < min <;> simp [h]
    · cases f.max with
      | none => rfl
      | some max => by_cases h : max < d <;> simp [h]

/-- A number that is submitted to a number field without a limit of length is complained about as no
number exactly if its size, rounded to a whole number, has no room in a mantissa. Otherwise it is
said to be below the minimum exactly if it is, unless it is rounded to the minimum, and above the
maximum exactly if it is, unless it is rounded to the maximum; and nothing else is said. A number
that a decimal can hold is not rounded. -/
theorem checkValue_numeral (hcontrol : f.control = .number) (hlength : f.maxLength = none)
    (hvalue : Text.trim value = n.text) :
    (¬Fits n.size 0 →
      checkValue formats f value place = [f.complaint place s!"'{n.text}' is not a number"]) ∧
    (Fits n.size 0 → ∃ d : Decimal, d.toRat = rounded n.toRat ∧
      checkValue formats f value place =
        ((f.min.toList.filter fun min => n.toRat < min.toRat ∧ rounded n.toRat ≠ min.toRat).map
          fun min => f.complaint place s!"{d} is below the minimum {min}") ++
        ((f.max.toList.filter fun max => max.toRat < n.toRat ∧ rounded n.toRat ≠ max.toRat).map
          fun max => f.complaint place s!"{d} is above the maximum {max}")) ∧
    (IsSize n.size → rounded n.toRat = n.toRat) := by
  have hcheck := checkValue_of_trim formats place hcontrol hlength hvalue
  have hread := Decimal.ofText?_text n
  refine ⟨?_, ?_, Decimal.rounded_eq_self⟩
  · intro hlarge
    cases hd : ofText? n.text with
    | none =>
      rw [hd] at hcheck
      exact hcheck
    | some d =>
      rw [hd] at hread
      exact absurd hread.1 hlarge
  · intro hfits
    cases hd : ofText? n.text with
    | none =>
      rw [hd] at hread
      exact absurd hfits hread
    | some d =>
      rw [hd] at hread hcheck
      obtain ⟨-, hrat⟩ := hread
      refine ⟨d, hrat, hcheck.trans ?_⟩
      have hmin : ∀ min : Decimal, d < min ↔
          n.toRat < min.toRat ∧ rounded n.toRat ≠ min.toRat := by
        intro min
        rw [Decimal.lt_iff_toRat_lt, hrat, Decimal.rounded_lt_toRat_iff]
      have hmax : ∀ max : Decimal, max < d ↔
          max.toRat < n.toRat ∧ rounded n.toRat ≠ max.toRat := by
        intro max
        rw [Decimal.lt_iff_toRat_lt, hrat, Decimal.toRat_lt_rounded_iff]
      simp only [hmin, hmax]

end

/-- A number of at most 100. -/
def percentField : Field := { Field.new "n" "N" .number with max := ofText? "100" }

/-- A hundred and a bit, with 27 places. -/
def overHundred : Numeral where
  sign := []
  whole := ['1', '0', '0']
  fraction := some (List.replicate 26 '0' ++ ['1'])
  sign_mem := by decide
  isDigit_whole := List.all_eq_true.mp (by decide)
  isDigit_fraction := List.all_eq_true.mp (by decide)
  digits_ne_nil := by decide

/-- The first whole number without room in a mantissa. -/
def firstTooLarge : Numeral where
  sign := []
  whole := "79228162514264337593543950336".toList
  fraction := none
  sign_mem := by decide
  isDigit_whole := List.all_eq_true.mp (by decide)
  isDigit_fraction := List.all_eq_true.mp (by decide)
  digits_ne_nil := by decide

theorem size_overHundred : overHundred.size = 100 + 1 / 10 ^ 27 := by
  have hdigits : Text.numberOf (overHundred.whole ++ overHundred.fraction.getD []) =
      100 * 10 ^ 27 + 1 := by decide
  have hplaces : (overHundred.fraction.getD []).length = 27 := by decide
  rw [Numeral.size, hdigits, hplaces]
  norm_num

/-- A number above the maximum passes, and a number is said to be none. -/
theorem checkValue_overHundred :
    percentField.control = .number ∧ percentField.maxLength = none ∧
      Text.trim overHundred.text = overHundred.text ∧
      (∃ max : Decimal, percentField.max = some max ∧ max.toRat < overHundred.toRat) ∧
      checkValue [] percentField overHundred.text "N" = [] ∧
      Text.trim firstTooLarge.text = firstTooLarge.text ∧
      checkValue [] percentField firstTooLarge.text "N" =
        [percentField.complaint "N" "'79228162514264337593543950336' is not a number"] := by
  have hmax : percentField.max = some ⟨false, 100, 0, by decide, by decide⟩ := by decide
  refine ⟨rfl, rfl, by decide, ⟨_, hmax, ?_⟩, by decide, by decide, by decide⟩
  have hplus : overHundred.sign ≠ ['-'] := by decide
  rw [Numeral.toRat, if_neg hplus, size_overHundred]
  norm_num [Decimal.toRat]

theorem checkValue_numeral_overHundred :
    percentField.control = .number ∧ percentField.maxLength = none ∧
      Text.trim overHundred.text = overHundred.text ∧ Fits overHundred.size 0 ∧
      ∃ d : Decimal, d.toRat = rounded overHundred.toRat ∧
        checkValue [] percentField overHundred.text "N" =
          (percentField.min.toList.filter fun min =>
            overHundred.toRat < min.toRat ∧ rounded overHundred.toRat ≠ min.toRat).map
            (fun min => percentField.complaint "N" s!"{d} is below the minimum {min}") ++
          (percentField.max.toList.filter fun max =>
            max.toRat < overHundred.toRat ∧ rounded overHundred.toRat ≠ max.toRat).map
            fun max => percentField.complaint "N" s!"{d} is above the maximum {max}" := by
  have htrim : Text.trim overHundred.text = overHundred.text := by decide
  have hfits : Fits overHundred.size 0 := by
    rw [Decimal.fits_iff overHundred.size_nonneg, size_overHundred, Decimal.mantissaLimit_eq]
    norm_num
  exact ⟨rfl, rfl, htrim, hfits, (checkValue_numeral [] "N" rfl rfl htrim).2.1 hfits⟩

end Filing
