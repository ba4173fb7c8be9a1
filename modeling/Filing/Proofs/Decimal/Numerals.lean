import Filing.Proofs.Decimal.Rounding
import Filing.Proofs.Text.Numbers

/-!
# Reading numerals

A numeral is written with an optional sign, any number of digits, and possibly a point among them.
Reading it gives the number that it writes, rounded to the places that fit, and fails only if that
number is too large for a decimal.
-/

namespace Filing

open Filing.Text (digit? numberOf takeSign)

/-- A number as it is written: an optional sign, digits, and possibly a point and further digits. -/
structure Numeral where
  /-- A minus, a plus, or nothing. -/
  sign : List Char
  /-- The digits in front of the point. -/
  whole : List Char
  /-- The digits behind the point, if there is one. -/
  fraction : Option (List Char)
  sign_mem : sign ∈ [[], ['+'], ['-']]
  isDigit_whole : ∀ c ∈ whole, c.isDigit = true
  isDigit_fraction : ∀ c ∈ fraction.getD [], c.isDigit = true
  digits_ne_nil : whole ++ fraction.getD [] ≠ []

namespace Numeral

/-- The digits of a numeral, and its point. -/
def body (n : Numeral) : List Char := n.whole ++ n.fraction.elim [] ('.' :: ·)

/-- The text of a numeral. -/
def text (n : Numeral) : String := String.ofList (n.sign ++ n.body)

/-- The number that a numeral writes, apart from its sign. -/
def size (n : Numeral) : ℚ :=
  numberOf (n.whole ++ n.fraction.getD []) / 10 ^ (n.fraction.getD []).length

/-- The number that a numeral writes, exactly. -/
def toRat (n : Numeral) : ℚ := if n.sign = ['-'] then -n.size else n.size

theorem size_nonneg (n : Numeral) : 0 ≤ n.size := by
  unfold size
  positivity

theorem isDigit_or_eq_point {n : Numeral} {c : Char} (hc : c ∈ n.body) :
    c.isDigit = true ∨ c = '.' := by
  have hfraction := n.isDigit_fraction
  unfold body at hc
  rcases List.mem_append.1 hc with hmem | hmem
  · exact Or.inl (n.isDigit_whole c hmem)
  · cases hpoint : n.fraction with
    | none =>
      rw [hpoint] at hmem
      exact absurd hmem List.not_mem_nil
    | some ds =>
      rw [hpoint] at hmem hfraction
      rcases List.mem_cons.1 hmem with hdot | hmem
      · exact Or.inr hdot
      · exact Or.inl (hfraction c hmem)

end Numeral

namespace Decimal

/-! ## Rounding digit by digit -/

/-- The mantissa and the scale are those of the size, rounded; or there are none and it is too
large. -/
def IsReading (x : ℚ) : Option (ℕ × ℕ) → Prop
  | none => ¬Fits x 0
  | some (m, k) => m < mantissaLimit ∧ k ≤ maxScale ∧ Fits x 0 ∧ (m : ℚ) / 10 ^ k = roundedSize x

section Digits

variable {x : ℚ} {m k d : ℕ} {c : Char} {ds rest : List Char}

/-- Digits that are all kept. -/
theorem isReading_of_whole (hm : m < mantissaLimit) (hk : k ≤ maxScale) (hx : x * 10 ^ k = m) :
    IsReading x (some (m, k)) := by
  have hpow : (0 : ℚ) < 10 ^ k := by positivity
  have hxm : x = m / 10 ^ k := (eq_div_iff hpow.ne').2 hx
  have hnonneg : 0 ≤ x := by
    rw [hxm]
    positivity
  have hfits : Fits x k := by
    have hm : (m : ℚ) + 1 ≤ mantissaLimit := by exact_mod_cast hm
    rw [fits_iff hnonneg, hx]
    linarith
  refine ⟨hm, hk, hfits.of_le hnonneg (Nat.zero_le k), ?_⟩
  rw [roundedSize_of_whole (le_places hk hfits) hx, ← hxm]

/-- Digits of which the last ones are not kept: the first of these decides how to round. -/
theorem isReading_roundAt (hm : m < mantissaLimit) (hk : k ≤ maxScale)
    (hlow : (m * 10 + d : ℕ) ≤ x * 10 ^ (k + 1)) (hhigh : x * 10 ^ (k + 1) < (m * 10 + d : ℕ) + 1)
    (hd : d < 10) (hnext : k < maxScale → ¬Fits x (k + 1)) : IsReading x (roundAt d m k) := by
  have hpow : (0 : ℚ) < 10 ^ (k + 1) := by positivity
  have hx : 0 ≤ x := by
    have hcast : (0 : ℚ) ≤ (m * 10 + d : ℕ) := Nat.cast_nonneg _
    exact nonneg_of_mul_nonneg_left (hcast.trans hlow) hpow
  rw [pow_succ, ← mul_assoc] at hlow hhigh
  push_cast at hlow hhigh
  unfold roundAt
  by_cases hdown : d < 5
  · have hd : (d : ℚ) + 1 ≤ 5 := by exact_mod_cast hdown
    have hnearest : nearest k x = m := (nearest_eq_iff hx).2 ⟨by linarith, by linarith⟩
    have hfits : Fits x k := fits_of_nearest_eq hnearest hm
    rw [if_pos hdown]
    refine ⟨hm, hk, hfits.of_le hx (Nat.zero_le k), ?_⟩
    rw [roundedSize, places_eq hx hk hfits hnext, hnearest]
  · have hd5 : (5 : ℚ) ≤ d := by exact_mod_cast Nat.le_of_not_lt hdown
    have hd9 : (d : ℚ) + 1 ≤ 10 := by exact_mod_cast hd
    have hnearest : nearest k x = m + 1 := by
      refine (nearest_eq_iff hx).2 ?_
      push_cast
      constructor <;> linarith
    rw [if_neg hdown]
    by_cases hroom : m + 1 < mantissaLimit
    · have hfits : Fits x k := fits_of_nearest_eq hnearest hroom
      rw [if_pos hroom]
      refine ⟨hroom, hk, hfits.of_le hx (Nat.zero_le k), ?_⟩
      rw [roundedSize, places_eq hx hk hfits hnext, hnearest]
    · have hfull : ¬Fits x k := fun h => hroom (hnearest ▸ h)
      rw [if_neg hroom]
      cases k with
      | zero => exact hfull
      | succ k =>
        -- The mantissa is the largest one, so it is known what it becomes without its last digit.
        have hmax : m = 79228162514264337593543950335 := by
          have hlimit : mantissaLimit = 79228162514264337593543950336 := rfl
          omega
        have hnearest : nearest k x = (m + 5) / 10 := by
          rw [pow_succ, ← mul_assoc] at hlow hhigh
          subst hmax
          push_cast at hlow hhigh
          refine (nearest_eq_iff hx).2 ?_
          norm_num
          constructor <;> linarith
        have hlt : (m + 5) / 10 < mantissaLimit := by omega
        have hfits : Fits x k := fits_of_nearest_eq hnearest hlt
        rw [if_neg (Nat.succ_ne_zero k), Nat.add_sub_cancel]
        refine ⟨hlt, by omega, hfits.of_le hx (Nat.zero_le k), ?_⟩
        rw [roundedSize, places_eq hx (by omega) hfits fun _ => hfull, hnearest]

theorem digitsFrom_cons (hc : c.isDigit = true) {point seen : Bool} :
    digitsFrom m k point seen (c :: rest) =
      let d := c.toNat - '0'.toNat
      let next := m * 10 + d
      if mantissaLimit ≤ next then
        if point && rest.all isDigitOrGap then roundAt d m k else none
      else if !point then digitsFrom next k point true rest
      else if k + 1 < maxScale then digitsFrom next (k + 1) point true rest
      else roundBy next (k + 1) (if m < wordRoom then rest else rest.dropWhile (· == '_')) := by
  rw [digitsFrom, Text.digit?_ten_of_isDigit hc]

theorem digit_lt_ten (hc : c.isDigit = true) : c.toNat - '0'.toNat < 10 := by
  simp only [Char.isDigit, Bool.and_eq_true, decide_eq_true_eq] at hc
  have h9 : c.toNat ≤ 57 := hc.2
  have h0 : '0'.toNat = 48 := rfl
  omega

theorem isDigitOrGap_of_isDigit (hds : ∀ c ∈ ds, c.isDigit = true) :
    ds.all isDigitOrGap = true := by
  refine List.all_eq_true.2 fun c hc => ?_
  rw [isDigitOrGap, hds c hc, Bool.true_or]

/-- Digits behind a number leave it as it is, but for the places that they add. -/
theorem ofDigitChars_bounds (hds : ∀ c ∈ ds, c.isDigit = true) :
    m * 10 ^ ds.length ≤ Nat.ofDigitChars 10 ds m ∧
      Nat.ofDigitChars 10 ds m < (m + 1) * 10 ^ ds.length := by
  induction ds generalizing m with
  | nil => simp
  | cons c ds ih =>
    have hc := digit_lt_ten (hds c List.mem_cons_self)
    obtain ⟨hlow, hhigh⟩ := ih (m := 10 * m + (c.toNat - '0'.toNat))
      fun d hd => hds d (List.mem_cons_of_mem _ hd)
    rw [Nat.ofDigitChars_cons, List.length_cons, pow_succ', ← mul_assoc, ← mul_assoc]
    constructor
    · exact (Nat.mul_le_mul_right _ (by omega)).trans hlow
    · exact hhigh.trans_le (Nat.mul_le_mul_right _ (by omega))

/-- The digits in front of the point are read unless their number is too large. -/
theorem digitsFrom_whole (hm : m < mantissaLimit) (hds : ∀ c ∈ ds, c.isDigit = true)
    {seen : Bool} : digitsFrom m k false seen (ds ++ rest) =
      if Nat.ofDigitChars 10 ds m < mantissaLimit then
        digitsFrom (Nat.ofDigitChars 10 ds m) k false (seen || !ds.isEmpty) rest
      else none := by
  induction ds generalizing m seen with
  | nil =>
    rw [Nat.ofDigitChars_nil, if_pos hm]
    simp
  | cons c ds ih =>
    have hc := hds c List.mem_cons_self
    have hmore := fun d hd => hds d (List.mem_cons_of_mem _ hd)
    rw [List.cons_append, digitsFrom_cons hc, Nat.ofDigitChars_cons, Nat.mul_comm 10 m]
    dsimp only
    by_cases hnext : mantissaLimit ≤ m * 10 + (c.toNat - '0'.toNat)
    · have hle := Text.le_ofDigitChars (m * 10 + (c.toNat - '0'.toNat)) ds
      rw [if_pos hnext, if_neg (Nat.not_lt_of_le (hnext.trans hle))]
      rfl
    · rw [if_neg hnext, ih (Nat.lt_of_not_le hnext) hmore]
      simp

/-- The digits in front of the `j`-th place, and that of a size whose digits are given. -/
theorem scaled_bounds {j : ℕ} (hds : ∀ c ∈ ds, c.isDigit = true)
    (hx : x * 10 ^ (j + ds.length) = (Nat.ofDigitChars 10 ds m : ℕ)) :
    (m : ℚ) ≤ x * 10 ^ j ∧ x * 10 ^ j < m + 1 := by
  have hpow : (0 : ℚ) < 10 ^ ds.length := by positivity
  obtain ⟨hlow, hhigh⟩ := ofDigitChars_bounds (m := m) hds
  rw [pow_add, ← mul_assoc] at hx
  constructor
  · refine le_of_mul_le_mul_right ?_ hpow
    rw [hx]
    exact_mod_cast hlow
  · refine lt_of_mul_lt_mul_right ?_ hpow.le
    rw [hx]
    exact_mod_cast hhigh

theorem scaled_cons (hx : x * 10 ^ (k + (c :: ds).length) = (Nat.ofDigitChars 10 (c :: ds) m : ℕ)) :
    x * 10 ^ (k + 1 + ds.length) =
      (Nat.ofDigitChars 10 ds (m * 10 + (c.toNat - '0'.toNat)) : ℕ) := by
  rwa [Nat.ofDigitChars_cons, Nat.mul_comm 10 m, List.length_cons, Nat.add_comm ds.length,
    ← Nat.add_assoc] at hx

theorem ne_underscore_of_isDigit (hc : c.isDigit = true) : c ≠ '_' := by
  rintro rfl
  exact absurd hc (by decide)

/-- What is left once all places are in use only rounds. -/
theorem isReading_roundBy (hm : m < mantissaLimit) (hds : ∀ c ∈ ds, c.isDigit = true)
    (hx : x * 10 ^ (maxScale + ds.length) = (Nat.ofDigitChars 10 ds m : ℕ)) :
    IsReading x (roundBy m maxScale ds) := by
  cases ds with
  | nil => exact isReading_of_whole hm le_rfl hx
  | cons c rest =>
    have hc := hds c List.mem_cons_self
    have hrest := fun d hd => hds d (List.mem_cons_of_mem _ hd)
    obtain ⟨hlow, hhigh⟩ := scaled_bounds hrest (scaled_cons hx)
    rw [roundBy, if_pos (isDigitOrGap_of_isDigit hrest), if_neg (ne_underscore_of_isDigit hc),
      Text.digit?_ten_of_isDigit hc, Option.bind_some]
    exact isReading_roundAt hm le_rfl hlow hhigh (digit_lt_ten hc) fun h =>
      absurd h (Nat.lt_irrefl _)

/-- The digits behind the point are read up to the last place that fits. -/
theorem isReading_digitsFrom (hm : m < mantissaLimit) (hk : k < maxScale) {seen : Bool}
    (hseen : seen = true ∨ ds ≠ []) (hds : ∀ c ∈ ds, c.isDigit = true)
    (hx : x * 10 ^ (k + ds.length) = (Nat.ofDigitChars 10 ds m : ℕ)) :
    IsReading x (digitsFrom m k true seen ds) := by
  induction ds generalizing m k seen with
  | nil =>
    rw [digitsFrom, if_pos (hseen.resolve_right (· rfl))]
    exact isReading_of_whole hm hk.le hx
  | cons c rest ih =>
    have hc := hds c List.mem_cons_self
    have hrest := fun d hd => hds d (List.mem_cons_of_mem _ hd)
    obtain ⟨hlow, hhigh⟩ := scaled_bounds hrest (scaled_cons hx)
    rw [digitsFrom_cons hc]
    dsimp only
    by_cases hnext : mantissaLimit ≤ m * 10 + (c.toNat - '0'.toNat)
    · rw [if_pos hnext, isDigitOrGap_of_isDigit hrest]
      exact isReading_roundAt hm hk.le hlow hhigh (digit_lt_ten hc) fun _ =>
        not_fits_of_le hnext hlow
    · have hroom := Nat.lt_of_not_le hnext
      rw [if_neg hnext]
      by_cases hlast : k + 1 < maxScale
      · rw [if_pos hlast]
        exact ih hroom hlast (Or.inl rfl) hrest (scaled_cons hx)
      · have hscale : k + 1 = maxScale := by omega
        have hkept : rest.dropWhile (· == '_') = rest := by
          cases rest with
          | nil => rfl
          | cons c rest =>
            have hgap := ne_underscore_of_isDigit (hrest c List.mem_cons_self)
            exact List.dropWhile_cons_of_neg (by simpa using hgap)
        have hx := scaled_cons hx
        rw [hscale] at hx
        rw [if_neg hlast, hkept, ite_self, hscale]
        exact isReading_roundBy hroom hrest hx

end Digits

/-! ## Whole numerals -/

theorem size_mul_eq (n : Numeral) : n.size * 10 ^ (n.fraction.getD []).length =
    (Nat.ofDigitChars 10 (n.fraction.getD []) (numberOf n.whole) : ℕ) := by
  have hpow : (10 : ℚ) ^ (n.fraction.getD []).length ≠ 0 := by positivity
  rw [Numeral.size, div_mul_cancel₀ _ hpow, numberOf, Nat.ofDigitChars_append]
  rfl

theorem isReading_body (n : Numeral) : IsReading n.size (digitsFrom 0 0 false false n.body) := by
  have hx := size_mul_eq n
  have hbounds := scaled_bounds (j := 0) n.isDigit_fraction (by rwa [Nat.zero_add])
  have hzero : 0 < mantissaLimit := by decide
  rw [Numeral.body, digitsFrom_whole hzero n.isDigit_whole]
  by_cases hroom : Nat.ofDigitChars 10 n.whole 0 < mantissaLimit
  · rw [if_pos hroom]
    have hdigits := n.digits_ne_nil
    have hfraction := n.isDigit_fraction
    cases hpoint : n.fraction with
    | none =>
      rw [hpoint] at hx hdigits
      have hwhole : n.whole ≠ [] := by simpa using hdigits
      have hseen : (false || !n.whole.isEmpty) = true := by simpa using hwhole
      rw [Option.elim_none, digitsFrom, if_pos hseen]
      exact isReading_of_whole hroom (Nat.zero_le _) hx
    | some ds =>
      rw [hpoint] at hx hdigits hfraction
      have hseen : (false || !n.whole.isEmpty) = true ∨ ds ≠ [] := by
        by_cases hwhole : n.whole = []
        · exact Or.inr (by simpa [hwhole] using hdigits)
        · exact Or.inl (by simpa using hwhole)
      have hnodigit : digit? 10 '.' = none := by decide
      rw [Option.elim_some, digitsFrom, hnodigit]
      dsimp only
      rw [if_pos ⟨rfl, rfl⟩]
      exact isReading_digitsFrom hroom (by decide) hseen hfraction (by rwa [Nat.zero_add])
  · rw [if_neg hroom]
    exact not_fits_of_le (Nat.le_of_not_lt hroom) hbounds.1

/-- The sign of a numeral is taken off, and nothing else is. -/
theorem takeSign_text (n : Numeral) :
    takeSign (n.sign ++ n.body) = (decide (n.sign = ['-']), n.body) := by
  have hhead : ∀ c rest, n.body = c :: rest → c.isDigit = true ∨ c = '.' := by
    intro c rest hbody
    exact Numeral.isDigit_or_eq_point (hbody ▸ List.mem_cons_self)
  have hsign := n.sign_mem
  simp only [List.mem_cons, List.not_mem_nil, or_false] at hsign
  rcases hsign with hsign | hsign | hsign
  · rw [hsign, List.nil_append]
    unfold takeSign
    split
    · next heq => exact absurd (hhead _ _ heq) (by decide)
    · next heq => exact absurd (hhead _ _ heq) (by decide)
    · rfl
  · rw [hsign]
    rfl
  · rw [hsign]
    rfl

/-- A numeral has no exponent. -/
theorem scientific?_text (n : Numeral) : scientific? (n.sign ++ n.body) = none := by
  have hexponent : ∀ c ∈ n.sign ++ n.body, (c == 'e' || c == 'E') = false := by
    intro c hc
    rcases List.mem_append.1 hc with hmem | hmem
    · have hsign := n.sign_mem
      simp only [List.mem_cons, List.not_mem_nil, or_false] at hsign
      rcases hsign with hsign | hsign | hsign <;> rw [hsign] at hmem <;> simp at hmem <;>
        subst hmem <;> rfl
    · rcases Numeral.isDigit_or_eq_point hmem with hdigit | rfl
      · rw [Bool.or_eq_false_iff, beq_eq_false_iff_ne, beq_eq_false_iff_ne]
        constructor <;>
        · rintro rfl
          exact absurd hdigit (by decide)
      · rfl
  have hbreak : Text.breakAt (fun c => c == 'e' || c == 'E') (n.sign ++ n.body) = none := by
    cases hbreak : Text.breakAt (fun c => c == 'e' || c == 'E') (n.sign ++ n.body) with
    | none => rfl
    | some parts =>
      obtain ⟨c, hc, heq, -⟩ := Text.eq_append_of_breakAt hbreak
      have hmem : c ∈ n.sign ++ n.body := by
        rw [heq]
        simp
      exact absurd hc (Bool.eq_false_iff.1 (hexponent c hmem))
  rw [scientific?, hbreak]
  rfl

/-- The sign of a number that is rounded to zero is lost. -/
theorem toRat_ofParts {m k : ℕ} {d : Decimal} {negative : Bool}
    (h : ofParts? (negative && m != 0) m k = some d) :
    d.toRat = if negative = true then -((m : ℚ) / 10 ^ k) else m / 10 ^ k := by
  unfold ofParts? at h
  split at h
  · obtain rfl := Option.some.inj h
    unfold toRat
    dsimp only
    by_cases hm : m = 0
    · simp [hm]
    · simp [hm]
  · exact absurd h (by simp)

theorem rounded_toRat (n : Numeral) :
    rounded n.toRat = if n.sign = ['-'] then -roundedSize n.size else roundedSize n.size := by
  have hnonneg := n.size_nonneg
  unfold Numeral.toRat rounded
  by_cases hsign : n.sign = ['-']
  · rw [if_pos hsign, if_pos hsign]
    by_cases hzero : n.size = 0
    · have hround : roundedSize 0 = 0 :=
        roundedSize_of_whole (k := 0) (n := 0) (Nat.zero_le _) (by simp)
      rw [hzero, neg_zero, if_neg (lt_irrefl _), hround, neg_zero]
    · have hpos : 0 < n.size := lt_of_le_of_ne hnonneg (Ne.symm hzero)
      rw [if_pos (neg_neg_of_pos hpos), neg_neg]
  · rw [if_neg hsign, if_neg hsign, if_neg (not_lt.2 hnonneg)]

/-- A numeral is read as the number that it writes, rounded to the places that fit. It cannot be
read exactly if its whole part, rounded, does not fit. -/
theorem ofText?_text (n : Numeral) :
    match ofText? n.text with
    | none => ¬Fits n.size 0
    | some d => Fits n.size 0 ∧ d.toRat = rounded n.toRat := by
  have hreading := isReading_body n
  have hread : ofText? n.text = (digitsFrom 0 0 false false n.body).bind fun r =>
      ofParts? (decide (n.sign = ['-']) && r.1 != 0) r.1 r.2 := by
    rw [ofText?, Numeral.text, String.toList_ofList, scientific?_text, plain?, takeSign_text]
    show ((digitsFrom 0 0 false false n.body).bind fun r =>
      ofParts? (decide (n.sign = ['-']) && r.1 != 0) r.1 r.2).orElse (fun _ => none) = _
    cases (digitsFrom 0 0 false false n.body).bind _ <;> rfl
  rw [hread]
  cases hparts : digitsFrom 0 0 false false n.body with
  | none =>
    rw [hparts] at hreading
    exact hreading
  | some parts =>
    obtain ⟨m, k⟩ := parts
    rw [hparts] at hreading
    obtain ⟨hm, hk, hfits, hsize⟩ := hreading
    rw [Option.bind_some]
    cases hd : ofParts? (decide (n.sign = ['-']) && m != 0) m k with
    | none => exact absurd hd (by rw [ofParts?, dif_pos ⟨hm, hk⟩]; simp)
    | some d =>
      refine ⟨hfits, ?_⟩
      rw [toRat_ofParts hd, rounded_toRat, hsize]
      simp only [decide_eq_true_eq]

end Decimal

end Filing
