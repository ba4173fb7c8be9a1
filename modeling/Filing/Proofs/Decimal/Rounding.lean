import Filing.Decimal
import Mathlib.Algebra.Order.Floor.Semiring
import Mathlib.Data.Nat.Find
import Mathlib.Data.Rat.Floor
import Mathlib.Tactic.Linarith
import Mathlib.Tactic.Positivity
import Mathlib.Tactic.Push
import Mathlib.Tactic.Ring

/-!
# Rounding to a decimal

A rational number is rounded to as many places as its digits fit into the mantissa, 28 at most, a
half going away from zero. Rounding does not carry a number past a decimal: what is below a decimal
is rounded to something below it, or to the decimal itself.
-/

namespace Filing.Decimal

/-- The rational number for which a decimal stands. -/
def toRat (d : Decimal) : ℚ :=
  let size : ℚ := d.mantissa / 10 ^ d.scale
  if d.negative then -size else size

/-- A size in units of its `k`-th place, to the nearest whole number, a half going up. -/
def nearest (k : ℕ) (x : ℚ) : ℕ := ⌊x * 10 ^ k + 1 / 2⌋₊

/-- There is room in a mantissa for the `k`-th place of a size. -/
def Fits (x : ℚ) (k : ℕ) : Prop := nearest k x < mantissaLimit

instance (x : ℚ) : DecidablePred (Fits x) := fun k =>
  inferInstanceAs (Decidable (nearest k x < mantissaLimit))

/-- How many places of a size are kept. -/
def places (x : ℚ) : ℕ := Nat.findGreatest (Fits x) maxScale

/-- A size to as many places as are kept. -/
def roundedSize (x : ℚ) : ℚ := nearest (places x) x / 10 ^ places x

/-- The number rounded to the places that fit, a half going away from zero. -/
def rounded (x : ℚ) : ℚ := if x < 0 then -roundedSize (-x) else roundedSize x

theorem mantissaLimit_eq : (mantissaLimit : ℚ) = 79228162514264337593543950336 := by
  have h : mantissaLimit = 79228162514264337593543950336 := rfl
  rw [h]
  norm_cast

/-! ## Decimals as rational numbers -/

theorem toRat_mul_eq_units (d : Decimal) : d.toRat * 10 ^ maxScale = d.units := by
  have hpow : (10 : ℚ) ^ maxScale = 10 ^ (maxScale - d.scale) * 10 ^ d.scale := by
    rw [← pow_add, Nat.sub_add_cancel d.scale_le]
  have hne : (10 : ℚ) ^ d.scale ≠ 0 := by positivity
  have hsize : (d.mantissa : ℚ) / 10 ^ d.scale * 10 ^ maxScale =
      d.mantissa * 10 ^ (maxScale - d.scale) := by
    rw [hpow, mul_comm (10 ^ (maxScale - d.scale) : ℚ), ← mul_assoc, div_mul_cancel₀ _ hne]
  have hten : ((tenPower (maxScale - d.scale) : ℕ) : ℚ) = 10 ^ (maxScale - d.scale) := by
    show ((10 ^ (maxScale - d.scale) : ℕ) : ℚ) = _
    push_cast
    rfl
  unfold toRat units
  dsimp only
  cases d.negative with
  | true =>
    rw [if_pos rfl, if_pos rfl, neg_mul, hsize]
    push_cast
    rw [hten]
  | false =>
    rw [if_neg Bool.false_ne_true, if_neg Bool.false_ne_true, hsize]
    push_cast
    rw [hten]

/-- Decimals compare as the rational numbers for which they stand. -/
theorem lt_iff_toRat_lt {a b : Decimal} : a < b ↔ a.toRat < b.toRat := by
  have hpos : (0 : ℚ) < 10 ^ maxScale := by positivity
  rw [lt_iff, ← Int.cast_lt (R := ℚ), ← toRat_mul_eq_units, ← toRat_mul_eq_units,
    mul_lt_mul_iff_left₀ hpos]

/-- A size that a decimal can have. -/
def IsSize (y : ℚ) : Prop := ∃ p s : ℕ, p < mantissaLimit ∧ s ≤ maxScale ∧ y = p / 10 ^ s

theorem isSize_toRat {d : Decimal} (h : 0 ≤ d.toRat) : IsSize d.toRat := by
  have hsize : (0 : ℚ) ≤ d.mantissa / 10 ^ d.scale := by positivity
  refine ⟨d.mantissa, d.scale, d.mantissa_lt, d.scale_le, ?_⟩
  unfold toRat at h ⊢
  dsimp only at h ⊢
  split
  · next hneg =>
    rw [if_pos hneg] at h
    linarith
  · rfl

theorem isSize_neg_toRat {d : Decimal} (h : d.toRat ≤ 0) : IsSize (-d.toRat) := by
  have hsize : (0 : ℚ) ≤ d.mantissa / 10 ^ d.scale := by positivity
  refine ⟨d.mantissa, d.scale, d.mantissa_lt, d.scale_le, ?_⟩
  unfold toRat at h ⊢
  dsimp only at h ⊢
  split
  · exact neg_neg _
  · next hpos =>
    rw [if_neg hpos] at h
    linarith

/-! ## The places that fit -/

section Sizes

variable {x y : ℚ} {k n : ℕ}

theorem nearest_eq_iff (hx : 0 ≤ x) :
    nearest k x = n ↔ (n : ℚ) ≤ x * 10 ^ k + 1 / 2 ∧ x * 10 ^ k + 1 / 2 < n + 1 :=
  Nat.floor_eq_iff (by positivity)

/-- At a place behind its last digit, or at it, a size is a whole number of units. -/
theorem nearest_of_whole {j : ℕ} (hjk : j ≤ k) (hwhole : x * 10 ^ j = n) :
    (nearest k x : ℚ) = x * 10 ^ k := by
  have hk : x * 10 ^ k = ((n * 10 ^ (k - j) : ℕ) : ℚ) := by
    push_cast
    rw [← hwhole, mul_assoc, ← pow_add, Nat.add_sub_cancel' hjk]
  have hfloor : nearest k x = n * 10 ^ (k - j) := by
    unfold nearest
    rw [hk, Nat.floor_eq_iff (by positivity)]
    constructor <;> linarith
  rw [hfloor, hk]

theorem fits_iff (hx : 0 ≤ x) : Fits x k ↔ x * 10 ^ k + 1 / 2 < mantissaLimit :=
  Nat.floor_lt (by positivity)

theorem fits_of_nearest_eq (h : nearest k x = n) (hn : n < mantissaLimit) : Fits x k :=
  h.trans_lt hn

theorem not_fits_of_le (hn : mantissaLimit ≤ n) (h : (n : ℚ) ≤ x * 10 ^ k) : ¬Fits x k := by
  have hpow : (0 : ℚ) < 10 ^ k := by positivity
  have hlimit : (mantissaLimit : ℚ) ≤ n := by exact_mod_cast hn
  have hx : 0 ≤ x := nonneg_of_mul_nonneg_left ((Nat.cast_nonneg n).trans h) hpow
  rw [fits_iff hx]
  linarith

theorem Fits.of_le {j : ℕ} (hx : 0 ≤ x) (hkj : k ≤ j) (h : Fits x j) : Fits x k := by
  rw [fits_iff hx] at h ⊢
  have hpow : (10 : ℚ) ^ k ≤ 10 ^ j := pow_le_pow_right₀ (by norm_num) hkj
  have hle : x * 10 ^ k ≤ x * 10 ^ j := mul_le_mul_of_nonneg_left hpow hx
  linarith

theorem places_le : places x ≤ maxScale := Nat.findGreatest_le maxScale

theorem fits_places (h : Fits x 0) : Fits x (places x) :=
  Nat.findGreatest_spec (P := Fits x) (Nat.zero_le maxScale) h

theorem le_places (hk : k ≤ maxScale) (h : Fits x k) : k ≤ places x := Nat.le_findGreatest hk h

theorem not_fits_of_places_lt (hlt : places x < k) (hk : k ≤ maxScale) : ¬Fits x k :=
  fun h => absurd (le_places hk h) (Nat.not_le_of_lt hlt)

/-- The places that are kept are the last ones that fit. -/
theorem places_eq (hx : 0 ≤ x) (hk : k ≤ maxScale) (hfits : Fits x k)
    (hnext : k < maxScale → ¬Fits x (k + 1)) : places x = k := by
  refine le_antisymm ?_ (le_places hk hfits)
  by_contra hlt
  have hlt : k < places x := Nat.lt_of_not_le hlt
  have hlast : Fits x (places x) := fits_places (hfits.of_le hx (Nat.zero_le k))
  exact hnext (hlt.trans_le places_le) (hlast.of_le hx hlt)

/-- A size with few enough digits is not rounded. -/
theorem roundedSize_of_whole (hk : k ≤ places x) (hwhole : x * 10 ^ k = n) :
    roundedSize x = x := by
  have hpow : (10 : ℚ) ^ places x ≠ 0 := by positivity
  rw [roundedSize, nearest_of_whole hk hwhole, mul_div_cancel_right₀ _ hpow]

theorem roundedSize_nonneg : 0 ≤ roundedSize x := by
  unfold roundedSize
  positivity

/-! ## Rounding between decimals -/

/-- Where the next place does not fit, the digits that are kept, with a zero behind them, would not
fit any more either. -/
theorem mantissaLimit_le_nearest_mul_ten (hx : 0 ≤ x) (h : ¬Fits x (k + 1)) :
    mantissaLimit ≤ nearest k x * 10 := by
  rw [fits_iff hx, not_lt, pow_succ, ← mul_assoc, mantissaLimit_eq] at h
  have hlt : x * 10 ^ k + 1 / 2 < nearest k x + 1 := ((nearest_eq_iff hx).1 rfl).2
  have hcast : (7922816251426433759354395033 : ℚ) < (nearest k x : ℕ) := by linarith
  have hnat : 7922816251426433759354395033 < nearest k x := by exact_mod_cast hcast
  have hlimit : mantissaLimit = 79228162514264337593543950336 := rfl
  omega

theorem le_roundedSize (hx : 0 ≤ x) (hy : IsSize y) (hyx : y ≤ x) : y ≤ roundedSize x := by
  obtain ⟨p, s, hp, hs, rfl⟩ := hy
  have hpows : (0 : ℚ) < 10 ^ s := by positivity
  have hpowk : (0 : ℚ) < 10 ^ places x := by positivity
  rw [roundedSize, div_le_div_iff₀ hpows hpowk]
  rw [div_le_iff₀ hpows] at hyx
  by_cases hplaces : s ≤ places x
  · -- The decimal has no place beyond those that are kept, so it is a whole number of units.
    have hpow : (10 : ℚ) ^ places x = 10 ^ (places x - s) * 10 ^ s := by
      rw [← pow_add, Nat.sub_add_cancel hplaces]
    have hunits : p * 10 ^ (places x - s) ≤ nearest (places x) x := by
      refine Nat.le_floor ?_
      push_cast
      have hscaled : (p : ℚ) * 10 ^ (places x - s) ≤ x * 10 ^ s * 10 ^ (places x - s) :=
        mul_le_mul_of_nonneg_right hyx (by positivity)
      rw [mul_assoc x, mul_comm (10 ^ s : ℚ), ← hpow] at hscaled
      linarith
    have hcast : (p : ℚ) * 10 ^ (places x - s) ≤ (nearest (places x) x : ℕ) := by
      exact_mod_cast hunits
    calc (p : ℚ) * 10 ^ places x = p * 10 ^ (places x - s) * 10 ^ s := by rw [hpow, mul_assoc]
      _ ≤ nearest (places x) x * 10 ^ s := mul_le_mul_of_nonneg_right hcast hpows.le
  · -- The decimal has more places than fit for `x`, so it is smaller by a digit.
    have hlt : places x < s := Nat.lt_of_not_le hplaces
    have hroom := mantissaLimit_le_nearest_mul_ten hx
      (not_fits_of_places_lt (Nat.lt_succ_self (places x)) (hlt.trans_le hs))
    have hpow : (10 : ℚ) ^ s = 10 * 10 ^ (s - places x - 1) * 10 ^ places x := by
      rw [mul_assoc, ← pow_add, ← pow_succ']
      congr 1
      omega
    have hone : (1 : ℚ) ≤ 10 ^ (s - places x - 1) := one_le_pow₀ (by norm_num)
    have hp : (p : ℚ) ≤ nearest (places x) x * 10 := by exact_mod_cast hp.le.trans hroom
    calc (p : ℚ) * 10 ^ places x ≤ nearest (places x) x * 10 * 10 ^ places x :=
          mul_le_mul_of_nonneg_right hp hpowk.le
      _ ≤ nearest (places x) x * 10 * 10 ^ places x * 10 ^ (s - places x - 1) :=
          le_mul_of_one_le_right (by positivity) hone
      _ = nearest (places x) x * 10 ^ s := by rw [hpow]; ring

theorem roundedSize_le (hx : 0 ≤ x) (hy : IsSize y) (hxy : x ≤ y) : roundedSize x ≤ y := by
  obtain ⟨p, s, hp, hs, rfl⟩ := hy
  have hpows : (0 : ℚ) < 10 ^ s := by positivity
  have hpowk : (0 : ℚ) < 10 ^ places x := by positivity
  rw [le_div_iff₀ hpows] at hxy
  have hfits : Fits x s := by
    have hp : (p : ℚ) + 1 ≤ mantissaLimit := by exact_mod_cast hp
    rw [fits_iff hx]
    linarith
  have hplaces : s ≤ places x := le_places hs hfits
  have hpow : (10 : ℚ) ^ places x = 10 ^ (places x - s) * 10 ^ s := by
    rw [← pow_add, Nat.sub_add_cancel hplaces]
  have hunits : nearest (places x) x ≤ p * 10 ^ (places x - s) := by
    refine Nat.lt_succ_iff.1 ((Nat.floor_lt (by positivity)).2 ?_)
    push_cast
    have hscaled : x * 10 ^ s * 10 ^ (places x - s) ≤ (p : ℚ) * 10 ^ (places x - s) :=
      mul_le_mul_of_nonneg_right hxy (by positivity)
    rw [mul_assoc x, mul_comm (10 ^ s : ℚ), ← hpow] at hscaled
    linarith
  have hcast : ((nearest (places x) x : ℕ) : ℚ) ≤ p * 10 ^ (places x - s) := by
    exact_mod_cast hunits
  rw [roundedSize, div_le_div_iff₀ hpowk hpows]
  calc (nearest (places x) x : ℚ) * 10 ^ s ≤ p * 10 ^ (places x - s) * 10 ^ s :=
        mul_le_mul_of_nonneg_right hcast hpows.le
    _ = p * 10 ^ places x := by rw [hpow, mul_assoc]

end Sizes

section Bounds

variable {x : ℚ} {d : Decimal}

theorem toRat_le_rounded (h : d.toRat ≤ x) : d.toRat ≤ rounded x := by
  unfold rounded
  split
  · next hx =>
    have hsize : IsSize (-d.toRat) := isSize_neg_toRat (h.trans hx.le)
    have hle := roundedSize_le (x := -x) (by linarith) hsize (by linarith)
    linarith
  · next hx =>
    have hx : 0 ≤ x := not_lt.1 hx
    rcases le_total 0 d.toRat with hd | hd
    · exact le_roundedSize hx (isSize_toRat hd) h
    · exact hd.trans roundedSize_nonneg

theorem rounded_le_toRat (h : x ≤ d.toRat) : rounded x ≤ d.toRat := by
  unfold rounded
  split
  · next hx =>
    rcases le_total 0 d.toRat with hd | hd
    · have hnonneg := roundedSize_nonneg (x := -x)
      linarith
    · have hle := le_roundedSize (x := -x) (by linarith) (isSize_neg_toRat hd) (by linarith)
      linarith
  · next hx =>
    have hx : 0 ≤ x := not_lt.1 hx
    exact roundedSize_le hx (isSize_toRat (hx.trans h)) h

/-- What is below a decimal is rounded to something below it, or to the decimal itself. -/
theorem rounded_lt_toRat_iff : rounded x < d.toRat ↔ x < d.toRat ∧ rounded x ≠ d.toRat := by
  constructor
  · intro h
    refine ⟨?_, h.ne⟩
    by_contra hle
    exact absurd (toRat_le_rounded (not_lt.1 hle)) (not_le.2 h)
  · rintro ⟨hlt, hne⟩
    exact lt_of_le_of_ne (rounded_le_toRat hlt.le) hne

theorem toRat_lt_rounded_iff : d.toRat < rounded x ↔ d.toRat < x ∧ rounded x ≠ d.toRat := by
  constructor
  · intro h
    refine ⟨?_, h.ne'⟩
    by_contra hle
    exact absurd (rounded_le_toRat (not_lt.1 hle)) (not_le.2 h)
  · rintro ⟨hlt, hne⟩
    exact lt_of_le_of_ne (toRat_le_rounded hlt.le) hne.symm

end Bounds

end Filing.Decimal
