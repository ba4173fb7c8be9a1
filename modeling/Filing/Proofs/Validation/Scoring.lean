import Filing.Validation.Report
import Mathlib.Data.List.Perm.Basic

/-!
# Scores

A score is computed within 32 bits: a count that is too large becomes the largest number, and so does
a product. Nothing is lost by that. What is cut off was already enough to bring the score down to
zero, so the score is what the formula gives on numbers without bound. It depends on how many errors
and warnings there are and on nothing else, and every further issue can only lower it.
-/

namespace Filing

namespace Report

open Text (maxWord32)

/-! ## Within 32 bits -/

/-- A product that is taken off a small number may be cut to 32 bits, and so may its factor. -/
theorem sub_clamp_mul {points : Nat} (hpoints : points ≤ maxWord32) (count weight : Nat) :
    points - clamp (clamp count * weight) = points - count * weight := by
  rcases Nat.eq_zero_or_pos weight with rfl | hweight
  · rfl
  · have hcount : count ≤ count * weight := Nat.le_mul_of_pos_right count hweight
    have hlargest : maxWord32 ≤ maxWord32 * weight := Nat.le_mul_of_pos_right maxWord32 hweight
    rcases Nat.le_total count maxWord32 with hfits | hlarge
    · rw [clamp, clamp, Nat.min_eq_left hfits]
      omega
    · -- the count does not fit: both products take all points away
      rw [clamp, clamp, Nat.min_eq_right hlarge]
      omega

theorem fullScore_le_maxWord32 : fullScore ≤ maxWord32 := by decide

theorem score_eq (w : ScoreWeights) (r : Report) :
    r.score w = fullScore - r.errors.length * w.error - r.warnings.length * w.warning := by
  have hrest : fullScore - r.errors.length * w.error ≤ maxWord32 :=
    Nat.le_trans (Nat.sub_le _ _) fullScore_le_maxWord32
  rw [score, sub_clamp_mul fullScore_le_maxWord32, sub_clamp_mul hrest]

/-! ## Pushing issues -/

theorem issues_push (r : Report) (i : Issue) : (r.push i).issues.Perm (i :: r.issues) := by
  unfold push issues
  cases i.category with
  | field =>
    have h : (r.field ++ [i]).Perm (i :: r.field) := List.perm_append_singleton i r.field
    exact (h.append_right r.rule).append_right r.structural
  | rule =>
    have h : (r.field ++ (r.rule ++ [i])).Perm (i :: (r.field ++ r.rule)) := by
      rw [← List.append_assoc]
      exact List.perm_append_singleton i _
    exact h.append_right r.structural
  | structural =>
    show (r.field ++ r.rule ++ (r.structural ++ [i])).Perm (i :: (r.field ++ r.rule ++ r.structural))
    rw [← List.append_assoc]
    exact List.perm_append_singleton i _

theorem issues_foldl_push (r : Report) (more : List Issue) :
    (more.foldl push r).issues.Perm (more ++ r.issues) := by
  induction more generalizing r with
  | nil => exact List.Perm.refl _
  | cons i more ih =>
    have hrest : (more ++ (r.push i).issues).Perm (more ++ i :: r.issues) :=
      (r.issues_push i).append_left more
    exact ((ih (r.push i)).trans hrest).trans List.perm_middle

/-- The order of the issues, and the parts of validation that found them, do not count. -/
theorem score_congr {w : ScoreWeights} {r other : Report} (h : r.issues.Perm other.issues) :
    r.score w = other.score w := by
  have herrors : r.errors.length = other.errors.length := (h.filter _).length_eq
  have hwarnings : r.warnings.length = other.warnings.length := (h.filter _).length_eq
  rw [score_eq, score_eq, herrors, hwarnings]

/-- Further issues never raise the score. -/
theorem score_le_of_perm_append {w : ScoreWeights} {r other : Report} {more : List Issue}
    (h : other.issues.Perm (more ++ r.issues)) : other.score w ≤ r.score w := by
  have hcount : ∀ p : Issue → Bool, (r.issues.filter p).length ≤ (other.issues.filter p).length := by
    intro p
    rw [(h.filter p).length_eq, List.filter_append, List.length_append]
    exact Nat.le_add_left _ _
  have herrors : r.errors.length * w.error ≤ other.errors.length * w.error :=
    Nat.mul_le_mul_right _ (hcount _)
  have hwarnings : r.warnings.length * w.warning ≤ other.warnings.length * w.warning :=
    Nat.mul_le_mul_right _ (hcount _)
  rw [score_eq, score_eq]
  omega

/-! ## The formula -/

/-- A way to score reports that follows the formula on whole numbers without bound. -/
structure IsExactScore (w : ScoreWeights) (score : Report → Nat) : Prop where
  formula : ∀ r : Report, (score r : Int) =
    max 0 (100 - (w.error : Int) * r.errors.length - (w.warning : Int) * r.warnings.length)
  bounded : ∀ r : Report, score r ≤ 100
  /-- The order in which issues are pushed does not count. -/
  unordered : ∀ (r : Report) (issues others : List Issue), issues.Perm others →
    score (issues.foldl push r) = score (others.foldl push r)
  antitone : ∀ (r : Report) (i : Issue), score (r.push i) ≤ score r

/-- The score follows the formula, whatever the weights and however many issues there are. -/
theorem isExactScore_score (w : ScoreWeights) : IsExactScore w (score w) where
  formula r := by
    have herrors : (w.error : Int) * r.errors.length = (r.errors.length * w.error : Nat) := by
      rw [Int.natCast_mul, Int.mul_comm]
    have hwarnings : (w.warning : Int) * r.warnings.length =
        (r.warnings.length * w.warning : Nat) := by
      rw [Int.natCast_mul, Int.mul_comm]
    have hfull : fullScore = 100 := rfl
    rw [score_eq, herrors, hwarnings]
    omega
  bounded r := by
    rw [score_eq]
    exact Nat.le_trans (Nat.sub_le _ _) (Nat.sub_le _ _)
  unordered r issues others h := by
    have hpushed := issues_foldl_push r issues
    have hothers := issues_foldl_push r others
    exact score_congr (hpushed.trans ((h.append_right r.issues).trans hothers.symm))
  antitone r i := by
    have hpush : (r.push i).issues.Perm ([i] ++ r.issues) := r.issues_push i
    exact score_le_of_perm_append hpush

end Report

end Filing
