import Filing.Text.Basic
import Mathlib.Data.List.Forall2

/-!
# Words in any case

A word that turns something on may be written in small letters, in capitals or in both. Only the 26
letters of ASCII have a case here; every other character stands for itself.

Main statement: `sameIgnoringCase_iff`.
-/

namespace Filing.Text

/-! ## Capitals -/

theorem toNat_toLower (c : Char) : c.toLower.toNat =
    if 65 ≤ c.toNat ∧ c.toNat ≤ 90 then c.toNat + 32 else c.toNat := by
  unfold Char.toLower
  split
  · next hc =>
    have hcapital : 65 ≤ c.toNat ∧ c.toNat ≤ 90 := hc
    have hdiff : (97 - 65 : UInt32).toNat = 32 := rfl
    rw [if_pos hcapital]
    show (c.val + (97 - 65)).toNat = c.toNat + 32
    rw [UInt32.toNat_add, hdiff, Char.toNat_val]
    omega
  · next hc => exact (if_neg hc).symm

theorem toNat_toUpper (c : Char) : c.toUpper.toNat =
    if 97 ≤ c.toNat ∧ c.toNat ≤ 122 then c.toNat - 32 else c.toNat := by
  unfold Char.toUpper
  split
  · next hc =>
    have hsmall : 97 ≤ c.toNat ∧ c.toNat ≤ 122 := hc
    -- The difference wraps around, and so does the sum with it.
    have hdiff : (65 - 97 : UInt32).toNat = 2 ^ 32 - 32 := rfl
    rw [if_pos hsmall]
    show (c.val + (65 - 97)).toNat = c.toNat - 32
    rw [UInt32.toNat_add, hdiff, Char.toNat_val]
    omega
  · next hc => exact (if_neg hc).symm

/-- A character that is no capital is what it and its capital become in small letters. -/
theorem toLower_eq_iff {w c : Char} (hw : w.toLower = w) :
    c.toLower = w ↔ c = w ∨ c = w.toUpper := by
  simp only [← Char.toNat_inj, toNat_toLower, toNat_toUpper] at hw ⊢
  grind

/-! ## Words -/

/-- A text is a word, of whose small letters some may be capitals. -/
def IsSpelling (word s : String) : Prop :=
  List.Forall₂ (fun w c => c = w ∨ c = w.toUpper) word.toList s.toList

theorem sameIgnoringCase_iff {word s : String} (hword : ∀ w ∈ word.toList, w.toLower = w) :
    sameIgnoringCase s.toList word.toList = true ↔ IsSpelling word s := by
  rw [sameIgnoringCase, beq_iff_eq, IsSpelling]
  generalize word.toList = ws at hword ⊢
  generalize s.toList = cs
  induction ws generalizing cs with
  | nil => simp
  | cons w ws ih =>
    obtain ⟨hw, hws⟩ := List.forall_mem_cons.1 hword
    cases cs with
    | nil => simp
    | cons c cs =>
      rw [List.map_cons, List.map_cons, List.cons.injEq, hw, toLower_eq_iff hw, ih hws,
        List.forall₂_cons]

end Filing.Text
