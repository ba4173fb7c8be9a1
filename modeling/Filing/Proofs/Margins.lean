import Filing.Form.Field
import Filing.Proofs.Text.Stripping
import Mathlib.Logic.Function.Iterate

/-!
# The margins of a path

A path is normalised by taking away the blanks around it and then the slashes. Each is done once, so
a blank within the slashes stays and becomes the first or the last character of the path. This module
says for which paths one pass is enough; as many passes as the path has characters always are.
-/

namespace Filing.Path

open Text (IsStripped exists_eq_append_strip isBlank isStripped_of_length_le isStripped_or
  isStripped_strip length_strip_le strip strip_append strip_eq_self_iff strip_strip_of_imp)

variable {path : String}

/-- A blank or a slash. -/
def isMargin (c : Char) : Bool := isBlank c || c == '/'

/-- The path begins and ends with neither a blank nor a slash. -/
def IsNormal (path : String) : Prop := IsStripped isMargin path.toList

instance : Decidable (IsNormal path) := inferInstanceAs (Decidable (IsStripped _ _))

/-- The path without all the blanks and slashes around it. -/
def bare (path : String) : String := String.ofList (strip isMargin path.toList)

/-- The slashes around the bare path stand next to it, and the blanks around these. -/
def IsPlain (path : String) : Prop :=
  ∃ before slashes slashes' after : List Char,
    path.toList = before ++ (slashes ++ (bare path).toList ++ slashes') ++ after ∧
    (∀ c ∈ before ++ after, isBlank c = true) ∧ ∀ c ∈ slashes ++ slashes', c = '/'

/-! ## The bare path -/

theorem toList_bare (path : String) : (bare path).toList = strip isMargin path.toList :=
  String.toList_ofList

theorem toList_normalize (path : String) :
    (normalize path).toList = strip (· == '/') (strip isBlank path.toList) :=
  String.toList_ofList

theorem isNormal_bare (path : String) : IsNormal (bare path) := by
  rw [IsNormal, toList_bare]
  exact isStripped_strip isMargin path.toList

theorem bare_eq_self_iff : bare path = path ↔ IsNormal path := by
  rw [← String.toList_inj, toList_bare]
  exact strip_eq_self_iff

/-- Normalising takes away blanks and slashes only. -/
theorem bare_normalize (path : String) : bare (normalize path) = bare path := by
  rw [← String.toList_inj, toList_bare, toList_bare, toList_normalize,
    strip_strip_of_imp fun c hc => ?_, strip_strip_of_imp fun c hc => ?_]
  · rw [isMargin, hc, Bool.true_or]
  · rw [isMargin, hc, Bool.or_true]

/-! ## One pass -/

theorem length_normalize_le (path : String) :
    (normalize path).toList.length ≤ (strip isBlank path.toList).length := by
  rw [toList_normalize]
  exact length_strip_le _ _

/-- Normalising shortens every path that is not normal. -/
theorem isNormal_of_length_le (h : path.toList.length ≤ (normalize path).toList.length) :
    IsNormal path := by
  have hslashes := length_normalize_le path
  have hblanks := length_strip_le isBlank path.toList
  have hblank : IsStripped isBlank path.toList := isStripped_of_length_le (by omega)
  have hslash : IsStripped (· == '/') path.toList := by
    rw [toList_normalize, strip_eq_self_iff.2 hblank] at h
    exact isStripped_of_length_le h
  exact isStripped_or.2 ⟨hblank, hslash⟩

/-- Normalising leaves exactly the normal paths alone. -/
theorem normalize_eq_self_iff : normalize path = path ↔ IsNormal path := by
  constructor
  · intro h
    exact isNormal_of_length_le (by rw [h])
  · intro h
    obtain ⟨hblank, hslash⟩ := isStripped_or.1 h
    rw [← String.toList_inj, toList_normalize, strip_eq_self_iff.2 hblank,
      strip_eq_self_iff.2 hslash]

/-- A pass gives a normal path exactly if it takes away all blanks and slashes. -/
theorem isNormal_normalize_iff : IsNormal (normalize path) ↔ normalize path = bare path := by
  rw [← bare_eq_self_iff, bare_normalize, eq_comm]

theorem normalize_eq_bare_iff : normalize path = bare path ↔ IsPlain path := by
  rw [← String.toList_inj, toList_normalize]
  constructor
  · intro h
    obtain ⟨before, after, houter, hbefore, hafter⟩ := exists_eq_append_strip isBlank path.toList
    obtain ⟨slashes, slashes', hinner, hslashes, hslashes'⟩ :=
      exists_eq_append_strip (· == '/') (strip isBlank path.toList)
    refine ⟨before, slashes, slashes', after, ?_, ?_, ?_⟩
    · rw [← h, ← hinner, ← houter]
    · exact List.forall_mem_append.2 ⟨hbefore, hafter⟩
    · refine List.forall_mem_append.2 ⟨fun c hc => ?_, fun c hc => ?_⟩
      · exact eq_of_beq (hslashes c hc)
      · exact eq_of_beq (hslashes' c hc)
  · rintro ⟨before, slashes, slashes', after, hpath, hblanks, hslashes⟩
    obtain ⟨hbefore, hafter⟩ := List.forall_mem_append.1 hblanks
    obtain ⟨hleft, hright⟩ := List.forall_mem_append.1 hslashes
    obtain ⟨hblank, hslash⟩ := isStripped_or.1 (isNormal_bare path)
    -- No blank is left to take away once the outer ones are gone.
    have hnoBlank : ∀ c, c = '/' → isBlank c = false := by
      rintro c rfl
      decide
    have hinner : IsStripped isBlank (slashes ++ (bare path).toList ++ slashes') :=
      hblank.append (fun c hc => hnoBlank c (hleft c hc)) (fun c hc => hnoBlank c (hright c hc))
    rw [hpath, strip_append hbefore hafter, strip_eq_self_iff.2 hinner,
      strip_append (fun c hc => beq_iff_eq.2 (hleft c hc)) (fun c hc => beq_iff_eq.2 (hright c hc)),
      strip_eq_self_iff.2 hslash]

/-! ## Many passes -/

/-- As many passes as the path has characters take away all blanks and slashes. -/
theorem iterate_normalize (path : String) : normalize^[path.toList.length] path = bare path := by
  have hrun : ∀ (n : Nat) (path : String), path.toList.length ≤ n →
      normalize^[n] path = bare path := by
    intro n
    induction n with
    | zero =>
      intro path hlength
      obtain rfl : path = "" := String.toList_inj.1 (List.eq_nil_of_length_eq_zero (by omega))
      rfl
    | succ n ih =>
      intro path hlength
      -- A normal path does not get shorter, but it is the bare path already.
      by_cases hnormal : IsNormal path
      · rw [Function.iterate_fixed (normalize_eq_self_iff.2 hnormal), bare_eq_self_iff.2 hnormal]
      · have hshorter : (normalize path).toList.length < path.toList.length := by
          by_contra hle
          exact hnormal (isNormal_of_length_le (by omega))
        rw [Function.iterate_succ_apply, ih _ (by omega), bare_normalize]
  exact hrun path.toList.length path le_rfl

/-- A normalised path never begins or ends with a slash. It begins and ends with no blank either, stays
what it is when it is normalised again, and is the path of the field that is made with it, exactly if
there was no blank within the slashes. Normalised often enough, every path becomes the bare path, which
is normal. -/
theorem isNormal_normalize_iff_isPlain (path : String) :
    IsStripped (· == '/') (normalize path).toList ∧
    (IsNormal (normalize path) ↔ IsPlain path) ∧
    (normalize (normalize path) = normalize path ↔ IsPlain path) ∧
    (∀ id control,
      ((Field.new id (normalize path) control).path = normalize path ↔ IsPlain path)) ∧
    normalize^[path.toList.length] path = bare path ∧ IsNormal (bare path) := by
  have hplain : IsNormal (normalize path) ↔ IsPlain path := by
    rw [isNormal_normalize_iff, normalize_eq_bare_iff]
  have hagain : normalize (normalize path) = normalize path ↔ IsPlain path := by
    rw [normalize_eq_self_iff, hplain]
  refine ⟨?_, hplain, hagain, fun id control => hagain, iterate_normalize path, isNormal_bare path⟩
  rw [toList_normalize]
  exact isStripped_strip _ _

/-- A blank behind the first slash stays, and is gone after a second pass. -/
theorem not_isNormal_normalize_slashBlank :
    normalize "/ a" = " a" ∧ ¬ IsNormal (normalize "/ a") ∧
      normalize (normalize "/ a") = "a" ∧
      (Field.new "n" (normalize "/ a") .text).path ≠ normalize "/ a" := by
  decide

end Filing.Path
