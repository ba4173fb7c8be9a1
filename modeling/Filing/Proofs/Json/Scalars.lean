import Filing.Json.Printer
import Filing.Json.Reader
import Filing.Proofs.Text.Numbers
import Mathlib.Data.List.Basic
import Mathlib.Data.List.TakeDrop

/-!
# Reading texts and numbers of JSON undoes writing them

A written text is read character by character: the escape of a character is read as one piece, and
that piece joins as the character. A number has no delimiter of its own, so it is read only if what
follows does not go on with it (`EndsNumber`).

Main statements: `quoted_unquoted`, `number_toString`.
-/

namespace Filing.Json

open Filing.Data (Value)
open Filing.Text (isDigit_of_mem_toDigits numberOf)

/-! ## Texts -/

/-- The piece as which a written character is read: a control character without a letter of its own
is written as a code unit. -/
def piece (c : Char) : Piece :=
  if c.toNat < 0x20 ∧ c ∉ ['\x08', '\x0c', '\n', '\r', '\t'] then .code c.toNat else .char c

theorem code?_control :
    ∀ n < 0x20, code? '0' '0' (if n < 0x10 then '0' else '1') (n % 0x10).digitChar = some n := by
  decide

theorem pieces_control {c : Char} (hc : c.toNat < 0x20) (acc : List Piece) (rest : List Char) :
    pieces acc ('\\' :: 'u' :: '0' :: '0' :: (if c.toNat < 0x10 then '0' else '1') ::
      (Text.hexDigits (c.toNat % 0x10) ++ rest)) = pieces (.code c.toNat :: acc) rest := by
  have hdigit : Text.hexDigits (c.toNat % 0x10) = [(c.toNat % 0x10).digitChar] :=
    Nat.toDigits_of_lt_base (Nat.mod_lt _ (by decide))
  rw [hdigit, List.singleton_append, pieces, code?_control _ hc]

theorem pieces_ordinary {c : Char} (hquote : c ≠ '"') (hslash : c ≠ '\\') (hc : ¬ c.toNat < 0x20)
    (acc : List Piece) (rest : List Char) : pieces acc (c :: rest) = pieces (.char c :: acc) rest := by
  have hplain : (c.toNat < 0x20 || c == '\\') = false := by simp [hc, hslash]
  rw [pieces]
  · rw [hplain]
    rfl
  all_goals grind

/-- The escape of a character is read as one piece. -/
theorem pieces_escape (c : Char) (acc : List Piece) (rest : List Char) :
    pieces acc (escape c ++ rest) = pieces (piece c :: acc) rest := by
  by_cases hletter : c ∈ ['"', '\\', '\x08', '\x0c', '\n', '\r', '\t']
  · simp only [List.mem_cons, List.not_mem_nil, or_false] at hletter
    obtain rfl | rfl | rfl | rfl | rfl | rfl | rfl := hletter <;> rfl
  · simp only [List.mem_cons, List.not_mem_nil, or_false, not_or] at hletter
    obtain ⟨hquote, hslash, hb, hf, hn, hr, ht⟩ := hletter
    rw [escape, if_neg hquote, if_neg hslash, if_neg hb, if_neg hf, if_neg hn, if_neg hr,
      if_neg ht]
    by_cases hcontrol : c.toNat < 0x20
    · have hpiece : piece c = .code c.toNat := if_pos ⟨hcontrol, by simp [hb, hf, hn, hr, ht]⟩
      rw [if_pos hcontrol, hpiece, ← pieces_control hcontrol]
      rfl
    · have hpiece : piece c = .char c := if_neg fun h => hcontrol h.1
      rw [if_neg hcontrol, hpiece, ← pieces_ordinary hquote hslash hcontrol]
      rfl

theorem joinPieces_code {n : Nat} (hn : n < 0xD800) (after : List Char) (before : List Piece) :
    joinPieces after (.code n :: before) = joinPieces (Char.ofNat n :: after) before := by
  have hlow : isLowSurrogate n = false := by simp [isLowSurrogate]; omega
  have hhigh : isHighSurrogate n = false := by simp [isHighSurrogate]; omega
  rw [joinPieces.eq_def]
  simp only [hlow, hhigh]
  rfl

/-- Its piece joins as the character. -/
theorem joinPieces_piece (c : Char) (after : List Char) (before : List Piece) :
    joinPieces after (piece c :: before) = joinPieces (c :: after) before := by
  unfold piece
  split_ifs with hc
  · have hn : c.toNat < 0xD800 := Nat.lt_trans hc.1 (by decide)
    rw [joinPieces_code hn, Char.ofNat_toNat]
  · rw [joinPieces]

theorem pieces_flatMap_escape (s : List Char) (acc : List Piece) (rest : List Char) :
    pieces acc (s.flatMap escape ++ '"' :: rest) = some (s.reverse.map piece ++ acc, rest) := by
  induction s generalizing acc with
  | nil => rw [List.flatMap_nil, List.nil_append, pieces]; rfl
  | cons c s ih =>
    rw [List.flatMap_cons, List.append_assoc, pieces_escape, ih]
    simp

theorem joinPieces_map_piece (s after : List Char) :
    joinPieces after (s.reverse.map piece) = some (s ++ after) := by
  rw [← List.reverse_reverse s]
  generalize s.reverse = r
  rw [List.reverse_reverse]
  induction r generalizing after with
  | nil => rw [List.map_nil, joinPieces]; rfl
  | cons c r ih =>
    rw [List.map_cons, joinPieces_piece, ih]
    simp

/-- A quoted text from behind its opening quote. -/
def unquoted (s : String) : List Char := s.toList.flatMap escape ++ ['"']

theorem toList_quote (s : String) : (quote s).toList = '"' :: unquoted s := String.toList_ofList

/-- A quoted text is read as the text. -/
theorem quoted_unquoted (s : String) (rest : List Char) :
    quoted (unquoted s ++ rest) = some (some s, rest) := by
  have hpieces : pieces [] (unquoted s ++ rest) = some (s.toList.reverse.map piece, rest) := by
    rw [unquoted, List.append_assoc, List.singleton_append, pieces_flatMap_escape, List.append_nil]
  rw [quoted, hpieces]
  show some ((joinPieces [] (s.toList.reverse.map piece)).map String.ofList, rest) = _
  rw [joinPieces_map_piece, List.append_nil, Option.map_some, String.ofList_toList]

/-! ## Numbers -/

/-- What follows a number does not go on with it. -/
def EndsNumber (rest : List Char) : Prop :=
  ∀ c ∈ rest.head?, c.isDigit = false ∧ c ≠ '.' ∧ c ≠ 'e' ∧ c ≠ 'E'

theorem fraction_of_endsNumber {rest : List Char} (h : EndsNumber rest) :
    fraction rest = some ([], rest) := by
  cases rest with
  | nil => rfl
  | cons c rest =>
    obtain ⟨-, hpoint, -, -⟩ := h c rfl
    unfold fraction
    split
    · next heq => exact absurd (List.cons.inj heq).1 hpoint
    · rfl

theorem exponent_of_endsNumber {rest : List Char} (h : EndsNumber rest) :
    exponent rest = some ([], rest) := by
  cases rest with
  | nil => rfl
  | cons c rest =>
    obtain ⟨-, -, hsmall, hcapital⟩ := h c rfl
    have hother : (c == 'e' || c == 'E') = false := by simp [hsmall, hcapital]
    unfold exponent
    dsimp only
    rw [hother]
    rfl

theorem digits_append {ds rest : List Char} (hds : ∀ c ∈ ds, c.isDigit = true)
    (h : EndsNumber rest) : digits (ds ++ rest) = (ds, rest) := by
  have hrest : rest.takeWhile Char.isDigit = [] ∧ rest.dropWhile Char.isDigit = rest := by
    cases rest with
    | nil => exact ⟨rfl, rfl⟩
    | cons c rest => simp [(h c rfl).1]
  rw [digits, List.span_eq_takeWhile_dropWhile, List.takeWhile_append_of_pos hds,
    List.dropWhile_append_of_pos hds, hrest.1, hrest.2, List.append_nil]

theorem head?_toDigits_ne_zero {n : Nat} (hn : 0 < n) : (Nat.toDigits 10 n).head? ≠ some '0' := by
  induction n using Nat.strong_induction_on with
  | _ n ih =>
    by_cases hten : n < 10
    · have hdigit : ∀ m < 10, 0 < m → [m.digitChar].head? ≠ some '0' := by decide
      rw [Nat.toDigits_of_lt_base hten]
      exact hdigit n hten hn
    · have hne : Nat.toDigits 10 (n / 10) ≠ [] := Nat.toDigits_ne_nil
      rw [Nat.toDigits_of_base_le (by decide) (by omega), List.head?_append_of_ne_nil _ hne]
      exact ih (n / 10) (by omega) (by omega)

/-- Printed digits begin with a zero only if there is no other digit. -/
theorem hasLeadingZero_toDigits (n : Nat) :
    ((Nat.toDigits 10 n).length > 1 && (Nat.toDigits 10 n).head? == some '0') = false := by
  rcases Nat.eq_zero_or_pos n with rfl | hn
  · rfl
  · rw [Bool.and_eq_false_iff, beq_eq_false_iff_ne]
    exact .inr (head?_toDigits_ne_zero hn)

theorem number_natural (n : Nat) {rest : List Char} (h : EndsNumber rest) :
    number (Nat.toDigits 10 n ++ rest) = some (.integer n, rest) := by
  have hvalue : numberOf (Nat.toDigits 10 n) = n := Nat.ofDigitChars_ten_toDigits
  have hempty : (Nat.toDigits 10 n).isEmpty = false := by simp [Nat.toDigits_ne_nil]
  have hdigits := digits_append (isDigit_of_mem_toDigits n) h
  have hsign : ∀ r, Nat.toDigits 10 n ++ rest ≠ '-' :: r := by
    intro r heq
    have hhead : (Nat.toDigits 10 n).head? = some '-' := by
      rw [← List.head?_append_of_ne_nil _ Nat.toDigits_ne_nil, heq]
      rfl
    exact absurd (isDigit_of_mem_toDigits n _ (List.mem_of_head? hhead)) (by decide)
  unfold number
  split
  · next negative s heq =>
    split at heq
    · next r hminus => exact absurd hminus (hsign r)
    · obtain ⟨rfl, rfl⟩ := Prod.mk.inj heq
      simp [hdigits, hempty, hasLeadingZero_toDigits, fraction_of_endsNumber h,
        exponent_of_endsNumber h, hvalue]

theorem number_negative {n : Nat} (hn : 0 < n) {rest : List Char} (h : EndsNumber rest) :
    number ('-' :: (Nat.toDigits 10 n ++ rest)) = some (.integer (-n), rest) := by
  have hvalue : numberOf (Nat.toDigits 10 n) = n := Nat.ofDigitChars_ten_toDigits
  have hempty : (Nat.toDigits 10 n).isEmpty = false := by simp [Nat.toDigits_ne_nil]
  have hdigits := digits_append (isDigit_of_mem_toDigits n) h
  simp [number, hdigits, hempty, hasLeadingZero_toDigits, fraction_of_endsNumber h,
    exponent_of_endsNumber h, hvalue, hn.ne']

/-! ## Whole numbers -/

/-- A character that begins a number. -/
def BeginsNumber (c : Char) : Prop := c.isDigit = true ∨ c = '-'

theorem BeginsNumber.ne {c d : Char} (hc : BeginsNumber c) (hd : d.isDigit = false ∧ d ≠ '-') :
    c ≠ d := by
  rintro rfl
  rcases hc with hc | hc
  · exact Bool.false_ne_true (hd.1.symm.trans hc)
  · exact hd.2 hc

theorem toList_toString_ofNat (n : Nat) : (toString (n : Int)).toList = Nat.toDigits 10 n :=
  String.toList_ofList

theorem toList_toString_negSucc (n : Nat) :
    (toString (Int.negSucc n)).toList = '-' :: Nat.toDigits 10 (n + 1) := by
  show ("-" ++ String.ofList (Nat.toDigits 10 (n + 1))).toList = _
  simp

theorem exists_toDigits_eq_cons (n : Nat) :
    ∃ c s, Nat.toDigits 10 n = c :: s ∧ BeginsNumber c := by
  obtain ⟨c, s, hs⟩ := List.exists_cons_of_ne_nil (Nat.toDigits_ne_nil (b := 10) (n := n))
  exact ⟨c, s, hs, .inl (isDigit_of_mem_toDigits n c (hs ▸ List.mem_cons_self))⟩

theorem exists_toString_eq_cons (n : Int) :
    ∃ c s, (toString n).toList = c :: s ∧ BeginsNumber c := by
  cases n with
  | ofNat n =>
    obtain ⟨c, s, hs, hc⟩ := exists_toDigits_eq_cons n
    exact ⟨c, s, (toList_toString_ofNat n).trans hs, hc⟩
  | negSucc n => exact ⟨'-', _, toList_toString_negSucc n, .inr rfl⟩

/-- A printed whole number is read as the number. -/
theorem number_toString (i : Int) {rest : List Char} (h : EndsNumber rest) :
    number ((toString i).toList ++ rest) = some (.integer i, rest) := by
  cases i with
  | ofNat n =>
    rw [Int.ofNat_eq_natCast, toList_toString_ofNat]
    exact number_natural n h
  | negSucc n =>
    rw [toList_toString_negSucc]
    exact number_negative n.succ_pos h

end Filing.Json
