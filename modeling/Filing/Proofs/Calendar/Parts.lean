import Filing.Calendar.Format
import Filing.Proofs.Text.Numbers
import Mathlib.Algebra.Group.Nat.Defs

/-!
# The parts of a written date

A date is written as day, month and year, in some order, each as a number. A format reads a number up
to the first character that is no digit, so each part reads back whatever stands between them: a day
or a month from its two digits, a year from four digits without a sign, or from a sign and at least
four digits. The three parts together are one date only.
-/

namespace Filing.Calendar

open Filing.Text (isBlank isBlank_eq_false_of_isDigit isDigit_of_mem_padded length_padded numberOf
  numberOf_padded padded padded_ne_nil)

/-! ## Padded numbers -/

/-- What stands between the parts of a date ends a number. -/
theorem isDigit_head?_cons {separator : Char} (h : separator.isDigit = false) (rest : List Char) :
    ∀ c ∈ (separator :: rest).head?, c.isDigit = false := by
  intro c hc
  rw [List.head?_cons, Option.mem_some_iff] at hc
  exact hc ▸ h

/-- Digits up to something that is none, or up to the end, are read as a number. -/
theorem digits?_append {width : Option Nat} {ds rest : List Char}
    (hds : ∀ c ∈ ds, c.isDigit = true) (hne : ds ≠ []) (hrest : ∀ c ∈ rest.head?, c.isDigit = false)
    (hwidth : ∀ w ∈ width, ds.length ≤ w) :
    digits? width (ds ++ rest) = some (numberOf ds, rest) := by
  have hrun : ∀ t : List Char, (∀ c ∈ t.head?, c.isDigit = false) →
      (ds ++ t).takeWhile Char.isDigit = ds := by
    intro t ht
    rw [List.takeWhile_append_of_pos hds]
    cases t with
    | nil => simp
    | cons c t => simp [ht c (by simp)]
  have htake : (width.elim (ds ++ rest) (ds ++ rest).take).takeWhile Char.isDigit = ds := by
    cases width with
    | none => exact hrun rest hrest
    | some w =>
      have hw : ds.length ≤ w := hwidth w rfl
      rw [Option.elim_some, List.take_append, List.take_of_length_le hw]
      apply hrun
      intro c hc
      cases rest with
      | nil => simp at hc
      | cons d rest =>
        cases hk : w - ds.length with
        | zero => simp [hk] at hc
        | succ k =>
          rw [hk, List.take_succ_cons] at hc
          exact hrest c hc
  have hempty : ¬ ds.isEmpty = true := fun h => hne (List.isEmpty_iff.1 h)
  simp only [digits?, htake]
  rw [if_neg hempty, List.drop_left]

section

variable {n : Nat} {rest : List Char} (hrest : ∀ c ∈ rest.head?, c.isDigit = false)

include hrest

theorem digits?_padded {width : Option Nat} {pad : Nat}
    (hwidth : ∀ w ∈ width, (padded pad n).length ≤ w) :
    digits? width (padded pad n ++ rest) = some (n, rest) := by
  rw [digits?_append (fun d hd => isDigit_of_mem_padded hd) (padded_ne_nil pad n) hrest hwidth,
    numberOf_padded]

/-- A number that fits is read from the digits that make up its width. -/
theorem digits?_padded_of_lt {width : Nat} (hwidth : 0 < width) (h : n < 10 ^ width) :
    digits? (some width) (padded width n ++ rest) = some (n, rest) := by
  refine digits?_padded hrest fun w hw => ?_
  rw [Option.mem_some_iff] at hw
  have hlength : (padded width n).length = width :=
    length_padded ((Nat.length_toDigits_le_iff (by omega) hwidth).2 h)
  omega

end

/-! ## Days, months and years -/

/-- A text that begins with a digit has no blanks in front and is no sign. -/
theorem exists_cons_of_padded (width n : Nat) :
    ∃ c rest, padded width n = c :: rest ∧ c.isDigit = true := by
  cases h : padded width n with
  | nil => exact absurd h (padded_ne_nil width n)
  | cons c rest => exact ⟨c, rest, rfl, isDigit_of_mem_padded (h ▸ List.mem_cons_self)⟩

/-- A field of two digits reads the number written for it. -/
theorem read?_ranged {a : Aspect} {low high : Int} {n : Nat} (hn : n < 100) (hlow : low ≤ n)
    (hhigh : n ≤ high) {rest : List Char} (hrest : ∀ c ∈ rest.head?, c.isDigit = false) :
    (Item.number (ranged a 2 low high)).read? (padded 2 n ++ rest) = some ([⟨a, n⟩], rest) := by
  have hread : digits? (some 2) (padded 2 n ++ rest) = some (n, rest) :=
    digits?_padded_of_lt hrest (by omega) hn
  obtain ⟨d, more, hd, hdigit⟩ := exists_cons_of_padded 2 n
  have hblank : (padded 2 n ++ rest).dropWhile isBlank = padded 2 n ++ rest := by
    rw [hd, List.cons_append, List.dropWhile_cons, isBlank_eq_false_of_isDigit hdigit]
    rfl
  simp only [Item.read?, hblank, NumberField.read?, ranged, hread, Option.map_some,
    Option.bind_eq_bind, Option.bind_some]
  rw [if_pos ⟨hlow, hhigh⟩]
  rfl

/-- A year reads back: with four digits, or behind a sign with all of its digits. -/
theorem read?_signedYear (a : Aspect) (year : Int) {rest : List Char}
    (hrest : ∀ c ∈ rest.head?, c.isDigit = false) :
    (Item.number (signedYear a)).read? (Date.yearText year ++ rest) = some ([⟨a, year⟩], rest) := by
  unfold Date.yearText
  split
  · next h =>
    obtain ⟨d, more, hd, hdigit⟩ := exists_cons_of_padded 4 year.toNat
    have hread : digits? (some 4) (padded 4 year.toNat ++ rest) = some (year.toNat, rest) :=
      digits?_padded_of_lt hrest (by omega) (by omega)
    have hblank : isBlank d = false := isBlank_eq_false_of_isDigit hdigit
    have hminus : d ≠ '-' := by rintro rfl; exact absurd hdigit (by decide)
    have hplus : d ≠ '+' := by rintro rfl; exact absurd hdigit (by decide)
    rw [hd] at hread ⊢
    rw [List.cons_append] at hread ⊢
    have hnat : ((year.toNat : Nat) : Int) = year := Int.toNat_of_nonneg h.1
    simp [Item.read?, NumberField.read?, signedYear, List.dropWhile, hblank, hminus, hplus, hread,
      hnat]
  · next h =>
    generalize hm : year.natAbs = m
    have hread : digits? none (padded 4 m ++ rest) = some (m, rest) :=
      digits?_padded hrest (by simp)
    split
    · next hneg =>
      have hnat : -(m : Int) = year := by omega
      have hblank : isBlank '-' = false := by decide
      simp [Item.read?, NumberField.read?, signedYear, hblank, hread, hnat]
    · next hpos =>
      have hnat : (m : Int) = year := by omega
      have hblank : isBlank '+' = false := by decide
      simp [Item.read?, NumberField.read?, signedYear, hblank, hread, hnat]

theorem Date.day_le (d : Date) : d.day ≤ 31 := by
  obtain ⟨-, -, -, hday⟩ := d.exist
  have hlength : monthLength d.year d.month ≤ 31 := by
    unfold monthLength
    split
    · split <;> omega
    · split <;> omega
  omega

/-- The day of a date is read from its two digits. -/
theorem read?_day (d : Date) {rest : List Char} (hrest : ∀ c ∈ rest.head?, c.isDigit = false) :
    (Item.number (ranged .day 2 1 31)).read? (padded 2 d.day ++ rest) =
      some ([⟨.day, d.day⟩], rest) := by
  obtain ⟨-, -, hday, -⟩ := d.exist
  have hle := d.day_le
  exact read?_ranged (by omega) (by omega) (by omega) hrest

/-- The month of a date is read from its two digits. -/
theorem read?_month (d : Date) {rest : List Char} (hrest : ∀ c ∈ rest.head?, c.isDigit = false) :
    (Item.number (ranged .month 2 1 12)).read? (padded 2 d.month ++ rest) =
      some ([⟨.month, d.month⟩], rest) := by
  obtain ⟨-, ⟨hlow, hhigh⟩, -⟩ := d.exist
  exact read?_ranged (by omega) (by omega) (by omega) hrest

/-! ## From the parts to the date -/

/-- The facts that a date written by day, month and year tells. -/
def Date.parts (d : Date) : List Fact := [⟨.year, d.year⟩, ⟨.month, d.month⟩, ⟨.day, d.day⟩]

theorem forall_mem_of_parts {d : Date} {facts : Facts} (hfacts : ∀ f ∈ facts, f ∈ d.parts)
    {P : Fact → Prop} (hyear : P ⟨.year, d.year⟩) (hmonth : P ⟨.month, d.month⟩)
    (hday : P ⟨.day, d.day⟩) : ∀ f ∈ facts, P f := by
  intro f hf
  have hpart := hfacts f hf
  simp only [Date.parts, List.mem_cons, List.not_mem_nil, or_false] at hpart
  rcases hpart with rfl | rfl | rfl
  · exact hyear
  · exact hmonth
  · exact hday

/-- Day, month and year, told in any order, determine the date and agree with it. -/
theorem date?_of_parts {d : Date} {facts : Facts} (hfacts : ∀ f ∈ facts, f ∈ d.parts)
    (hyear : facts.get? .year = some d.year) (hmonth : facts.get? .month = some ↑d.month)
    (hday : facts.get? .day = some ↑d.day) : facts.date? = some d := by
  have hother : ∀ a, a ≠ .year → a ≠ .month → a ≠ .day → facts.get? a = none := by
    intro a hy hm hd
    rw [Facts.get?, Option.map_eq_none_iff, List.find?_eq_none]
    refine forall_mem_of_parts hfacts ?_ ?_ ?_
    · simpa using hy.symm
    · simpa using hm.symm
    · simpa using hd.symm
  have hexists : Date.ofParts? d.year d.month d.day = some d := by
    unfold Date.ofParts?
    rw [dif_pos d.exist]
  have hconsistent : facts.consistent = true := by
    refine List.all_eq_true.2 (forall_mem_of_parts hfacts ?_ ?_ ?_)
    · simp [hyear]
    · simp [hmonth]
    · simp [hday]
  have hcandidate : facts.candidate? = some d := by
    have hcentury := hother .century nofun nofun nofun
    have hyearOfCentury := hother .yearOfCentury nofun nofun nofun
    have hisoYear := hother .isoYear nofun nofun nofun
    have hisoYearOfCentury := hother .isoYearOfCentury nofun nofun nofun
    simp [Facts.candidate?, Facts.getNat?, Facts.yearOf?, hyear, hmonth, hday, hcentury,
      hyearOfCentury, hisoYear, hisoYearOfCentury, hexists]
  have hagree : facts.agreeWith d = true := by
    refine List.all_eq_true.2 (forall_mem_of_parts hfacts ?_ ?_ ?_)
    · simp [Date.tell?]
    · simp [Date.tell?]
    · simp [Date.tell?]
  rw [Facts.date?, if_pos hconsistent, hcandidate, Option.filter_some, if_pos hagree]

theorem readDate?_of_facts? {format text : String} {items : List Item} {facts : Facts} {d : Date}
    (hitems : items? format = some items) (hfacts : facts? items text.toList = some facts)
    (hdate : facts.date? = some d) : readDate? format text = some d := by
  unfold readDate?
  rw [hitems, Option.bind_eq_bind, Option.bind_some, hfacts, Option.bind_eq_bind, Option.bind_some,
    hdate]

end Filing.Calendar
