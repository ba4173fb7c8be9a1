import Filing.Proofs.Calendar.Parts

/-!
# Stored dates read back

Form data is stored with its signing date as year, month and day, hyphens between. The reader takes
the date back from that text for every day of the calendar, also where the year has more than four
digits or a sign.
-/

namespace Filing.Calendar

open Filing.Text (padded)

theorem items?_isoFormat :
    items? isoFormat = some [.number (signedYear .year), .blanks, .char '-',
      .number (ranged .month 2 1 12), .blanks, .char '-', .number (ranged .day 2 1 31),
      .blanks] := rfl

theorem facts?_isoText (d : Date) :
    facts? [.number (signedYear .year), .blanks, .char '-', .number (ranged .month 2 1 12), .blanks,
      .char '-', .number (ranged .day 2 1 31), .blanks] d.isoText.toList = some d.parts := by
  have hhyphen : ∀ rest : List Char, ∀ c ∈ ('-' :: rest).head?, c.isDigit = false :=
    isDigit_head?_cons rfl
  -- no blanks stand in front of a hyphen
  have hblanks : ∀ rest : List Char, Item.blanks.read? ('-' :: rest) = some ([], '-' :: rest) :=
    fun rest => rfl
  have hchar : ∀ rest : List Char, (Item.char '-').read? ('-' :: rest) = some ([], rest) :=
    fun rest => rfl
  have hday : (Item.number (ranged .day 2 1 31)).read? (padded 2 d.day ++ []) =
      some ([⟨.day, d.day⟩], []) := read?_day d nofun
  rw [List.append_nil] at hday
  have htext : d.isoText.toList =
      Date.yearText d.year ++ '-' :: (padded 2 d.month ++ '-' :: padded 2 d.day) := by
    simp [Date.isoText]
  rw [htext]
  simp only [facts?, read?_signedYear .year d.year (hhyphen _), hblanks, hchar,
    read?_month d (hhyphen _), hday, Option.bind_eq_bind, Option.bind_some]
  rfl

/-- The stored text of a date reads back as the date. -/
theorem readDate?_isoText (d : Date) : readDate? isoFormat d.isoText = some d := by
  have hdate : Facts.date? d.parts = some d := date?_of_parts (fun f hf => hf) rfl rfl rfl
  exact readDate?_of_facts? items?_isoFormat (facts?_isoText d) hdate

end Filing.Calendar
