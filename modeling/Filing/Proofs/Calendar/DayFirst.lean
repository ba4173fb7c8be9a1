import Filing.Proofs.Calendar.Parts

/-!
# Signing dates read back

A signature carries a day, a document only its text. Writing the day with slashes between its parts
and reading that text by the same format gives the day back, whatever its year.
-/

namespace Filing.Calendar

open Filing.Text (isBlank_eq_false_of_isDigit isDigit_of_mem_padded padded padded_ne_nil
  strip_eq_self trim)

theorem items?_dayFirstFormat :
    items? dayFirstFormat = some [.number (ranged .day 2 1 31), .char '/',
      .number (ranged .month 2 1 12), .char '/', .number (signedYear .year)] := rfl

/-- The text of a day tells its day, its month and its year. -/
theorem facts?_dayFirstText (d : Date) :
    facts? [.number (ranged .day 2 1 31), .char '/', .number (ranged .month 2 1 12), .char '/',
      .number (signedYear .year)] d.dayFirstText.toList =
      some [⟨.day, d.day⟩, ⟨.month, d.month⟩, ⟨.year, d.year⟩] := by
  have hslash : ∀ rest : List Char, ∀ c ∈ ('/' :: rest).head?, c.isDigit = false :=
    isDigit_head?_cons rfl
  have hyear : (Item.number (signedYear .year)).read? (Date.yearText d.year ++ []) =
      some ([⟨.year, d.year⟩], []) := read?_signedYear .year d.year nofun
  rw [List.append_nil] at hyear
  have htext : d.dayFirstText.toList =
      padded 2 d.day ++ '/' :: (padded 2 d.month ++ '/' :: Date.yearText d.year) := by
    simp [Date.dayFirstText]
  rw [htext, facts?, read?_day d (hslash _)]
  simp only [Option.bind_eq_bind, Option.bind_some]
  rw [facts?]
  simp only [Item.read?, if_true, Option.bind_eq_bind, Option.bind_some]
  rw [facts?, read?_month d (hslash _)]
  simp only [Option.bind_eq_bind, Option.bind_some]
  rw [facts?]
  simp only [Item.read?, if_true, Option.bind_eq_bind, Option.bind_some]
  rw [facts?, hyear]
  rfl

/-- No blank stands at either end of a date. -/
theorem trim_dayFirstText (d : Date) : trim d.dayFirstText = d.dayFirstText := by
  unfold trim
  rw [strip_eq_self]
  · exact String.ofList_toList
  · intro c hc
    obtain ⟨x, more, hx, hdigit⟩ := exists_cons_of_padded 2 d.day
    simp only [Date.dayFirstText, String.toList_ofList, hx, List.cons_append, List.head?_cons,
      Option.mem_some_iff] at hc
    exact hc ▸ isBlank_eq_false_of_isDigit hdigit
  · intro c hc
    have hyear : ∃ front n, d.dayFirstText.toList = front ++ padded 4 n := by
      simp only [Date.dayFirstText, String.toList_ofList, Date.yearText]
      split
      · exact ⟨padded 2 d.day ++ '/' :: padded 2 d.month ++ ['/'], d.year.toNat, by simp⟩
      · split
        · exact ⟨padded 2 d.day ++ '/' :: padded 2 d.month ++ ['/', '-'], d.year.natAbs, by simp⟩
        · exact ⟨padded 2 d.day ++ '/' :: padded 2 d.month ++ ['/', '+'], d.year.natAbs, by simp⟩
    obtain ⟨front, n, hn⟩ := hyear
    rw [hn, List.getLast?_append, List.getLast?_eq_some_getLast (padded_ne_nil 4 n),
      Option.some_or, Option.mem_some_iff] at hc
    have hmem : c ∈ padded 4 n := hc ▸ List.getLast_mem (padded_ne_nil 4 n)
    exact isBlank_eq_false_of_isDigit (isDigit_of_mem_padded hmem)

/-- The text of a signing date, blanks around it dropped, reads back as the date. -/
theorem readDate?_dayFirstText (d : Date) :
    readDate? dayFirstFormat (trim d.dayFirstText) = some d := by
  have hdate : Facts.date? [⟨.day, d.day⟩, ⟨.month, d.month⟩, ⟨.year, d.year⟩] = some d := by
    refine date?_of_parts (fun f hf => ?_) rfl rfl rfl
    exact List.mem_reverse.1 (show f ∈ d.parts.reverse from hf)
  rw [trim_dayFirstText]
  exact readDate?_of_facts? items?_dayFirstFormat (facts?_dayFirstText d) hdate

end Filing.Calendar
