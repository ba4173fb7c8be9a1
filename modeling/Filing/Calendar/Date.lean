import Filing.Text.Natural

/-!
# Dates

Days of the Gregorian calendar, extended to all years from -262143 to 262142. A date is stored by
year, month and day, and holds the proof that the day exists. Its place in the year and its weekday
are computed from that, and so are the two ways of counting weeks.
-/

namespace Filing.Calendar

open Filing.Text (padded)

/-- The first year of the calendar. -/
def minYear : Int := -262143

/-- The last year of the calendar. -/
def maxYear : Int := 262142

/-- A year with a 29th of February. -/
def isLeapYear (year : Int) : Bool := year % 4 == 0 && (year % 100 != 0 || year % 400 == 0)

/-- The number of days of a month. -/
def monthLength (year : Int) (month : Nat) : Nat :=
  if month = 2 then if isLeapYear year then 29 else 28
  else if month = 4 ∨ month = 6 ∨ month = 9 ∨ month = 11 then 30
  else 31

/-- The number of days of a year. -/
def yearLength (year : Int) : Nat := if isLeapYear year then 366 else 365

/-- The day exists and lies in a year of the calendar. -/
def Exists (year : Int) (month day : Nat) : Prop :=
  (minYear ≤ year ∧ year ≤ maxYear) ∧ (1 ≤ month ∧ month ≤ 12) ∧
    1 ≤ day ∧ day ≤ monthLength year month

instance (year : Int) (month day : Nat) : Decidable (Exists year month day) :=
  inferInstanceAs (Decidable (_ ∧ _ ∧ _ ∧ _))

/-- A day of the calendar. -/
structure Date where
  /-- The year; 0 is the year before 1. -/
  year : Int
  /-- The month, from 1 to 12. -/
  month : Nat
  /-- The day of the month, from 1 on. -/
  day : Nat
  /-- There is such a day. -/
  exist : Exists year month day
deriving DecidableEq, Repr

namespace Date

/-- The date with the given parts, if there is one. -/
def ofParts? (year : Int) (month day : Nat) : Option Date :=
  if h : Exists year month day then some ⟨year, month, day, h⟩ else none

/-- The number of days of a year before one of its months. -/
def daysBefore (year : Int) (month : Nat) : Nat :=
  (List.range (month - 1)).foldl (fun days i => days + monthLength year (i + 1)) 0

/-- The place of a date in its year, from 1 on. -/
def dayOfYear (d : Date) : Nat := daysBefore d.year d.month + d.day

/-- The months and days of a year from the given month on, looked through for the `n`-th day. -/
def locate? (year : Int) : List Nat → Nat → Option Date
  | [], _ => none
  | month :: months, n =>
    if n ≤ monthLength year month then ofParts? year month n
    else locate? year months (n - monthLength year month)

/-- The `n`-th day of a year. -/
def ofDayOfYear? (year : Int) (n : Nat) : Option Date :=
  locate? year [1, 2, 3, 4, 5, 6, 7, 8, 9, 10, 11, 12] n

/-- The weekday of the first of January, counted from Monday as 0. -/
def newYearWeekday (year : Int) : Nat :=
  let y := year - 1
  ((365 * y + y / 4 - y / 100 + y / 400) % 7).toNat

/-- The weekday of a date, counted from Monday as 0. -/
def weekday (d : Date) : Nat := (newYearWeekday d.year + d.dayOfYear - 1) % 7

/-- The week of a date within its year, weeks starting on weekday `start`; the days before the first
such weekday are week 0. -/
def weekFrom (start : Nat) (d : Date) : Nat := (d.dayOfYear + 6 - (d.weekday + 7 - start) % 7) / 7

/-- The number of weeks of a year whose weeks start on Mondays and belong to the year in which their
Thursday lies. -/
def isoWeeks (year : Int) : Nat :=
  let first := newYearWeekday year
  if first = 3 ∨ (first = 2 ∧ isLeapYear year = true) then 53 else 52

/-- Year and week of a date, weeks starting on Mondays and belonging to the year of their
Thursday. -/
def isoWeek (d : Date) : Int × Nat :=
  let week := (d.dayOfYear + 9 - d.weekday) / 7
  if week = 0 then (d.year - 1, isoWeeks (d.year - 1))
  else if isoWeeks d.year < week then (d.year + 1, 1)
  else (d.year, week)

/-- The day of a year given by the number of days from its first of January, which may lie a few
days outside of it. -/
def ofOffset? (year : Int) (n : Int) : Option Date :=
  if n < 0 then ofDayOfYear? (year - 1) (n + yearLength (year - 1) + 1).toNat
  else if n < yearLength year then ofDayOfYear? year (n + 1).toNat
  else ofDayOfYear? (year + 1) (n - yearLength year + 1).toNat

/-- The day with a weekday in a week of a year, weeks starting on weekday `start`. -/
def ofWeek? (start : Nat) (year : Int) (week weekday : Nat) : Option Date :=
  let first : Int := ((start + 7 - newYearWeekday year) % 7 : Nat)
  let n := first + (week - 1 : Int) * 7 + ((weekday + 7 - start) % 7 : Nat)
  if 0 ≤ n ∧ n < yearLength year then ofOffset? year n else none

/-- The day with a weekday in a week of a year, weeks starting on Mondays and belonging to the year
of their Thursday. -/
def ofIsoWeek? (year : Int) (week weekday : Nat) : Option Date :=
  let first := newYearWeekday year
  let monday : Int := if first ≤ 3 then -(first : Int) else 7 - first
  ofOffset? year (monday + (week - 1 : Int) * 7 + weekday)

/-! ## Writing -/

/-- A year of four digits; years outside 0 to 9999 carry a sign. -/
def yearText (year : Int) : List Char :=
  if 0 ≤ year ∧ year ≤ 9999 then padded 4 year.toNat
  else if year < 0 then '-' :: padded 4 year.natAbs
  else '+' :: padded 4 year.natAbs

/-- A date as year, month and day with hyphens between. -/
def isoText (d : Date) : String :=
  String.ofList (yearText d.year ++ '-' :: padded 2 d.month ++ '-' :: padded 2 d.day)

/-- A date as day, month and year with slashes between. -/
def dayFirstText (d : Date) : String :=
  String.ofList (padded 2 d.day ++ '/' :: padded 2 d.month ++ '/' :: yearText d.year)

instance : ToString Date := ⟨isoText⟩

end Date

end Filing.Calendar
