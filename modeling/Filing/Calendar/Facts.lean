import Filing.Calendar.Date

/-!
# What a text tells about a date

Reading a date by a format yields *facts*: the month is 5, the weekday is Monday. The facts must not
contradict each other, some group of them must determine a date, and the date must agree with all of
them. Facts about the time of day, about the distance from universal time and about the seconds
counted from an epoch are only looked at for contradictions among themselves.
-/

namespace Filing.Calendar

/-- What a fact can be about. -/
inductive Aspect where
  /-- The year. -/
  | year
  /-- The year without its last two digits; years below 0 have none. -/
  | century
  /-- The last two digits of the year; years below 0 have none. -/
  | yearOfCentury
  /-- The quarter of the year, from 1 to 4. -/
  | quarter
  /-- The month. -/
  | month
  /-- The day of the month. -/
  | day
  /-- The day of the year. -/
  | dayOfYear
  /-- The weekday, counted from Monday as 0. -/
  | weekday
  /-- The week of the year, weeks starting on Sundays. -/
  | weekFromSunday
  /-- The week of the year, weeks starting on Mondays. -/
  | weekFromMonday
  /-- The year to which the week belongs as a whole. -/
  | isoYear
  /-- The last two digits of that year. -/
  | isoYearOfCentury
  /-- The week of that year. -/
  | isoWeek
  /-- Before or after noon. -/
  | halfDay
  /-- The hour of the half day, from 0 to 11. -/
  | hourOfHalfDay
  /-- The minute. -/
  | minute
  /-- The second. -/
  | second
  /-- The fraction of the second, in billionths. -/
  | nanosecond
  /-- How far the local time is ahead of universal time, in seconds. -/
  | offset
  /-- The seconds since the start of 1970, universal time. -/
  | timestamp
deriving DecidableEq, Repr

/-- A single fact. -/
structure Fact where
  /-- What it is about. -/
  aspect : Aspect
  /-- The value it gives. -/
  value : Int
deriving DecidableEq, Repr

/-- What is known of a date. -/
abbrev Facts := List Fact

/-- What a date says about an aspect, if anything. -/
def Date.tell? (d : Date) : Aspect → Option Int
  | .year => some d.year
  | .century => if 0 ≤ d.year then some (d.year / 100) else none
  | .yearOfCentury => if 0 ≤ d.year then some (d.year % 100) else none
  | .quarter => some ((d.month + 2) / 3 : Nat)
  | .month => some d.month
  | .day => some d.day
  | .dayOfYear => some d.dayOfYear
  | .weekday => some d.weekday
  | .weekFromSunday => some (d.weekFrom 6)
  | .weekFromMonday => some (d.weekFrom 0)
  | .isoYear => some d.isoWeek.1
  | .isoYearOfCentury => if 0 ≤ d.isoWeek.1 then some (d.isoWeek.1 % 100) else none
  | .isoWeek => some d.isoWeek.2
  | .halfDay => none
  | .hourOfHalfDay => none
  | .minute => none
  | .second => none
  | .nanosecond => none
  | .offset => none
  | .timestamp => none

/-- A fact about the date by the calendar, and not about the time. -/
def Aspect.isOfDate : Aspect → Bool
  | .halfDay => false
  | .hourOfHalfDay => false
  | .minute => false
  | .second => false
  | .nanosecond => false
  | .offset => false
  | .timestamp => false
  | _ => true

namespace Facts

/-- The first value given for an aspect. -/
def get? (facts : Facts) (a : Aspect) : Option Int :=
  (List.find? (·.aspect == a) facts).map (·.value)

/-- The first value given for an aspect, as a natural number. -/
def getNat? (facts : Facts) (a : Aspect) : Option Nat := (facts.get? a).map Int.toNat

/-- No aspect is given two values. -/
def consistent (facts : Facts) : Bool := facts.all fun f => facts.get? f.aspect == some f.value

/-- The date says the same as each fact about it. -/
def agreeWith (facts : Facts) (d : Date) : Bool :=
  facts.all fun f => !f.aspect.isOfDate || d.tell? f.aspect == some f.value

/-- A year from its full value, its century and its last two digits; two digits alone mean a year
from 1970 to 2069, and a century alone is not enough. The inner `none` says that nothing is
known. -/
def yearOf? : Option Int → Option Int → Option Int → Option (Option Int)
  | some y, _, _ => some (some y)
  | none, some c, some r => some (some (c * 100 + r))
  | none, none, some r => some (some (if r < 70 then r + 2000 else r + 1900))
  | none, some _, none => none
  | none, none, none => some none

/-- The date that the first sufficient group of facts determines. -/
def candidate? (facts : Facts) : Option Date := do
  let year ← yearOf? (facts.get? .year) (facts.get? .century) (facts.get? .yearOfCentury)
  let isoYear ← yearOf? (facts.get? .isoYear) none (facts.get? .isoYearOfCentury)
  match year, facts.getNat? .month, facts.getNat? .day with
  | some y, some m, some d => Date.ofParts? y m d
  | _, _, _ =>
    match year, facts.getNat? .dayOfYear with
    | some y, some n => Date.ofDayOfYear? y n
    | _, _ =>
      match year, facts.getNat? .weekFromSunday, facts.getNat? .weekday with
      | some y, some w, some d => Date.ofWeek? 6 y w d
      | _, _, _ =>
        match year, facts.getNat? .weekFromMonday, facts.getNat? .weekday with
        | some y, some w, some d => Date.ofWeek? 0 y w d
        | _, _, _ =>
          match isoYear, facts.getNat? .isoWeek, facts.getNat? .weekday with
          | some y, some w, some d => Date.ofIsoWeek? y w d
          | _, _, _ => none

/-- The date that the facts determine and that agrees with all of them. -/
def date? (facts : Facts) : Option Date :=
  if facts.consistent then facts.candidate?.filter facts.agreeWith else none

end Facts

end Filing.Calendar
