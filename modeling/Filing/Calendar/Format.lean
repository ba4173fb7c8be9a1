import Filing.Calendar.Facts
import Filing.Text.Blank

/-!
# Reading dates by format

A format is a text with conversions, each a percent sign and one or a few characters, that says how
a date is written. Blanks in it stand for any number of blanks, also none; other characters stand
for themselves. A number may be preceded by blanks and needs no leading zeros.

A conversion that writes several parts is read as those parts; a format with a conversion that is
not listed here matches nothing.
-/

namespace Filing.Calendar

open Filing.Text (isBlank numberOf)

/-- A number in a date text. -/
structure NumberField where
  /-- The largest number of digits, if there is one; a sign lifts the bound. -/
  width : Option Nat
  /-- A sign may stand in front. -/
  signed : Bool := false
  /-- The facts told by the number, unless it is out of range. -/
  facts : Int → Option Facts

/-- How a distance from universal time may be written, besides a sign, two digits for the hours and
two for the minutes. -/
structure OffsetForm where
  /-- A letter Z stands for no distance. -/
  zulu : Bool := false
  /-- The letters UTC stand for no distance. -/
  universal : Bool := false
  /-- The minutes may be missing at the end of the text. -/
  bareHours : Bool := false

/-- A part of a format. -/
inductive Item where
  /-- Any number of blanks. -/
  | blanks
  /-- The character itself. -/
  | char (c : Char)
  /-- A number. -/
  | number (field : NumberField)
  /-- The name of a month; `full` admits its full form. -/
  | monthName (full : Bool)
  /-- The name of a weekday; `full` admits its full form. -/
  | weekdayName (full : Bool)
  /-- One of AM and PM. -/
  | halfDay
  /-- A point and the digits of a fraction of a second, as many as given or else at least one; both
  may be missing. -/
  | fraction (places : Option Nat)
  /-- The digits of a fraction of a second without the point, as many as given. -/
  | bareFraction (places : Nat)
  /-- The mark between a date and a time: a letter T or a space. -/
  | timeMark
  /-- The name of a time zone, which is any characters other than blanks. -/
  | zoneName
  /-- A distance from universal time. -/
  | offset (form : OffsetForm)

/-! ## Numbers -/

/-- A number within bounds that tells one fact. -/
def ranged (a : Aspect) (width : Nat) (low high : Int) : NumberField where
  width := some width
  facts n := if low ≤ n ∧ n ≤ high then some [⟨a, n⟩] else none

/-- A year of four digits, or of any number of digits behind a sign. -/
def signedYear (a : Aspect) : NumberField where
  width := some 4
  signed := true
  facts n := some [⟨a, n⟩]

/-- The hour of the day. -/
def hour24 : NumberField where
  width := some 2
  facts n := if n ≤ 23 then some [⟨.halfDay, n / 12⟩, ⟨.hourOfHalfDay, n % 12⟩] else none

/-- The hour of the half day, from 1 to 12. -/
def hour12 : NumberField where
  width := some 2
  facts n := if 1 ≤ n ∧ n ≤ 12 then some [⟨.hourOfHalfDay, n % 12⟩] else none

/-- The weekday as a number from Sunday, which is 0. -/
def weekdayFromSunday : NumberField where
  width := some 1
  facts n := if n ≤ 6 then some [⟨.weekday, (n + 6) % 7⟩] else none

/-- The weekday as a number from Monday, which is 1. -/
def weekdayFromMonday : NumberField where
  width := some 1
  facts n := if 1 ≤ n ∧ n ≤ 7 then some [⟨.weekday, n - 1⟩] else none

/-- Seconds since the start of 1970, without sign and with 63 bits. -/
def secondCount : NumberField where
  width := none
  facts n := if n ≤ 0x7FFFFFFFFFFFFFFF then some [⟨.timestamp, n⟩] else none

/-- The number that a letter stands for. -/
def numberField? : Char → Option NumberField
  | 'Y' => some (signedYear .year)
  | 'C' => some (ranged .century 2 0 99)
  | 'y' => some (ranged .yearOfCentury 2 0 99)
  | 'q' => some (ranged .quarter 1 1 4)
  | 'm' => some (ranged .month 2 1 12)
  | 'd' => some (ranged .day 2 1 31)
  | 'e' => some (ranged .day 2 1 31)
  | 'j' => some (ranged .dayOfYear 3 1 366)
  | 'U' => some (ranged .weekFromSunday 2 0 53)
  | 'W' => some (ranged .weekFromMonday 2 0 53)
  | 'G' => some (signedYear .isoYear)
  | 'g' => some (ranged .isoYearOfCentury 2 0 99)
  | 'V' => some (ranged .isoWeek 2 1 53)
  | 'w' => some weekdayFromSunday
  | 'u' => some weekdayFromMonday
  | 'H' => some hour24
  | 'k' => some hour24
  | 'I' => some hour12
  | 'l' => some hour12
  | 'M' => some (ranged .minute 2 0 59)
  | 'S' => some (ranged .second 2 0 60)
  | 'f' => some (ranged .nanosecond 9 0 999999999)
  | 's' => some secondCount
  | _ => none

/-! ## Formats -/

/-- The part of a format that a single letter stands for. -/
def letterItem? : Char → Option Item
  | 'b' => some (.monthName false)
  | 'h' => some (.monthName false)
  | 'B' => some (.monthName true)
  | 'a' => some (.weekdayName false)
  | 'A' => some (.weekdayName true)
  | 'p' => some .halfDay
  | 'P' => some .halfDay
  | '%' => some (.char '%')
  | 'n' => some .blanks
  | 't' => some .blanks
  | 'Z' => some .zoneName
  | 'z' => some (.offset {})
  | c => (numberField? c).map .number

/-- The conversions of several characters, none of which begins like another one. -/
def markedItems : List (String × Item) :=
  [(".f", .fraction none), (".3f", .fraction (some 3)), (".6f", .fraction (some 6)),
    (".9f", .fraction (some 9)), ("3f", .bareFraction 3), ("6f", .bareFraction 6),
    ("9f", .bareFraction 9), (":z", .offset {}), ("::z", .offset {}), (":::z", .offset {}),
    ("#z", .offset { zulu := true, bareHours := true })]

/-- The part of a format that the conversion at the start of a text stands for, and the number of
its characters. A hyphen, an underscore or a zero in front of a letter is about padding; it may
stand before numbers only. -/
def simpleItem? : List Char → Option (Item × Nat)
  | [] => none
  | c :: s =>
    if c = '-' ∨ c = '_' ∨ c = '0' then
      (s.head?.bind numberField?).map fun field => (.number field, 2)
    else
      match letterItem? c with
      | some item => some (item, 1)
      | none =>
        (markedItems.find? fun (name, _) => name.toList.isPrefixOf (c :: s)).map fun (name, item) =>
          (item, name.length)

/-- The parts of a format from behind its first `n` characters, its conversions being read by the
given function. -/
def itemsBy (conversion? : List Char → Option (List Item × Nat)) : Nat → List Char →
    Option (List Item)
  | _, [] => some []
  | n + 1, _ :: s => itemsBy conversion? n s
  | 0, c :: s =>
    if c = '%' then do
      let (items, n) ← conversion? s
      return items ++ (← itemsBy conversion? n s)
    else do
      let items ← itemsBy conversion? 0 s
      return (if isBlank c then .blanks else .char c) :: items

/-- The parts of a format without composite conversions. -/
def simpleItems? (format : String) : Option (List Item) :=
  itemsBy (fun s => (simpleItem? s).map fun (item, n) => ([item], n)) 0 format.toList

/-- Date and time with a letter T or a space between them, and the distance from universal time. -/
def stampItems? : Option (List Item) := do
  let day ← simpleItems? "%Y -%m -%d"
  let time ← simpleItems? "%H :%M :%S%.f "
  return day ++ .timeMark :: time ++ [.offset { zulu := true, universal := true }]

/-- The parts that a composite conversion stands for. -/
def compositeItems? : Char → Option (List Item)
  | 'F' => simpleItems? "%Y-%m-%d"
  | 'D' => simpleItems? "%m/%d/%y"
  | 'x' => simpleItems? "%m/%d/%y"
  | 'v' => simpleItems? "%e-%b-%Y"
  | 'T' => simpleItems? "%H:%M:%S"
  | 'X' => simpleItems? "%H:%M:%S"
  | 'R' => simpleItems? "%H:%M"
  | 'r' => simpleItems? "%I:%M:%S %p"
  | 'c' => simpleItems? "%a %b %e %H:%M:%S %Y"
  | '+' => stampItems?
  | _ => none

/-- The parts of a format that the conversion at the start of a text stands for, and the number of
its characters. -/
def conversion? (s : List Char) : Option (List Item × Nat) :=
  match s.head?.bind compositeItems? with
  | some items => some (items, 1)
  | none => (simpleItem? s).map fun (item, n) => ([item], n)

/-- The parts of a format. -/
def items? (format : String) : Option (List Item) := itemsBy conversion? 0 format.toList

/-! ## Reading -/

/-- The number written by the digits at the start of a text, at most `width` of them if it is
given, and what follows them. -/
def digits? (width : Option Nat) (s : List Char) : Option (Nat × List Char) :=
  let ds := (width.elim s s.take).takeWhile Char.isDigit
  if ds.isEmpty then none else some (numberOf ds, s.drop ds.length)

/-- The number at the start of a text, with a sign if the field admits one. -/
def NumberField.read? (field : NumberField) (s : List Char) : Option (Int × List Char) :=
  match field.signed, s with
  | true, '-' :: rest => (digits? none rest).map fun (n, rest) => (-n, rest)
  | true, '+' :: rest => (digits? none rest).map fun (n, rest) => (n, rest)
  | _, s => (digits? field.width s).map fun (n, rest) => (n, rest)

/-- The months with their names, each as the three letters of its short form and the rest. -/
def monthNames : List (String × String) :=
  [("jan", "uary"), ("feb", "ruary"), ("mar", "ch"), ("apr", "il"), ("may", ""), ("jun", "e"),
    ("jul", "y"), ("aug", "ust"), ("sep", "tember"), ("oct", "ober"), ("nov", "ember"),
    ("dec", "ember")]

/-- The weekdays with their names, each as the three letters of its short form and the rest. -/
def weekdayNames : List (String × String) :=
  [("mon", "day"), ("tue", "sday"), ("wed", "nesday"), ("thu", "rsday"), ("fri", "day"),
    ("sat", "urday"), ("sun", "day")]

/-- What follows the given word, ASCII letters in any case. -/
def dropName? (word : String) (s : List Char) : Option (List Char) :=
  let n := word.toList.length
  if (s.take n).map Char.toLower == word.toList then some (s.drop n) else none

/-- The place of the name at the start of a text in a list of names, counted from `i`, and what
follows it; the full form is preferred when it is admitted. -/
def name? (full : Bool) (i : Nat) : List (String × String) → List Char → Option (Nat × List Char)
  | [], _ => none
  | (short, more) :: names, s =>
    match dropName? short s with
    | some rest => some (i, if full then (dropName? more rest).getD rest else rest)
    | none => name? full (i + 1) names s

/-- Which half of the day the start of a text names, and what follows it. -/
def halfDay? : List Char → Option (Int × List Char)
  | h :: m :: rest =>
    if m.toLower = 'm' then
      if h.toLower = 'a' then some (0, rest) else if h.toLower = 'p' then some (1, rest) else none
    else none
  | _ => none

/-- The fraction of a second that the digits at the start of a text write, in billionths, and what
follows them. Without a number of places all digits are taken, and those beyond the ninth are
dropped. -/
def fraction? (places : Option Nat) (s : List Char) : Option (Nat × List Char) :=
  let ds := (places.elim s s.take).takeWhile Char.isDigit
  if ds.isEmpty ∨ ds.length ≠ places.getD ds.length then none
  else some (numberOf ((ds ++ List.replicate 9 '0').take 9), s.drop ds.length)

/-- Hours and minutes at the start of a text, colons and blanks between them, in seconds, and what
follows them. -/
def hoursAndMinutes? (bareHours : Bool) : List Char → Option (Nat × List Char)
  | h :: h' :: rest =>
    if h.isDigit ∧ h'.isDigit then
      let hours := numberOf [h, h'] * 3600
      match rest.dropWhile fun c => c == ':' || isBlank c with
      | [] => if bareHours then some (hours, []) else none
      | m :: m' :: rest =>
        if m.isDigit ∧ m ≤ '5' ∧ m'.isDigit then some (hours + numberOf [m, m'] * 60, rest)
        else none
      | [_] => none
    else none
  | _ => none

/-- The distance from universal time at the start of a text, in seconds, and what follows it. The
sign is a plus, a hyphen or a minus. -/
def OffsetForm.read? (form : OffsetForm) (s : List Char) : Option (Int × List Char) :=
  match form.universal, dropName? "utc" s, s with
  | true, some rest, _ => some (0, rest)
  | _, _, c :: rest =>
    if form.zulu ∧ c.toLower = 'z' then some (0, rest)
    else if c = '+' then (hoursAndMinutes? form.bareHours rest).map fun (n, rest) => (n, rest)
    else if c = '-' ∨ c = '−' then
      (hoursAndMinutes? form.bareHours rest).map fun (n, rest) => (-n, rest)
    else none
  | _, _, [] => none

/-- Reads one part of a format: the facts it tells, and what follows. -/
def Item.read? (s : List Char) : Item → Option (Facts × List Char)
  | .blanks => some ([], s.dropWhile isBlank)
  | .char c =>
    match s with
    | d :: rest => if c = d then some ([], rest) else none
    | [] => none
  | .number field => do
    let (n, rest) ← field.read? (s.dropWhile isBlank)
    return (← field.facts n, rest)
  | .monthName full => (name? full 0 monthNames s).map fun (i, rest) => ([⟨.month, i + 1⟩], rest)
  | .weekdayName full => (name? full 0 weekdayNames s).map fun (i, rest) => ([⟨.weekday, i⟩], rest)
  | .halfDay => (halfDay? s).map fun (h, rest) => ([⟨.halfDay, h⟩], rest)
  | .fraction places =>
    match s with
    | '.' :: rest => (fraction? places rest).map fun (n, rest) => ([⟨.nanosecond, n⟩], rest)
    | _ => some ([], s)
  | .bareFraction places =>
    (fraction? (some places) s).map fun (n, rest) => ([⟨.nanosecond, n⟩], rest)
  | .timeMark =>
    match s with
    | c :: rest => if c = 'T' ∨ c = 't' ∨ c = ' ' then some ([], rest) else none
    | [] => none
  | .zoneName => some ([], s.dropWhile fun c => !isBlank c)
  | .offset form =>
    (form.read? (s.dropWhile isBlank)).map fun (n, rest) => ([⟨.offset, n⟩], rest)

/-- Reads a text by the parts of a format, which must use it up. -/
def facts? : List Item → List Char → Option Facts
  | [], s => if s.isEmpty then some [] else none
  | item :: items, s => do
    let (facts, rest) ← item.read? s
    return facts ++ (← facts? items rest)

/-- The date that a text writes in a format. -/
def readDate? (format value : String) : Option Date := do
  let items ← items? format
  let facts ← facts? items value.toList
  facts.date?

/-- The date that a text writes in the first of several formats that fits. -/
def readDateIn? (formats : List String) (value : String) : Option Date :=
  formats.findSome? (readDate? · value)

/-- Year, month and day with hyphens between, blanks before each part and at the end. -/
def isoFormat : String := "%Y -%m -%d "

/-- Day, month and year with slashes between. -/
def dayFirstFormat : String := "%d/%m/%Y"

end Filing.Calendar
