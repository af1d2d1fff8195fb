import ProcessStart.Text.Numeral

/-!
Dates of the Gregorian calendar, counted in days from 1970-01-01, and instants
of the wall clock. The conversion of a day count works by division only: it
shifts the year to begin in March, so that the leap day comes last, and counts
eras of 400 years. The calendar's own rule, by which the two are compared,
counts whole years, then whole months, then days. An instant is given in
seconds and nanoseconds since the beginning of 1970 and shown with milliseconds;
the nanoseconds are not bounded by a second, so these can have four digits.
-/
namespace ProcessStart

structure CivilDate where
  year : UInt64
  month : UInt64
  day : UInt64
  deriving DecidableEq, Repr

namespace Calendar

def isLeap (year : Nat) : Bool := year % 4 == 0 && year % 100 != 0 || year % 400 == 0

def daysOfYear (year : Nat) : Nat := if isLeap year then 366 else 365

/-- The length of a month, January being 1; there is no other month. -/
def daysOfMonth (year : Nat) : Nat → Nat
  | 1 => 31
  | 2 => if isLeap year then 29 else 28
  | 3 => 31
  | 4 => 30
  | 5 => 31
  | 6 => 30
  | 7 => 31
  | 8 => 31
  | 9 => 30
  | 10 => 31
  | 11 => 30
  | 12 => 31
  | _ => 0

/-- Days in the first `n` years from 1970 on. -/
def daysOfYears : Nat → Nat
  | 0 => 0
  | n + 1 => daysOfYears n + daysOfYear (1970 + n)

/-- Days in the first `n` months of a year. -/
def daysOfMonths (year : Nat) : Nat → Nat
  | 0 => 0
  | n + 1 => daysOfMonths year n + daysOfMonth year (n + 1)

/-- Days from 1970-01-01 to a date, by the calendar's rule. -/
def dayNumber (year month day : Nat) : Nat :=
  daysOfYears (year - 1970) + daysOfMonths year (month - 1) + (day - 1)

/-- Whether the calendar has this date, from 1970 on. -/
def IsDate (year month day : Nat) : Prop :=
  1970 ≤ year ∧ 1 ≤ month ∧ month ≤ 12 ∧ 1 ≤ day ∧ day ≤ daysOfMonth year month

end Calendar

/-- The date a number of days after 1970-01-01. An era begins on the first of March of a year
divisible by 400 and has 146097 days; 719468 of them lie between year 0 and 1970. -/
def CivilDate.ofDays (days : UInt64) : CivilDate :=
  let shifted := days + 719468
  let era := shifted / 146097
  let dayOfEra := shifted - era * 146097
  let yearOfEra :=
    (dayOfEra - dayOfEra / 1460 + dayOfEra / 36524 - dayOfEra / 146096) / 365
  let dayOfYear := dayOfEra - (365 * yearOfEra + yearOfEra / 4 - yearOfEra / 100)
  let monthFromMarch := (5 * dayOfYear + 2) / 153
  let month := if monthFromMarch < 10 then monthFromMarch + 3 else monthFromMarch - 9
  { year := yearOfEra + era * 400 + (if month ≤ 2 then 1 else 0)
    month := month
    day := dayOfYear - (153 * monthFromMarch + 2) / 5 + 1 }

structure Instant where
  secs : UInt64
  nanos : UInt32
  deriving DecidableEq, Repr

namespace Instant

def date (t : Instant) : CivilDate := CivilDate.ofDays (t.secs / 86400)

def secondOfDay (t : Instant) : UInt64 := t.secs % 86400

def hour (t : Instant) : UInt64 := t.secondOfDay / 3600

def minute (t : Instant) : UInt64 := t.secondOfDay % 3600 / 60

def second (t : Instant) : UInt64 := t.secondOfDay % 60

def millisecond (t : Instant) : UInt32 := t.nanos / 1000000

def text (t : Instant) : List Char :=
  Text.padded 4 t.date.year.toNat ++ '-' :: Text.padded 2 t.date.month.toNat ++
    '-' :: Text.padded 2 t.date.day.toNat ++ 'T' :: Text.padded 2 t.hour.toNat ++
    ':' :: Text.padded 2 t.minute.toNat ++ ':' :: Text.padded 2 t.second.toNat ++
    '.' :: Text.padded 3 t.millisecond.toNat ++ ['Z']

instance : ToString Instant := ⟨fun t => String.ofList t.text⟩

end Instant

end ProcessStart
