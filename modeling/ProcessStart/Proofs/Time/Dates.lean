import ProcessStart.Proofs.Time.Conversion
import ProcessStart.Time

/-!
Instants show the right date. Beside the conversion in words of 64 bits, which
wrap around, stands the same with every sum, difference and product checked; it
never fails on the days that seconds can count, so nothing wraps, and what the
conversion gives is the one date that the calendar has for the day.
-/
namespace ProcessStart

namespace Word

def add? (a b : UInt64) : Option UInt64 :=
  if a.toNat + b.toNat < 0x10000000000000000 then some (a + b) else none

def sub? (a b : UInt64) : Option UInt64 := if b.toNat ≤ a.toNat then some (a - b) else none

def mul? (a b : UInt64) : Option UInt64 :=
  if a.toNat * b.toNat < 0x10000000000000000 then some (a * b) else none

/-- A step of a checked computation that does not fail. -/
theorem bind_of_eq_some {α β : Type} {x : Option α} {a : α} {f : α → Option β}
    (h : x = some a) : (x >>= f) = f a := by
  rw [h]
  rfl

section

variable {a b : UInt64} {m n : Nat}

theorem add?_of_lt (ha : a.toNat = m) (hb : b.toNat = n) (h : m + n < 0x10000000000000000) :
    add? a b = some (a + b) ∧ (a + b).toNat = m + n := by
  subst ha hb
  refine ⟨if_pos h, ?_⟩
  rw [UInt64.toNat_add]
  exact Nat.mod_eq_of_lt h

theorem sub?_of_le (ha : a.toNat = m) (hb : b.toNat = n) (h : n ≤ m) :
    sub? a b = some (a - b) ∧ (a - b).toNat = m - n := by
  subst ha hb
  exact ⟨if_pos h, UInt64.toNat_sub_of_le a b (UInt64.le_iff_toNat_le.mpr h)⟩

theorem mul?_of_lt (ha : a.toNat = m) (hb : b.toNat = n) (h : m * n < 0x10000000000000000) :
    mul? a b = some (a * b) ∧ (a * b).toNat = m * n := by
  subst ha hb
  refine ⟨if_pos h, ?_⟩
  rw [UInt64.toNat_mul]
  exact Nat.mod_eq_of_lt h

theorem toNat_div (ha : a.toNat = m) (hb : b.toNat = n) : (a / b).toNat = m / n := by
  rw [UInt64.toNat_div, ha, hb]

end

end Word

namespace CivilDate

open Word Calendar

def yearOfEra? (dayOfEra : UInt64) : Option UInt64 := do
  let fewer ← sub? dayOfEra (dayOfEra / 1460)
  let more ← add? fewer (dayOfEra / 36524)
  let whole ← sub? more (dayOfEra / 146096)
  return whole / 365

def dayOfYear? (dayOfEra yearOfEra : UInt64) : Option UInt64 := do
  let common ← mul? 365 yearOfEra
  let more ← add? common (yearOfEra / 4)
  let before ← sub? more (yearOfEra / 100)
  sub? dayOfEra before

def monthFromMarch? (dayOfYear : UInt64) : Option UInt64 := do
  let fifths ← mul? 5 dayOfYear
  let rounded ← add? fifths 2
  return rounded / 153

def day? (dayOfYear monthFromMarch : UInt64) : Option UInt64 := do
  let fifths ← mul? 153 monthFromMarch
  let rounded ← add? fifths 2
  let before ← sub? dayOfYear (rounded / 5)
  add? before 1

def month? (monthFromMarch : UInt64) : Option UInt64 :=
  if monthFromMarch < 10 then add? monthFromMarch 3 else sub? monthFromMarch 9

def year? (era yearOfEra month : UInt64) : Option UInt64 := do
  let years ← mul? era 400
  let sum ← add? yearOfEra years
  add? sum (if month ≤ 2 then 1 else 0)

/-- The conversion with every operation checked. -/
def ofDays? (days : UInt64) : Option CivilDate := do
  let shifted ← add? days 719468
  let before ← mul? (shifted / 146097) 146097
  let dayOfEra ← sub? shifted before
  let yearOfEra ← yearOfEra? dayOfEra
  let dayOfYear ← dayOfYear? dayOfEra yearOfEra
  let monthFromMarch ← monthFromMarch? dayOfYear
  let day ← day? dayOfYear monthFromMarch
  let month ← month? monthFromMarch
  let year ← year? (shifted / 146097) yearOfEra month
  return { year := year, month := month, day := day }

section

variable {a b c : UInt64}

/-- What the checked division of an era gives is the unchecked one, and the year. -/
theorem yearOfEra?_eq (h : a.toNat < 146097) : ∃ y, yearOfEra? a = some y ∧
    y = (a - a / 1460 + a / 36524 - a / 146096) / 365 ∧ y.toNat = yearOfEra a.toNat := by
  have hspans : (a / 1460).toNat = a.toNat / 1460 := toNat_div rfl rfl
  have hcenturies : (a / 36524).toNat = a.toNat / 36524 := toNat_div rfl rfl
  have hlast : (a / 146096).toNat = a.toNat / 146096 := toNat_div rfl rfl
  obtain ⟨hfewer, nfewer⟩ := sub?_of_le (a := a) rfl hspans (by omega)
  obtain ⟨hmore, nmore⟩ := add?_of_lt nfewer hcenturies (by omega)
  obtain ⟨hwhole, nwhole⟩ := sub?_of_le nmore hlast (by omega)
  refine ⟨_, ?_, rfl, toNat_div nwhole rfl⟩
  rw [yearOfEra?, bind_of_eq_some hfewer, bind_of_eq_some hmore, bind_of_eq_some hwhole]
  rfl

theorem dayOfYear?_eq (hb : b.toNat < 400) (h : eraDays b.toNat ≤ a.toNat) :
    ∃ y, dayOfYear? a b = some y ∧
      y = a - (365 * b + b / 4 - b / 100) ∧ y.toNat = a.toNat - eraDays b.toNat := by
  have hspans : (b / 4).toNat = b.toNat / 4 := toNat_div rfl rfl
  have hcenturies : (b / 100).toNat = b.toNat / 100 := toNat_div rfl rfl
  obtain ⟨hcommon, ncommon⟩ := mul?_of_lt (b := b) (show (365 : UInt64).toNat = 365 from rfl) rfl
    (by omega)
  obtain ⟨hmore, nmore⟩ := add?_of_lt ncommon hspans (by omega)
  obtain ⟨hbefore, nbefore⟩ := sub?_of_le nmore hcenturies (by omega)
  obtain ⟨hday, nday⟩ := sub?_of_le (a := a) rfl nbefore h
  refine ⟨_, ?_, rfl, nday⟩
  rw [dayOfYear?, bind_of_eq_some hcommon, bind_of_eq_some hmore, bind_of_eq_some hbefore, hday]

theorem monthFromMarch?_eq (h : a.toNat ≤ 365) : ∃ y, monthFromMarch? a = some y ∧
    y = (5 * a + 2) / 153 ∧ y.toNat = monthFromMarch a.toNat := by
  obtain ⟨hfifths, nfifths⟩ := mul?_of_lt (b := a) (show (5 : UInt64).toNat = 5 from rfl) rfl
    (by omega)
  obtain ⟨hrounded, nrounded⟩ := add?_of_lt nfifths (show (2 : UInt64).toNat = 2 from rfl)
    (by omega)
  refine ⟨_, ?_, rfl, toNat_div nrounded rfl⟩
  rw [monthFromMarch?, bind_of_eq_some hfifths, bind_of_eq_some hrounded]
  rfl

theorem day?_eq (ha : a.toNat ≤ 365) (hb : b.toNat ≤ 11)
    (h : (153 * b.toNat + 2) / 5 ≤ a.toNat) : ∃ y, day? a b = some y ∧
      y = a - (153 * b + 2) / 5 + 1 ∧ y.toNat = a.toNat - (153 * b.toNat + 2) / 5 + 1 := by
  obtain ⟨hfifths, nfifths⟩ := mul?_of_lt (b := b) (show (153 : UInt64).toNat = 153 from rfl) rfl
    (by omega)
  obtain ⟨hrounded, nrounded⟩ := add?_of_lt nfifths (show (2 : UInt64).toNat = 2 from rfl)
    (by omega)
  have hfirst : ((153 * b + 2) / 5).toNat = (153 * b.toNat + 2) / 5 := toNat_div nrounded rfl
  obtain ⟨hbefore, nbefore⟩ := sub?_of_le (a := a) rfl hfirst h
  obtain ⟨hday, nday⟩ := add?_of_lt nbefore (show (1 : UInt64).toNat = 1 from rfl) (by omega)
  refine ⟨_, ?_, rfl, nday⟩
  rw [day?, bind_of_eq_some hfifths, bind_of_eq_some hrounded, bind_of_eq_some hbefore, hday]

theorem month?_eq (h : a.toNat ≤ 11) : ∃ y, month? a = some y ∧
    y = (if a < 10 then a + 3 else a - 9) ∧
      y.toNat = if a.toNat < 10 then a.toNat + 3 else a.toNat - 9 := by
  have hlt : a < 10 ↔ a.toNat < 10 := UInt64.lt_iff_toNat_lt
  by_cases ha : a.toNat < 10
  · obtain ⟨hmonth, nmonth⟩ := add?_of_lt (a := a) rfl (show (3 : UInt64).toNat = 3 from rfl)
      (by omega)
    refine ⟨_, ?_, rfl, ?_⟩
    · rw [month?, if_pos (hlt.mpr ha), if_pos (hlt.mpr ha), hmonth]
    · rw [if_pos (hlt.mpr ha), if_pos ha, nmonth]
  · obtain ⟨hmonth, nmonth⟩ := sub?_of_le (a := a) rfl (show (9 : UInt64).toNat = 9 from rfl)
      (by omega)
    refine ⟨_, ?_, rfl, ?_⟩
    · rw [month?, if_neg (mt hlt.mp ha), if_neg (mt hlt.mp ha), hmonth]
    · rw [if_neg (mt hlt.mp ha), if_neg ha, nmonth]

theorem year?_eq (ha : a.toNat < 0x1000000000000) (hb : b.toNat < 400) : ∃ y,
    year? a b c = some y ∧ y = b + a * 400 + (if c ≤ 2 then 1 else 0) ∧
      y.toNat = b.toNat + 400 * a.toNat + if c.toNat ≤ 2 then 1 else 0 := by
  have hle : c ≤ 2 ↔ c.toNat ≤ 2 := UInt64.le_iff_toNat_le
  have hone : (if c ≤ 2 then 1 else 0 : UInt64).toNat = if c.toNat ≤ 2 then 1 else 0 := by
    by_cases hc : c.toNat ≤ 2
    · rw [if_pos (hle.mpr hc), if_pos hc]
      rfl
    · rw [if_neg (mt hle.mp hc), if_neg hc]
      rfl
  obtain ⟨hyears, nyears⟩ := mul?_of_lt (a := a) rfl (show (400 : UInt64).toNat = 400 from rfl)
    (by omega)
  obtain ⟨hsum, nsum⟩ := add?_of_lt (a := b) rfl nyears (by omega)
  obtain ⟨hyear, nyear⟩ := add?_of_lt nsum hone (by split <;> omega)
  refine ⟨_, ?_, rfl, ?_⟩
  · rw [year?, bind_of_eq_some hyears, bind_of_eq_some hsum, hyear]
  · rw [nyear, Nat.mul_comm a.toNat]

end

/-- On a day that seconds can count nothing wraps around, and the date is one of the calendar and
has the number of the day. -/
theorem ofDays?_eq {days : UInt64} (h : days.toNat < 0x1000000000000) :
    ofDays? days = some (ofDays days) ∧
      IsDate (ofDays days).year.toNat (ofDays days).month.toNat (ofDays days).day.toNat ∧
      dayNumber (ofDays days).year.toNat (ofDays days).month.toNat (ofDays days).day.toNat =
        days.toNat := by
  obtain ⟨hshifted, nshifted⟩ := add?_of_lt (a := days) rfl
    (show (719468 : UInt64).toNat = 719468 from rfl) (by omega)
  have nera : ((days + 719468) / 146097).toNat = (days.toNat + 719468) / 146097 :=
    toNat_div nshifted rfl
  obtain ⟨hbefore, nbefore⟩ := mul?_of_lt (a := (days + 719468) / 146097) rfl
    (show (146097 : UInt64).toNat = 146097 from rfl) (by omega)
  obtain ⟨hdayOfEra, ndayOfEra⟩ := sub?_of_le nshifted nbefore (by omega)
  have hwithin : (days + 719468 - (days + 719468) / 146097 * 146097).toNat < 146097 := by omega
  obtain ⟨yearOfEra, hyearOfEra, eyearOfEra, nyearOfEra⟩ := yearOfEra?_eq hwithin
  obtain ⟨rest, hrest, hsum, hyears, hbegin, hlate, hdate⟩ :=
    date_of_shifted (Nat.le_add_left 719468 days.toNat) nera ndayOfEra nyearOfEra
  obtain ⟨dayOfYear, hdayOfYear, edayOfYear, ndayOfYear⟩ :=
    dayOfYear?_eq hyears (Nat.le.intro hsum.symm)
  have nrest : dayOfYear.toNat = rest := by omega
  subst nrest
  obtain ⟨monthFromMarch, hmonthFromMarch, emonthFromMarch, nmonthFromMarch⟩ :=
    monthFromMarch?_eq hrest
  rw [← nmonthFromMarch] at hbegin hlate hdate
  obtain ⟨day, hday, eday, nday⟩ := day?_eq hrest hlate hbegin
  obtain ⟨month, hmonth, emonth, nmonth⟩ := month?_eq hlate
  obtain ⟨year, hyear, eyear, nyear⟩ := year?_eq (a := (days + 719468) / 146097) (c := month)
    (by omega) hyears
  obtain ⟨his, hnumber⟩ := hdate month.toNat year.toNat nmonth nyear
  rw [← nday] at his hnumber
  have hsame : ofDays days = ⟨year, month, day⟩ := by
    subst eyear emonth eday emonthFromMarch edayOfYear eyearOfEra
    rfl
  rw [hsame]
  refine ⟨?_, his, Nat.add_right_cancel hnumber⟩
  rw [ofDays?, bind_of_eq_some hshifted, bind_of_eq_some hbefore, bind_of_eq_some hdayOfEra,
    bind_of_eq_some hyearOfEra, bind_of_eq_some hdayOfYear, bind_of_eq_some hmonthFromMarch,
    bind_of_eq_some hday, bind_of_eq_some hmonth, bind_of_eq_some hyear]
  rfl

example : ofDays? 11016 = some ⟨2000, 2, 29⟩ := by decide

theorem eq_of_fields {d e : CivilDate} (hyear : d.year = e.year) (hmonth : d.month = e.month)
    (hday : d.day = e.day) : d = e := by
  cases d
  cases e
  cases hyear
  cases hmonth
  cases hday
  rfl

def Before (d e : CivilDate) : Prop :=
  Earlier d.year.toNat d.month.toNat d.day.toNat e.year.toNat e.month.toNat e.day.toNat

end CivilDate

namespace Instant

open Calendar

theorem toNat_days (t : Instant) : (t.secs / 86400).toNat = t.secs.toNat / 86400 :=
  Word.toNat_div rfl rfl

theorem days_lt (t : Instant) : (t.secs / 86400).toNat < 0x1000000000000 := by
  have hsecs := t.secs.toNat_lt
  rw [toNat_days]
  omega

/-- An instant's date is one of the calendar. -/
theorem isDate_date (t : Instant) :
    IsDate t.date.year.toNat t.date.month.toNat t.date.day.toNat :=
  (CivilDate.ofDays?_eq t.days_lt).2.1

/-- An instant's date is that of the day it lies in. -/
theorem dayNumber_date (t : Instant) :
    dayNumber t.date.year.toNat t.date.month.toNat t.date.day.toNat = t.secs.toNat / 86400 := by
  rw [← toNat_days]
  exact (CivilDate.ofDays?_eq t.days_lt).2.2

/-- Within a day, hours, minutes and seconds. -/
theorem timeOfDay (t : Instant) : t.hour.toNat < 24 ∧ t.minute.toNat < 60 ∧ t.second.toNat < 60 ∧
    3600 * t.hour.toNat + 60 * t.minute.toNat + t.second.toNat = t.secs.toNat % 86400 := by
  have hday : t.secondOfDay.toNat = t.secs.toNat % 86400 := UInt64.toNat_mod _ _
  have hhour : t.hour.toNat = t.secondOfDay.toNat / 3600 := UInt64.toNat_div _ _
  have hminute : t.minute.toNat = t.secondOfDay.toNat % 3600 / 60 := by
    rw [minute, Word.toNat_div (UInt64.toNat_mod _ _) rfl]
    rfl
  have hsecond : t.second.toNat = t.secondOfDay.toNat % 60 := UInt64.toNat_mod _ _
  omega

/-- Two instants have one date exactly if they lie in the same day. -/
theorem date_eq_iff {t u : Instant} :
    t.date = u.date ↔ t.secs.toNat / 86400 = u.secs.toNat / 86400 := by
  rw [← dayNumber_date, ← dayNumber_date]
  constructor
  · intro h
    rw [h]
  · intro h
    obtain ⟨hyear, hmonth, hday⟩ := eq_of_dayNumber_eq t.isDate_date u.isDate_date h
    exact CivilDate.eq_of_fields (UInt64.toNat_inj.mp hyear) (UInt64.toNat_inj.mp hmonth)
      (UInt64.toNat_inj.mp hday)

/-- Every date of the calendar that seconds reach is the date of an instant. -/
theorem exists_date {year month day : Nat} (h : IsDate year month day)
    (hreach : dayNumber year month day ≤ 0xffffffffffffffff / 86400) :
    ∃ t : Instant, t.date.year.toNat = year ∧ t.date.month.toNat = month ∧
      t.date.day.toNat = day := by
  have hfits : 86400 * dayNumber year month day < 0x10000000000000000 := by omega
  have hsecs : (UInt64.ofNat (86400 * dayNumber year month day)).toNat =
      86400 * dayNumber year month day := UInt64.toNat_ofNat_of_lt' hfits
  refine ⟨⟨.ofNat (86400 * dayNumber year month day), 0⟩, ?_⟩
  apply eq_of_dayNumber_eq (isDate_date _) h
  rw [dayNumber_date, hsecs]
  omega

/-- The text of an instant shows the calendar. The date is one that the calendar has, its number by
the calendar's rule is the count of whole days, and working it out wraps around nowhere. The time of
day is made of hours, minutes and seconds that are within their bounds. A date stands for one day,
later days have later dates, and no date that seconds reach is left out. -/
theorem text_calendar :
    (∀ t : Instant,
      t.text = Text.padded 4 t.date.year.toNat ++ '-' :: Text.padded 2 t.date.month.toNat ++
        '-' :: Text.padded 2 t.date.day.toNat ++ 'T' :: Text.padded 2 t.hour.toNat ++
        ':' :: Text.padded 2 t.minute.toNat ++ ':' :: Text.padded 2 t.second.toNat ++
        '.' :: Text.padded 3 (t.nanos.toNat / 1000000) ++ ['Z'] ∧
      t.date = CivilDate.ofDays (t.secs / 86400) ∧
      CivilDate.ofDays? (t.secs / 86400) = some t.date ∧
      IsDate t.date.year.toNat t.date.month.toNat t.date.day.toNat ∧
      dayNumber t.date.year.toNat t.date.month.toNat t.date.day.toNat = t.secs.toNat / 86400 ∧
      t.hour.toNat < 24 ∧ t.minute.toNat < 60 ∧ t.second.toNat < 60 ∧
      3600 * t.hour.toNat + 60 * t.minute.toNat + t.second.toNat = t.secs.toNat % 86400) ∧
    (∀ t u : Instant,
      (t.date = u.date ↔ t.secs.toNat / 86400 = u.secs.toNat / 86400) ∧
      (t.date.Before u.date ↔ t.secs.toNat / 86400 < u.secs.toNat / 86400)) ∧
    ∀ year month day, IsDate year month day →
      dayNumber year month day ≤ 0xffffffffffffffff / 86400 →
      ∃ t : Instant, t.date.year.toNat = year ∧ t.date.month.toNat = month ∧
        t.date.day.toNat = day := by
  refine ⟨?_, ?_, fun _ _ _ => exists_date⟩
  · intro t
    have hmillisecond : t.millisecond.toNat = t.nanos.toNat / 1000000 := UInt32.toNat_div _ _
    refine ⟨?_, rfl, (CivilDate.ofDays?_eq t.days_lt).1, t.isDate_date, t.dayNumber_date,
      t.timeOfDay⟩
    rw [← hmillisecond]
    rfl
  · intro t u
    refine ⟨date_eq_iff, ?_⟩
    rw [← dayNumber_date, ← dayNumber_date]
    exact earlier_iff t.isDate_date u.isDate_date

end Instant
end ProcessStart
