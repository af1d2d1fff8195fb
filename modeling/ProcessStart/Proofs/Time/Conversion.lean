import ProcessStart.Proofs.Time.Calendar

/-!
The conversion of a day count by divisions is the calendar's rule read
backwards. An era is cut into centuries, these into spans of four years, and
the day that is left over falls to the last year of a span: that is what the
divisions work out, and what makes the leap day the last of its year. In words
of 64 bits none of it wraps around, as far as a count of seconds goes.
-/
namespace ProcessStart

namespace Calendar

/-- The days of an era before a year of it, the years beginning in March. -/
def eraDays (year : Nat) : Nat := 365 * year + year / 4 - year / 100

/-- The year of an era in which a day of it lies. -/
def yearOfEra (day : Nat) : Nat := (day - day / 1460 + day / 36524 - day / 146096) / 365

/-- A day of an era by its century, its span of four years, the year of that and the day left.
The last year of a span may have a day more, but not the last one of the first three centuries. -/
structure Place (day century span year rest : Nat) : Prop where
  century_le : century ≤ 3
  span_le : span ≤ 24
  year_le : year ≤ 3
  rest_le : rest ≤ 365
  common : year < 3 → rest ≤ 364
  short : century < 3 → span = 24 → rest ≤ 364
  day_eq : day = 36524 * century + 1461 * span + (365 * year + rest)

/-- Every day of an era has a place in it. -/
theorem exists_place {day : Nat} (h : day < 146097) :
    ∃ century span year rest, Place day century span year rest := by
  by_cases hlast : day = 146096
  · exact ⟨3, 24, 3, 365, by omega, by omega, by omega, by omega, by omega, by omega, hlast⟩
  · -- The last day of a span is the 366th of its last year.
    by_cases hleap : day % 36524 % 1461 = 1460
    · exact ⟨day / 36524, day % 36524 / 1461, 3, 365, by omega, by omega, by omega, by omega,
        by omega, by omega, by omega⟩
    · exact ⟨day / 36524, day % 36524 / 1461, day % 36524 % 1461 / 365,
        day % 36524 % 1461 % 365, by omega, by omega, by omega, by omega, by omega, by omega,
        by omega⟩

section

variable {day century span year rest : Nat}

/-- The divisions find the year. -/
theorem Place.yearOfEra_eq (h : Place day century span year rest) :
    yearOfEra day = 100 * century + 4 * span + year := by
  obtain ⟨hcentury, hspan, hyear, hrest, hcommon, hshort, rfl⟩ := h
  generalize hg : 365 * year + rest = inSpan
  have hera : (36524 * century + 1461 * span + inSpan) / 36524 =
      century + (36524 * century + 1461 * span + inSpan) / 146096 := by
    by_cases hlast : 1461 * span + inSpan = 36524
    · have hend : century = 3 := by omega
      omega
    · have hwithin : 1461 * span + inSpan < 36524 := by omega
      have hnone : (36524 * century + 1461 * span + inSpan) / 146096 = 0 := by omega
      omega
  have hspans : (36524 * century + 1461 * span + inSpan) / 1460 =
      25 * century + span + (24 * century + span + inSpan) / 1460 := by omega
  have hdays : 36524 * century + 1461 * span + inSpan -
      (25 * century + span + (24 * century + span + inSpan) / 1460) + century =
        365 * (100 * century + 4 * span) +
          (inSpan - (24 * century + span + inSpan) / 1460) := by omega
  have hyears : (inSpan - (24 * century + span + inSpan) / 1460) / 365 = year := by omega
  rw [yearOfEra, hera, hspans, ← Nat.add_assoc, Nat.add_sub_cancel, hdays,
    Nat.mul_add_div (by decide), hyears]

/-- The years before a place and the day left make up the day. -/
theorem Place.eraDays_eq (h : Place day century span year rest) :
    eraDays (100 * century + 4 * span + year) + rest = day := by
  obtain ⟨hcentury, hspan, hyear, hrest, hcommon, hshort, rfl⟩ := h
  have hspans : (100 * century + 4 * span + year) / 4 = 25 * century + span := by omega
  have hcenturies : (100 * century + 4 * span + year) / 100 = century := by omega
  rw [eraDays, hspans, hcenturies]
  omega

end

/-- A day lies in its year, and the 366th of a year makes the next one a leap year. -/
theorem eraDays_yearOfEra {day : Nat} (h : day < 146097) : ∃ rest ≤ 365,
    day = eraDays (yearOfEra day) + rest ∧ yearOfEra day < 400 ∧
      (rest = 365 → ∀ era, isLeap (yearOfEra day + 400 * era + 1) = true) := by
  obtain ⟨century, span, year, rest, hplace⟩ := exists_place h
  have hdays := hplace.eraDays_eq
  rw [hplace.yearOfEra_eq]
  obtain ⟨hcentury, hspan, hyear, hrest, hcommon, hshort, -⟩ := hplace
  refine ⟨rest, hrest, hdays.symm, by omega, ?_⟩
  rintro rfl era
  rw [isLeap_iff]
  have hlast : year = 3 := by omega
  omega

/-- The number of the first day of a year, counted from the beginning of the calendar. -/
theorem daysOfYears_sub {year : Nat} (h : 1970 ≤ year) :
    daysOfYears (year - 1970) + 719527 = 365 * year + leapYears (year - 1) := by
  have hsum := daysOfYears_eq (year - 1970)
  rwa [show 1970 + (year - 1970) = year by omega,
    show 1969 + (year - 1970) = year - 1 by omega] at hsum

/-- A day of March to December, in a year that begins in March. -/
theorem date_fromMarch {year k rest : Nat} (hk : k ≤ 9) (hfirst : (153 * k + 2) / 5 ≤ rest)
    (hlast : rest < (153 * (k + 1) + 2) / 5) (hyear : 1970 ≤ year) :
    IsDate year (k + 3) (rest - (153 * k + 2) / 5 + 1) ∧
      dayNumber year (k + 3) (rest - (153 * k + 2) / 5 + 1) + 719468 =
        365 * year + leapYears year + rest := by
  have hlength := daysOfMonth_fromMarch year hk
  have hmonths := daysOfMonths_fromMarch year (show k ≤ 10 by omega)
  have hyears := daysOfYears_sub hyear
  have hleap := leapYears_succ (year - 1)
  rw [Nat.sub_add_cancel (show 1 ≤ year by omega)] at hleap
  rw [IsDate, dayNumber, show k + 3 - 1 = k + 2 from rfl]
  omega

/-- A day of January or February, with which such a year ends. -/
theorem date_untilMarch {year k rest : Nat} (hk : k = 10 ∨ k = 11)
    (hfirst : (153 * k + 2) / 5 ≤ rest) (hnext : k = 10 → rest < 337)
    (hlast : rest < 337 + daysOfMonth (year + 1) 2) (hyear : 1969 ≤ year) :
    IsDate (year + 1) (k - 9) (rest - (153 * k + 2) / 5 + 1) ∧
      dayNumber (year + 1) (k - 9) (rest - (153 * k + 2) / 5 + 1) + 719468 =
        365 * year + leapYears year + rest := by
  have hyears := daysOfYears_sub (show 1970 ≤ year + 1 by omega)
  rw [Nat.add_sub_cancel year 1] at hyears
  have hjanuary : daysOfMonth (year + 1) 1 = 31 := rfl
  have hone : daysOfMonths (year + 1) 1 = 31 := rfl
  have hnone : daysOfMonths (year + 1) 0 = 0 := rfl
  rw [IsDate, dayNumber]
  rcases hk with rfl | rfl
  · have hin := hnext rfl
    rw [show 10 - 9 = 1 from rfl, show 1 - 1 = 0 from rfl]
    omega
  · rw [show 11 - 9 = 2 from rfl, show 2 - 1 = 1 from rfl]
    omega

/-- The months of a year that begins in March, by one division. -/
def monthFromMarch (rest : Nat) : Nat := (5 * rest + 2) / 153

/-- The date of a day of a year that begins in March. -/
theorem date_monthFromMarch {year rest : Nat} (hrest : rest ≤ 365)
    (hleap : rest = 365 → isLeap (year + 1) = true)
    (hfirst : 719468 ≤ 365 * year + leapYears year + rest) :
    (153 * monthFromMarch rest + 2) / 5 ≤ rest ∧ monthFromMarch rest ≤ 11 ∧
    ∀ month civil, month = (if monthFromMarch rest < 10 then monthFromMarch rest + 3
        else monthFromMarch rest - 9) →
      civil = year + (if month ≤ 2 then 1 else 0) →
      IsDate civil month (rest - (153 * monthFromMarch rest + 2) / 5 + 1) ∧
        dayNumber civil month (rest - (153 * monthFromMarch rest + 2) / 5 + 1) + 719468 =
          365 * year + leapYears year + rest := by
  have hbegin : (153 * monthFromMarch rest + 2) / 5 ≤ rest := by
    rw [monthFromMarch]
    omega
  have hend : rest < (153 * (monthFromMarch rest + 1) + 2) / 5 := by
    rw [monthFromMarch]
    omega
  refine ⟨hbegin, by rw [monthFromMarch]; omega, ?_⟩
  rintro month civil rfl rfl
  rw [leapYears] at hfirst
  by_cases hk : monthFromMarch rest < 10
  · have hyear : 1970 ≤ year := by omega
    rw [if_pos hk, if_neg (by omega), Nat.add_zero]
    exact date_fromMarch (by omega) hbegin hend hyear
  · have hyear : 1969 ≤ year := by omega
    have hlast : rest < 337 + daysOfMonth (year + 1) 2 := by
      by_cases hlong : rest = 365
      · rw [daysOfMonth, if_pos (hleap hlong)]
        omega
      · rw [daysOfMonth]
        split <;> omega
    rw [if_neg hk, if_pos (by omega)]
    exact date_untilMarch (by omega) hbegin (by omega) hlast hyear

/-- Whole eras and the years of one. -/
theorem eraDays_add (era year : Nat) (h : year < 400) :
    era * 146097 + eraDays year = 365 * (year + 400 * era) + leapYears (year + 400 * era) := by
  rw [eraDays, leapYears]
  omega

/-- The date of a day counted from the first era on. -/
theorem date_of_shifted {shifted era day year : Nat} (hfirst : 719468 ≤ shifted)
    (hera : era = shifted / 146097) (hday : day = shifted - era * 146097)
    (hyear : year = yearOfEra day) : ∃ rest ≤ 365, day = eraDays year + rest ∧ year < 400 ∧
      (153 * monthFromMarch rest + 2) / 5 ≤ rest ∧ monthFromMarch rest ≤ 11 ∧
      ∀ month civil, month = (if monthFromMarch rest < 10 then monthFromMarch rest + 3
          else monthFromMarch rest - 9) →
        civil = year + 400 * era + (if month ≤ 2 then 1 else 0) →
        IsDate civil month (rest - (153 * monthFromMarch rest + 2) / 5 + 1) ∧
          dayNumber civil month (rest - (153 * monthFromMarch rest + 2) / 5 + 1) + 719468 =
            shifted := by
  have hbound : day < 146097 := by omega
  obtain ⟨rest, hrest, hsum, hlast, hleap⟩ := eraDays_yearOfEra hbound
  rw [← hyear] at hsum hlast hleap
  have hcount := eraDays_add era year hlast
  have hshifted : shifted = 365 * (year + 400 * era) + leapYears (year + 400 * era) + rest := by
    omega
  rw [hshifted] at hfirst
  obtain ⟨hbegin, hlate, hdate⟩ := date_monthFromMarch hrest (fun h => hleap h era) hfirst
  refine ⟨rest, hrest, hsum, hlast, hbegin, hlate, ?_⟩
  intro month civil hmonth hcivil
  rw [hshifted]
  exact hdate month civil hmonth hcivil

end Calendar
end ProcessStart
