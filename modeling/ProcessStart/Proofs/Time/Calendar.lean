import ProcessStart.Time

/-!
The calendar's own rule: how many leap years there are, how the months follow
each other from March on, and that the number of a day grows with its date, so
that no two dates have the same number.
-/
namespace ProcessStart.Calendar

theorem isLeap_iff {year : Nat} :
    isLeap year = true ↔ year % 4 = 0 ∧ year % 100 ≠ 0 ∨ year % 400 = 0 := by
  simp [isLeap]

def leapYears (n : Nat) : Nat := n / 4 - n / 100 + n / 400

theorem leapYears_succ (n : Nat) :
    leapYears (n + 1) + 365 = leapYears n + daysOfYear (n + 1) := by
  have h4 : (n + 1) / 4 = n / 4 + if (n + 1) % 4 = 0 then 1 else 0 := by split <;> omega
  have h100 : (n + 1) / 100 = n / 100 + if (n + 1) % 100 = 0 then 1 else 0 := by split <;> omega
  have h400 : (n + 1) / 400 = n / 400 + if (n + 1) % 400 = 0 then 1 else 0 := by split <;> omega
  have hless : n / 100 ≤ n / 4 := by omega
  rw [leapYears, leapYears, h4, h100, h400, daysOfYear]
  by_cases hfour : (n + 1) % 4 = 0
  · by_cases hhundred : (n + 1) % 100 = 0
    · by_cases hera : (n + 1) % 400 = 0
      · rw [if_pos hfour, if_pos hhundred, if_pos hera, if_pos (isLeap_iff.mpr (.inr hera))]
        omega
      · have hcommon : ¬ isLeap (n + 1) = true := by
          rw [isLeap_iff]
          omega
        rw [if_pos hfour, if_pos hhundred, if_neg hera, if_neg hcommon]
        omega
    · rw [if_pos hfour, if_neg hhundred, if_neg (show (n + 1) % 400 ≠ 0 by omega),
        if_pos (isLeap_iff.mpr (.inl ⟨hfour, hhundred⟩))]
      omega
  · have hcommon : ¬ isLeap (n + 1) = true := by
      rw [isLeap_iff]
      omega
    rw [if_neg hfour, if_neg (show (n + 1) % 100 ≠ 0 by omega),
      if_neg (show (n + 1) % 400 ≠ 0 by omega), if_neg hcommon]
    omega

/-- 719527 days lie between the beginning of the count and 1970. -/
theorem daysOfYears_eq (n : Nat) :
    daysOfYears n + 719527 = 365 * (1970 + n) + leapYears (1969 + n) := by
  induction n with
  | zero => rfl
  | succ n ih =>
    have hnext := leapYears_succ (1969 + n)
    have hyear : 1969 + n + 1 = 1970 + n := by omega
    rw [daysOfYears, ← Nat.add_assoc 1969, hyear]
    rw [hyear] at hnext
    omega

theorem daysOfYears_le {m n : Nat} (h : m ≤ n) : daysOfYears m ≤ daysOfYears n := by
  induction h with
  | refl => exact Nat.le_refl _
  | step _ ih => exact Nat.le_trans ih (Nat.le_add_right _ _)

/-- Where a month begins in a year that begins in March, and where the one behind it does. -/
theorem daysOfMonth_fromMarch (year : Nat) {k : Nat} (h : k ≤ 9) :
    (153 * k + 2) / 5 + daysOfMonth year (k + 3) = (153 * (k + 1) + 2) / 5 := by
  have hk : k = 0 ∨ k = 1 ∨ k = 2 ∨ k = 3 ∨ k = 4 ∨ k = 5 ∨ k = 6 ∨ k = 7 ∨ k = 8 ∨ k = 9 := by
    omega
  rcases hk with rfl | rfl | rfl | rfl | rfl | rfl | rfl | rfl | rfl | rfl <;> rfl

theorem daysOfMonth_le (year month : Nat) : daysOfMonth year month ≤ 31 := by
  unfold daysOfMonth
  split
  case h_2 => split <;> decide
  all_goals decide

theorem daysOfMonth_february (year : Nat) : daysOfMonth year 2 + 337 = daysOfYear year := by
  simp only [daysOfMonth, daysOfYear]
  split <;> rfl

theorem daysOfMonths_march (year : Nat) : daysOfMonths year 2 + 306 = daysOfYear year := by
  have hfebruary := daysOfMonth_february year
  have hboth : daysOfMonths year 2 = 31 + daysOfMonth year 2 := rfl
  omega

/-- From March on, the months before a month have the days that one division gives. -/
theorem daysOfMonths_fromMarch (year : Nat) {k : Nat} (h : k ≤ 10) :
    daysOfMonths year (k + 2) + 306 = daysOfYear year + (153 * k + 2) / 5 := by
  induction k with
  | zero => exact daysOfMonths_march year
  | succ k ih =>
    have hbefore := ih (by omega)
    have hmonth := daysOfMonth_fromMarch year (show k ≤ 9 by omega)
    have hnext : daysOfMonths year (k + 1 + 2) =
      daysOfMonths year (k + 2) + daysOfMonth year (k + 3) := rfl
    omega

theorem daysOfMonths_twelve (year : Nat) : daysOfMonths year 12 = daysOfYear year := by
  have h := daysOfMonths_fromMarch year (Nat.le_refl 10)
  exact Nat.add_right_cancel h

theorem daysOfMonths_le (year : Nat) {m n : Nat} (h : m ≤ n) :
    daysOfMonths year m ≤ daysOfMonths year n := by
  induction h with
  | refl => exact Nat.le_refl _
  | step _ ih => exact Nat.le_trans ih (Nat.le_add_right _ _)

/-- A date comes before another: by the year, then by the month, then by the day. -/
def Earlier (year month day year' month' day' : Nat) : Prop :=
  year < year' ∨ year = year' ∧ (month < month' ∨ month = month' ∧ day < day')

theorem earlier_or_eq_or_earlier (year month day year' month' day' : Nat) :
    Earlier year month day year' month' day' ∨
      (year = year' ∧ month = month' ∧ day = day') ∨
      Earlier year' month' day' year month day := by
  obtain hy | rfl | hy := Nat.lt_trichotomy year year'
  · exact .inl (.inl hy)
  · obtain hm | rfl | hm := Nat.lt_trichotomy month month'
    · exact .inl (.inr ⟨rfl, .inl hm⟩)
    · obtain hd | rfl | hd := Nat.lt_trichotomy day day'
      · exact .inl (.inr ⟨rfl, .inr ⟨rfl, hd⟩⟩)
      · exact .inr (.inl ⟨rfl, rfl, rfl⟩)
      · exact .inr (.inr (.inr ⟨rfl, .inr ⟨rfl, hd⟩⟩))
    · exact .inr (.inr (.inr ⟨rfl, .inl hm⟩))
  · exact .inr (.inr (.inl hy))

/-- A date lies within its month, hence before all later months. -/
theorem IsDate.day_le {year month day : Nat} (h : IsDate year month day) :
    daysOfMonths year (month - 1) + day ≤ daysOfMonths year month := by
  obtain ⟨-, hmonth, -, -, hday⟩ := h
  have hstep : daysOfMonths year (month - 1 + 1) =
      daysOfMonths year (month - 1) + daysOfMonth year (month - 1 + 1) := rfl
  rw [Nat.sub_add_cancel hmonth] at hstep
  omega

/-- A date lies within its year. -/
theorem IsDate.dayNumber_lt {year month day : Nat} (h : IsDate year month day) :
    dayNumber year month day < daysOfYears (year - 1970 + 1) := by
  have hday := h.day_le
  obtain ⟨hyear, -, hmonth, hfirst, -⟩ := h
  have hmonths := daysOfMonths_le year hmonth
  rw [daysOfMonths_twelve] at hmonths
  have hlength : daysOfYears (year - 1970 + 1) =
      daysOfYears (year - 1970) + daysOfYear (1970 + (year - 1970)) := rfl
  rw [Nat.add_sub_cancel' hyear] at hlength
  rw [dayNumber]
  omega

/-- Later dates have greater numbers. -/
theorem dayNumber_lt {year month day year' month' day' : Nat} (h : IsDate year month day)
    (h' : IsDate year' month' day') (hlt : Earlier year month day year' month' day') :
    dayNumber year month day < dayNumber year' month' day' := by
  obtain hyear | ⟨rfl, hmonth | ⟨rfl, hday⟩⟩ := hlt
  · have hin := h.dayNumber_lt
    have hyears := daysOfYears_le (show year - 1970 + 1 ≤ year' - 1970 by have := h.1; omega)
    rw [dayNumber.eq_1 year']
    omega
  · have hin := h.day_le
    have hfirst := h.2.2.2.1
    have hmonths := daysOfMonths_le year (show month ≤ month' - 1 by omega)
    simp only [dayNumber]
    omega
  · have hfirst := h.2.2.2.1
    simp only [dayNumber]
    omega

/-- A date can be told by its number. -/
theorem eq_of_dayNumber_eq {year month day year' month' day' : Nat} (h : IsDate year month day)
    (h' : IsDate year' month' day') (he : dayNumber year month day = dayNumber year' month' day') :
    year = year' ∧ month = month' ∧ day = day' := by
  obtain hlt | heq | hgt := earlier_or_eq_or_earlier year month day year' month' day'
  · have := dayNumber_lt h h' hlt
    omega
  · exact heq
  · have := dayNumber_lt h' h hgt
    omega

/-- The calendar's dates are in the order of their day numbers. -/
theorem earlier_iff {year month day year' month' day' : Nat} (h : IsDate year month day)
    (h' : IsDate year' month' day') : Earlier year month day year' month' day' ↔
      dayNumber year month day < dayNumber year' month' day' := by
  refine ⟨dayNumber_lt h h', ?_⟩
  intro hlt
  obtain hbefore | ⟨rfl, rfl, rfl⟩ | hafter :=
    earlier_or_eq_or_earlier year month day year' month' day'
  · exact hbefore
  · exact absurd hlt (Nat.lt_irrefl _)
  · exact absurd (dayNumber_lt h' h hafter) (Nat.lt_asymm hlt)

end ProcessStart.Calendar
