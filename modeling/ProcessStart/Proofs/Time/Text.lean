import ProcessStart.Proofs.Text.Order
import ProcessStart.Proofs.Time.Dates

/-!
The text of an instant. Its shape bounds its length whatever the numbers in it
are, with as many digits as a year or a millisecond can have. Up to the year
9999, texts sort as the instants do: the text is seven numbers in columns, from
the year to the millisecond, each of which fits into its column, so two texts
compare as their numbers do, and these compare as the milliseconds in which the
instants lie.
-/
namespace ProcessStart.Instant

/-- The shape of the text, whatever the numbers in it are. -/
theorem text_shape (t : Instant) :
    ∃ (year month day hour minute second : UInt64) (millisecond : UInt32),
      t.text = Text.padded 4 year.toNat ++ '-' :: Text.padded 2 month.toNat ++
        '-' :: Text.padded 2 day.toNat ++ 'T' :: Text.padded 2 hour.toNat ++
        ':' :: Text.padded 2 minute.toNat ++ ':' :: Text.padded 2 second.toNat ++
        '.' :: Text.padded 3 millisecond.toNat ++ ['Z'] :=
  ⟨t.date.year, t.date.month, t.date.day, t.hour, t.minute, t.second, t.millisecond, rfl⟩

theorem isPlain_text (t : Instant) : Text.IsPlain t.text := by
  obtain ⟨year, month, day, hour, minute, second, millisecond, ht⟩ := t.text_shape
  rw [ht]
  simp only [List.cons_append, List.append_assoc, Text.isPlain_append,
    Text.isPlain_cons (s := _ ++ _), Text.isPlain_padded, true_and]
  decide

/-- Twenty digits for a number of 64 bits, ten for one of 32, and seven marks. -/
theorem length_text_le (t : Instant) : t.text.length ≤ 137 := by
  obtain ⟨year, month, day, hour, minute, second, millisecond, ht⟩ := t.text_shape
  have hlong : ∀ (width : Nat) (n : UInt64), width ≤ 20 →
      (Text.padded width n.toNat).length ≤ 20 :=
    fun _ n hw => Text.length_padded_le hw (Text.length_decimal_le n)
  have hyear := hlong 4 year (by decide)
  have hmonth := hlong 2 month (by decide)
  have hday := hlong 2 day (by decide)
  have hhour := hlong 2 hour (by decide)
  have hminute := hlong 2 minute (by decide)
  have hsecond := hlong 2 second (by decide)
  have hmillisecond : (Text.padded 3 millisecond.toNat).length ≤ 10 :=
    Text.length_padded_le (by decide) (Text.length_decimal_le_ten millisecond)
  rw [ht]
  simp only [List.length_append, List.length_cons, List.length_nil]
  omega

open Calendar

/-- Less than a second behind its seconds, and before the year 10000. -/
structure IsRegular (t : Instant) : Prop where
  nanos_lt : t.nanos.toNat < 1000000000
  secs_lt : t.secs.toNat < 253402300800

instance (t : Instant) : Decidable t.IsRegular :=
  decidable_of_iff (t.nanos.toNat < 1000000000 ∧ t.secs.toNat < 253402300800)
    ⟨fun h => ⟨h.1, h.2⟩, fun h => ⟨h.1, h.2⟩⟩

def layout : List (Nat × Char) :=
  [(4, '-'), (2, '-'), (2, 'T'), (2, ':'), (2, ':'), (2, '.'), (3, 'Z')]

def dateNumbers (t : Instant) : List Nat :=
  [t.date.year.toNat, t.date.month.toNat, t.date.day.toNat]

def clockNumbers (t : Instant) : List Nat :=
  [t.hour.toNat, t.minute.toNat, t.second.toNat, t.millisecond.toNat]

/-- Whatever the numbers are; those of an instant are too long to work out. -/
theorem columns_layout (year month day hour minute second millisecond : Nat) :
    Text.columns layout ([year, month, day] ++ [hour, minute, second, millisecond]) =
      Text.padded 4 year ++ '-' :: Text.padded 2 month ++ '-' :: Text.padded 2 day ++
        'T' :: Text.padded 2 hour ++ ':' :: Text.padded 2 minute ++ ':' :: Text.padded 2 second ++
        '.' :: Text.padded 3 millisecond ++ ['Z'] := by
  simp only [layout, List.cons_append, List.nil_append, Text.columns, List.append_assoc]

/-- The text is a row of numbers, each with its mark behind it. -/
theorem text_eq_columns (t : Instant) :
    t.text = Text.columns layout (t.dateNumbers ++ t.clockNumbers) :=
  (columns_layout _ _ _ _ _ _ _).symm

theorem daysOfYears_untilTenThousand : daysOfYears 8030 = 2932897 :=
  Nat.add_right_cancel ((daysOfYears_eq 8030).trans (by decide))

/-- A regular instant has a year of four digits. -/
theorem year_lt {t : Instant} (h : t.IsRegular) : t.date.year.toNat < 10000 := by
  have hsecs := h.secs_lt
  have hnumber := t.dayNumber_date
  rw [dayNumber] at hnumber
  refine Nat.lt_of_not_le fun hlate => ?_
  have hyears := daysOfYears_le (show 8030 ≤ t.date.year.toNat - 1970 by omega)
  rw [daysOfYears_untilTenThousand] at hyears
  omega

theorem day_le (t : Instant) : t.date.day.toNat ≤ 31 :=
  Nat.le_trans t.isDate_date.2.2.2.2 (daysOfMonth_le _ _)

theorem toNat_millisecond (t : Instant) : t.millisecond.toNat = t.nanos.toNat / 1000000 :=
  UInt32.toNat_div _ _

/-- None of the columns is too narrow for a regular instant. -/
theorem fits_numbers {t : Instant} (h : t.IsRegular) :
    Text.Fits layout (t.dateNumbers ++ t.clockNumbers) := by
  have htwo : ∀ {n : Nat}, n < 100 → (Text.decimal n).length ≤ 2 :=
    fun hn => (Nat.length_toDigits_le_iff (by decide) (by decide)).mpr hn
  have hyear : (Text.decimal t.date.year.toNat).length ≤ 4 :=
    (Nat.length_toDigits_le_iff (by decide) (by decide)).mpr (year_lt h)
  have hmillisecond : (Text.decimal t.millisecond.toNat).length ≤ 3 := by
    have hnanos := h.nanos_lt
    refine (Nat.length_toDigits_le_iff (by decide) (by decide)).mpr ?_
    rw [toNat_millisecond]
    omega
  obtain ⟨-, -, hmonth, -⟩ := t.isDate_date
  obtain ⟨hhour, hminute, hsecond, -⟩ := t.timeOfDay
  have hday := t.day_le
  exact ⟨hyear, htwo (by omega), htwo (by omega), htwo (by omega), htwo (by omega),
    htwo (by omega), hmillisecond, trivial⟩

/-- Dates are in the order of the days. -/
theorem lex_dateNumbers {t u : Instant} : List.Lex (· < ·) t.dateNumbers u.dateNumbers ↔
    t.secs.toNat / 86400 < u.secs.toNat / 86400 := by
  rw [← dayNumber_date, ← dayNumber_date, ← earlier_iff t.isDate_date u.isDate_date, dateNumbers,
    dateNumbers]
  simp only [List.cons_lex_cons_iff, List.not_lex_nil, and_false, or_false]
  exact Iff.rfl

theorem length_dateNumbers (t : Instant) : t.dateNumbers.length = 3 := rfl

theorem dateNumbers_eq_iff {t u : Instant} :
    t.dateNumbers = u.dateNumbers ↔ t.secs.toNat / 86400 = u.secs.toNat / 86400 := by
  rw [← date_eq_iff]
  constructor
  · intro h
    obtain ⟨hyear, h⟩ := List.cons.inj h
    obtain ⟨hmonth, h⟩ := List.cons.inj h
    obtain ⟨hday, -⟩ := List.cons.inj h
    exact CivilDate.eq_of_fields (UInt64.toNat_inj.mp hyear) (UInt64.toNat_inj.mp hmonth)
      (UInt64.toNat_inj.mp hday)
  · intro h
    rw [dateNumbers, dateNumbers, h]

/-- Times of day are in the order of seconds, then of milliseconds. -/
theorem lex_clockNumbers {t u : Instant} : List.Lex (· < ·) t.clockNumbers u.clockNumbers ↔
    t.secs.toNat % 86400 < u.secs.toNat % 86400 ∨
      t.secs.toNat % 86400 = u.secs.toNat % 86400 ∧
        t.nanos.toNat / 1000000 < u.nanos.toNat / 1000000 := by
  obtain ⟨-, hminute, hsecond, ht⟩ := t.timeOfDay
  obtain ⟨-, hminute', hsecond', hu⟩ := u.timeOfDay
  rw [← ht, ← hu, ← toNat_millisecond, ← toNat_millisecond, clockNumbers, clockNumbers]
  simp only [List.cons_lex_cons_iff, List.not_lex_nil, and_false, or_false]
  omega

theorem clockNumbers_congr {t u : Instant} (hsecs : t.secs.toNat = u.secs.toNat)
    (hmillisecond : t.nanos.toNat / 1000000 = u.nanos.toNat / 1000000) :
    t.clockNumbers = u.clockNumbers := by
  have hsame : t.secs = u.secs := UInt64.toNat_inj.mp hsecs
  rw [clockNumbers, clockNumbers, toNat_millisecond, toNat_millisecond, hmillisecond]
  simp only [hour, minute, second, secondOfDay, hsame]

/-- The numbers compare as the milliseconds in which the instants lie. -/
theorem lex_numbers {t u : Instant} :
    List.Lex (· < ·) (t.dateNumbers ++ t.clockNumbers) (u.dateNumbers ++ u.clockNumbers) ↔
      t.secs.toNat < u.secs.toNat ∨ t.secs.toNat = u.secs.toNat ∧
        t.nanos.toNat / 1000000 < u.nanos.toNat / 1000000 := by
  have hlength := t.length_dateNumbers.trans u.length_dateNumbers.symm
  rw [Text.lex_append_iff Nat.lt_irrefl hlength, lex_dateNumbers, dateNumbers_eq_iff,
    lex_clockNumbers]
  omega

theorem length_text {t : Instant} (h : t.IsRegular) : t.text.length = 24 := by
  rw [text_eq_columns, Text.length_columns (fits_numbers h)]
  rfl

/-- Texts of regular instants are in the order of their milliseconds. -/
theorem lex_text {t u : Instant} (ht : t.IsRegular) (hu : u.IsRegular) :
    List.Lex (· < ·) t.text u.text ↔
      t.secs.toNat < u.secs.toNat ∨ t.secs.toNat = u.secs.toNat ∧
        t.nanos.toNat / 1000000 < u.nanos.toNat / 1000000 := by
  rw [text_eq_columns, text_eq_columns, Text.lex_columns (fits_numbers ht) (fits_numbers hu),
    lex_numbers]

/-- Instants in the same millisecond have the same text, and only these. -/
theorem text_eq_iff {t u : Instant} (ht : t.IsRegular) (hu : u.IsRegular) :
    t.text = u.text ↔ t.secs.toNat = u.secs.toNat ∧
      t.nanos.toNat / 1000000 = u.nanos.toNat / 1000000 := by
  constructor
  · intro htext
    -- Neither text is in front of the other, so neither millisecond is.
    have hirrefl := List.lex_irrefl Char.lt_irrefl t.text
    have hbefore : ¬ List.Lex (· < ·) t.text u.text := by
      rw [← htext]
      exact hirrefl
    have hafter : ¬ List.Lex (· < ·) u.text t.text := by
      rw [← htext]
      exact hirrefl
    rw [lex_text ht hu] at hbefore
    rw [lex_text hu ht] at hafter
    omega
  · rintro ⟨hsecs, hmillisecond⟩
    have hdate : t.dateNumbers = u.dateNumbers := dateNumbers_eq_iff.mpr (by rw [hsecs])
    rw [text_eq_columns, text_eq_columns, hdate, clockNumbers_congr hsecs hmillisecond]

/-- Up to the year 9999, texts sort as the instants do: they are all of one length, and byte by byte
they compare as the milliseconds in which the instants lie, so that a text stands for one of them. -/
theorem text_sorts {t u : Instant} (ht : t.IsRegular) (hu : u.IsRegular) :
    (t.text.length = 24 ∧ Text.IsAscii t.text ∧ u.text.length = 24 ∧ Text.IsAscii u.text) ∧
    (List.Lex (· < ·) (Text.utf8Encode t.text) (Text.utf8Encode u.text) ↔
      t.secs.toNat < u.secs.toNat ∨ t.secs.toNat = u.secs.toNat ∧
        t.nanos.toNat / 1000000 < u.nanos.toNat / 1000000) ∧
    (t.text = u.text ↔ t.secs.toNat = u.secs.toNat ∧
      t.nanos.toNat / 1000000 = u.nanos.toNat / 1000000) := by
  have hascii := t.isPlain_text.isAscii
  have hascii' := u.isPlain_text.isAscii
  refine ⟨⟨length_text ht, hascii, length_text hu, hascii'⟩, ?_, text_eq_iff ht hu⟩
  rw [Text.lex_utf8Encode hascii hascii', lex_text ht hu]

/-- The last millisecond of a leap day, which has one text, and the first of the day behind it. -/
theorem text_sorts_leapDay :
    (text ⟨951868799, 999000000⟩).length = 24 ∧
    text ⟨951868799, 999999999⟩ = text ⟨951868799, 999000000⟩ ∧
    List.Lex (· < ·) (Text.utf8Encode (text ⟨951868799, 999999999⟩))
      (Text.utf8Encode (text ⟨951868800, 0⟩)) := by
  have hfirst : IsRegular ⟨951868799, 999000000⟩ := by decide
  have hlast : IsRegular ⟨951868799, 999999999⟩ := by decide
  have hnext : IsRegular ⟨951868800, 0⟩ := by decide
  have hsame := text_sorts hlast hfirst
  have hbefore := text_sorts hlast hnext
  exact ⟨hsame.1.2.2.1, hsame.2.2.mpr (by decide), hbefore.2.1.mpr (by decide)⟩

end ProcessStart.Instant
