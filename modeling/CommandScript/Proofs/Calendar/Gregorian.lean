import Mathlib.Tactic.IntervalCases
import Mathlib.Tactic.Lemma
import CommandScript.Calendar

/-!
# Dates are those of the Gregorian calendar

A day is numbered from the first of 1970, and its date is computed from the number by a chain of
divisions. The dates that come out are those of the Gregorian calendar: the first one is what it
should be, and from one day to the next the date goes on as the calendar says, by the lengths of its
months and its leap years, forward and backward without end.

The argument is run on years that begin in March, as the computation is. Such a year ends with
February, so that the leap day is its last day, and all other months have lengths in a fixed
pattern. A day is then given by a year, a month and a day of the month, all from zero, and every
number of a day can be written in this way. The divisions undo this: they find the year, then the
month, then the day.

The computation is carried out in words of 64 bits. So there is a second version of it, in which
every step must fit in a word, and from every number of milliseconds that is a word, all of them do.

## Main definitions

* `Calendar.Leap`, `Calendar.monthLength` — the rules of the calendar.
* `Calendar.Date.Valid`, `Calendar.Date.next` — the dates that there are, and the day after.
* `Calendar.InMarchYear`, `Calendar.civil` — the days of a year that begins in March, and their
  dates.
* `Calendar.word?` — the result of an operation on words, if there is no overflow.
* `Calendar.momentOf?`, `Calendar.dateOfDay?` — the computation in words.

## Main results

* `Calendar.dateOfDay_marchDays` — the divisions find year, month and day.
* `Calendar.next_civil` — the next date, in years that begin in March.
* `Calendar.exists_marchDays` — every day has a year, month and day.
* `Calendar.dateOfDay_add_one` — the date of the day after is the next date.
* `Calendar.dateOfDay?_eq`, `Calendar.momentOf?_eq` — nothing overflows.
* `Calendar.dates_gregorian` — all of it.
-/

set_option autoImplicit false

namespace CommandScript.Calendar

/-! ## The rules of the calendar -/

/-- Every fourth year is a leap year, but of the years that end a century only every fourth one. -/
def Leap (year : Int) : Prop :=
  4 ∣ year ∧ (¬ 100 ∣ year ∨ 400 ∣ year)

instance (year : Int) : Decidable (Leap year) :=
  inferInstanceAs (Decidable (_ ∧ _))

/-- The number of days of a month. -/
def monthLength (year month : Int) : Int :=
  if month = 2 then
    if Leap year then 29 else 28
  else if month = 4 ∨ month = 6 ∨ month = 9 ∨ month = 11 then 30
  else 31

namespace Date

/-- There is such a month, and it has such a day. -/
structure Valid (d : Date) : Prop where
  /-- Months are counted from one. -/
  one_le_month : 1 ≤ d.month
  /-- There are twelve months. -/
  month_le : d.month ≤ 12
  /-- Days are counted from one. -/
  one_le_day : 1 ≤ d.day
  /-- The month has that many days. -/
  day_le : d.day ≤ monthLength d.year d.month

/-- The day after: the next one of the month, or the first one of the next month, or of the next
year. -/
def next (d : Date) : Date :=
  if d.day < monthLength d.year d.month then { d with day := d.day + 1 }
  else if d.month < 12 then ⟨d.year, d.month + 1, 1⟩
  else ⟨d.year + 1, 1, 1⟩

end Date

/-! ## Years that begin in March -/

/-- The number of days before the year, from the first of March of the year zero. -/
def yearStart (year : Int) : Int :=
  365 * year + year / 4 - year / 100 + year / 400

/-- The number of days before the month in its year. Months are counted from March, from zero. -/
def monthStart (month : Int) : Int :=
  (153 * month + 2) / 5

/-- The number of a day from the first of March of the year zero. -/
def marchDays (year month day : Int) : Int :=
  yearStart year + monthStart month + day

/-- The number of days of a month, counted from March. The last one, February, is in the next year
already. -/
def marchLength (year month : Int) : Int :=
  if month = 11 then
    if Leap (year + 1) then 29 else 28
  else monthStart (month + 1) - monthStart month

/-- The month is one of twelve, counted from March, from zero, and the day is one of its days,
counted from zero. -/
structure InMarchYear (year month day : Int) : Prop where
  /-- March is the first month. -/
  month_nonneg : 0 ≤ month
  /-- February is the last one. -/
  month_le : month ≤ 11
  /-- Days are counted from zero. -/
  day_nonneg : 0 ≤ day
  /-- The month has that many days. -/
  day_lt : day < marchLength year month

/-- The date, with January for the first month. -/
def civil (year month day : Int) : Date :=
  if month < 10 then ⟨year, month + 3, day + 1⟩ else ⟨year + 1, month - 9, day + 1⟩

section March

variable {year month day : Int}

/-- From March to December the year is the same in both ways of counting. -/
lemma civil_of_lt (h : month < 10) : civil year month day = ⟨year, month + 3, day + 1⟩ :=
  if_pos h

/-- January and February are in the next year. -/
lemma civil_of_le (h : 10 ≤ month) : civil year month day = ⟨year + 1, month - 9, day + 1⟩ :=
  if_neg (by omega)

/-- The lengths of months are the same in both ways of counting. -/
lemma monthLength_civil (h : InMarchYear year month day) :
    monthLength (civil year month day).year (civil year month day).month =
      marchLength year month := by
  obtain ⟨h0, h11, -, -⟩ := h
  interval_cases month <;> simp [civil, monthLength, marchLength, monthStart]

/-- A day of a year that begins in March is a date of the calendar. -/
lemma valid_civil (h : InMarchYear year month day) : (civil year month day).Valid := by
  have hlength := monthLength_civil h
  obtain ⟨h0, h11, hday, hlt⟩ := h
  by_cases hmonth : month < 10
  · rw [civil_of_lt hmonth] at hlength ⊢
    constructor <;> dsimp only at hlength ⊢ <;> omega
  · rw [civil_of_le (by omega)] at hlength ⊢
    constructor <;> dsimp only at hlength ⊢ <;> omega

/-- February has 29 days at most. -/
lemma marchLength_february (year : Int) : marchLength year 11 ≤ 29 := by
  unfold marchLength
  split_ifs <;> omega

/-- The days of a year that begins in March are counted through to its leap day. -/
lemma dayOfYear_bounds (h : InMarchYear year month day) :
    0 ≤ monthStart month + day ∧
      (monthStart month + day < 365 ∨ monthStart month + day = 365 ∧ Leap (year + 1)) := by
  obtain ⟨h0, h11, hday, hlt⟩ := h
  unfold marchLength at hlt
  by_cases hlast : month = 11
  · subst hlast
    by_cases hleap : Leap (year + 1)
    · rw [if_pos rfl, if_pos hleap] at hlt
      simp only [monthStart]
      refine ⟨by omega, ?_⟩
      by_cases h28 : day < 28
      · left
        omega
      · exact .inr ⟨by omega, hleap⟩
    · rw [if_pos rfl, if_neg hleap] at hlt
      simp only [monthStart]
      omega
  · rw [if_neg hlast] at hlt
    simp only [monthStart] at hlt ⊢
    omega

end March

/-! ## The year, the month and the day are found

Within a span of 400 years, the year is found by leaving out the leap days: what is left is a year
for each 365 days. The corrections count the leap days before a day, up to a few days; the two
lemmas here say that they count well enough. -/

/-- Centuries are counted by their days, although the last one of a span has one day more. -/
lemma century_count {c s : Int} (hc : 0 ≤ c ∧ c ≤ 3)
    (hs : 0 ≤ s ∧ (s < 36524 ∨ c = 3 ∧ s = 36524)) :
    (36524 * c + s) / 36524 - (36524 * c + s) / 146096 = c := by
  omega

/-- Leap days are counted by the days of four years, up to an error that stays within a year. Here
`w` is the year of the century `c`, and `r` is the day of that year. -/
lemma leapDay_count {c w r : Int} (hc : 0 ≤ c ∧ c ≤ 3) (hw : 0 ≤ w ∧ w < 100)
    (hr : 0 ≤ r ∧ (r < 365 ∨ r = 365 ∧ w % 4 = 3)) :
    0 ≤ 25 * c + w / 4 + r - (36524 * c + (365 * w + w / 4 + r)) / 1460 ∧
      25 * c + w / 4 + r - (36524 * c + (365 * w + w / 4 + r)) / 1460 < 365 := by
  omega

/-- The year of a span of 400 years is found from the day of the span.

**Proof sketch.** Let `y = 100 * c + w`. The number of the day is `36524 * c` and the days in the
century, and these are `365 * w + w / 4 + r`. By `century_count` the two corrections for centuries
come to `c`, and by `leapDay_count` the one for four years leaves a remainder less than a year. -/
lemma yearOfSpan_eq {y r : Int} (hy : 0 ≤ y ∧ y < 400)
    (hr : 0 ≤ r ∧ (r < 365 ∨ r = 365 ∧ Leap (y + 1))) {n : Int}
    (hn : n = 365 * y + y / 4 - y / 100 + r) :
    (n - n / 1460 + n / 36524 - n / 146096) / 365 = y := by
  obtain ⟨c, w, rfl, hc0, hw0, hw⟩ : ∃ c w, y = 100 * c + w ∧ 0 ≤ c ∧ 0 ≤ w ∧ w < 100 :=
    ⟨y / 100, y % 100, by omega, by omega, by omega, by omega⟩
  obtain rfl : n = 36524 * c + (365 * w + w / 4 + r) := by omega
  have hc : c ≤ 3 := by omega
  have hday : r < 365 ∨ r = 365 ∧ w % 4 = 3 ∧ (w < 99 ∨ c = 3) := by
    rcases hr.2 with h | ⟨h, hleap⟩
    · exact .inl h
    · obtain ⟨hfour, hcentury⟩ := hleap
      exact .inr ⟨h, by omega, by omega⟩
  have hcentury := century_count (c := c) (s := 365 * w + w / 4 + r) ⟨hc0, hc⟩ (by omega)
  have hleap := leapDay_count (c := c) (w := w) (r := r) ⟨hc0, hc⟩ ⟨hw0, hw⟩ (by omega)
  omega

/-- The month is found from the day of a year that begins in March. -/
lemma monthFromMarch_eq {year month day : Int} (h : InMarchYear year month day) :
    (5 * (monthStart month + day) + 2) / 153 = month := by
  obtain ⟨h0, h11, hday, hlt⟩ := h
  by_cases hlast : month = 11
  · subst hlast
    have hlength := marchLength_february year
    simp only [monthStart]
    omega
  · rw [marchLength, if_neg hlast] at hlt
    simp only [monthStart] at hlt ⊢
    omega

/-- The start of a year, by its span of 400 years and the year of the span. -/
lemma yearStart_span (span y : Int) :
    yearStart (400 * span + y) = 146097 * span + yearStart y := by
  unfold yearStart
  omega

/-- A span of 400 years has 146097 days. -/
lemma yearStart_bounds {y : Int} (hy : 0 ≤ y ∧ y < 400) :
    0 ≤ yearStart y ∧ yearStart y ≤ 145731 := by
  have hcenturies : y / 100 ≤ y / 4 := by omega
  have hspan : y / 400 = 0 := by omega
  unfold yearStart
  omega

/-- Leap years come back after 400 years. -/
lemma leap_span (span y : Int) : Leap (400 * span + y) ↔ Leap y := by
  unfold Leap
  omega

/-- The results of the divisions within a span of 400 years. Here `n` is the day of the span, `y`
the year of the span, and `r` the day of the year. -/
structure Divisions (n y r month day : Int) : Prop where
  /-- The day is one of the span. -/
  dayOfSpan : 0 ≤ n ∧ n < 146097
  /-- The year is found from the day. -/
  yearOfSpan : (n - n / 1460 + n / 36524 - n / 146096) / 365 = y
  /-- The days of the years before it are subtracted. -/
  dayOfYear : n - (365 * y + y / 4 - y / 100) = r
  /-- The month is found from the day of the year. -/
  monthFromMarch : (5 * r + 2) / 153 = month
  /-- The days of the months before it are subtracted. -/
  day : r - (153 * month + 2) / 5 = day

/-- The divisions go as they should for every day of a year that begins in March.

**Proof sketch.** From the day of the span `yearOfSpan_eq` finds the year, what is left is the day
of the year, and `monthFromMarch_eq` finds the month. -/
lemma divisions_of_inMarchYear {span y month day : Int} (hy : 0 ≤ y ∧ y < 400)
    (h : InMarchYear (400 * span + y) month day) :
    Divisions (yearStart y + (monthStart month + day)) y (monthStart month + day) month day := by
  have hr := dayOfYear_bounds h
  rw [add_assoc, leap_span] at hr
  have hstart : yearStart y = 365 * y + y / 4 - y / 100 := by
    unfold yearStart
    omega
  refine ⟨?_, yearOfSpan_eq hy hr (by omega), by omega, monthFromMarch_eq h, ?_⟩
  · have := yearStart_bounds hy
    omega
  · unfold monthStart
    omega

/-- Every day of a year that begins in March belongs to a span of 400 years. -/
lemma exists_span {year month day : Int} (h : InMarchYear year month day) :
    ∃ span y n, year = 400 * span + y ∧ (0 ≤ y ∧ y < 400) ∧
      marchDays year month day = 146097 * span + n ∧
      Divisions n y (monthStart month + day) month day := by
  obtain ⟨span, y, rfl, hy⟩ : ∃ span y, year = 400 * span + y ∧ 0 ≤ y ∧ y < 400 :=
    ⟨year / 400, year % 400, by omega, by omega⟩
  refine ⟨span, y, _, rfl, hy, ?_, divisions_of_inMarchYear hy h⟩
  rw [marchDays, yearStart_span]
  omega

/-- The divisions find year, month and day of a day that is given by them. -/
theorem dateOfDay_marchDays {year month day : Int} (h : InMarchYear year month day) :
    dateOfDay (marchDays year month day - 719468) = civil year month day := by
  obtain ⟨span, y, n, rfl, hy, hdays, hdiv⟩ := exists_span h
  obtain ⟨hn, hyear, hdayOfYear, hmonth, hday⟩ := hdiv
  have hspan : (146097 * span + n) / 146097 = span := by omega
  have hdayOfSpan : (146097 * span + n) % 146097 = n := by omega
  simp only [dateOfDay, hdays, Int.sub_add_cancel, hspan, hdayOfSpan, hyear, hdayOfYear, hmonth,
    hday]
  obtain ⟨h0, h11, -, -⟩ := h
  by_cases h10 : month < 10
  · rw [civil_of_lt h10, if_pos h10, if_neg (by omega)]
    congr 1
    omega
  · rw [civil_of_le (by omega), if_neg h10, if_pos (by omega)]
    congr 1
    omega

/-! ## From one day to the next -/

/-- A year is followed by the next one after its last day. -/
lemma yearStart_add_one (year : Int) :
    yearStart (year + 1) = yearStart year + monthStart 11 + marchLength year 11 := by
  unfold yearStart marchLength monthStart
  rw [if_pos rfl]
  by_cases hleap : Leap (year + 1)
  · rw [if_pos hleap]
    obtain ⟨hfour, hcentury⟩ := hleap
    omega
  · rw [if_neg hleap]
    unfold Leap at hleap
    omega

/-- The next date is that of the next day of the month, of the first day of the next month, or of
the first day of the next year that begins in March. -/
lemma next_civil {year month day : Int} (h : InMarchYear year month day) :
    (civil year month day).next =
      if day + 1 < marchLength year month then civil year month (day + 1)
      else if month < 11 then civil year (month + 1) 0
      else civil (year + 1) 0 0 := by
  have hlength := monthLength_civil h
  have hcivil : (civil year month day).day = day + 1 := by
    unfold civil
    split <;> rfl
  obtain ⟨h0, h11, -, -⟩ := h
  unfold Date.next
  rw [hlength, hcivil]
  by_cases hmore : day + 1 < marchLength year month
  · rw [if_pos hmore, if_pos hmore]
    unfold civil
    split <;> rfl
  rw [if_neg hmore, if_neg hmore]
  by_cases hlast : month < 11
  · rw [if_pos hlast]
    -- December is the tenth month from March
    rcases lt_trichotomy month 9 with h9 | h9 | h9
    · rw [civil_of_lt (by omega), civil_of_lt (by omega), if_pos (by dsimp only; omega)]
      congr 1
      dsimp only
      omega
    · subst h9
      rfl
    · rw [civil_of_le (by omega), civil_of_le (by omega), if_pos (by dsimp only; omega)]
      congr 1
      dsimp only
      omega
  · obtain rfl : month = 11 := by omega
    rfl

/-- The day after a day of a year that begins in March is the next one in the calendar, too. -/
lemma exists_marchDays_succ {year month day : Int} (h : InMarchYear year month day) :
    ∃ year' month' day', InMarchYear year' month' day' ∧
      marchDays year' month' day' = marchDays year month day + 1 ∧
      civil year' month' day' = (civil year month day).next := by
  rw [next_civil h]
  obtain ⟨h0, h11, hday, hlt⟩ := h
  by_cases hmore : day + 1 < marchLength year month
  · rw [if_pos hmore]
    exact ⟨year, month, day + 1, ⟨h0, h11, by omega, hmore⟩, by unfold marchDays; omega, rfl⟩
  rw [if_neg hmore]
  have hend : day + 1 = marchLength year month := by omega
  by_cases hlast : month < 11
  · rw [if_pos hlast]
    have hpos : 0 < marchLength year (month + 1) := by
      unfold marchLength monthStart
      split_ifs <;> omega
    refine ⟨year, month + 1, 0, ⟨by omega, by omega, le_rfl, hpos⟩, ?_, rfl⟩
    rw [marchLength, if_neg (by omega)] at hend
    unfold marchDays
    omega
  · rw [if_neg hlast]
    obtain rfl : month = 11 := by omega
    have hpos : 0 < marchLength (year + 1) 0 := by simp [marchLength, monthStart]
    refine ⟨year + 1, 0, 0, ⟨le_rfl, by omega, le_rfl, hpos⟩, ?_, rfl⟩
    rw [marchDays, marchDays, yearStart_add_one, ← hend]
    simp only [monthStart]
    omega

/-- Every number is that of a day of a year that begins in March.

**Proof sketch.** From zero on, this is by induction. The numbers below zero are brought above it
by spans of 400 years. -/
theorem exists_marchDays (n : Int) :
    ∃ year month day, InMarchYear year month day ∧ marchDays year month day = n := by
  have hnat : ∀ k : Nat, ∃ year month day, InMarchYear year month day ∧
      marchDays year month day = k := by
    intro k
    induction k with
    | zero => exact ⟨0, 0, 0, ⟨le_rfl, by omega, le_rfl, by decide⟩, by decide⟩
    | succ k ih =>
      obtain ⟨year, month, day, h, hk⟩ := ih
      obtain ⟨year', month', day', h', hk', -⟩ := exists_marchDays_succ h
      exact ⟨year', month', day', h', by omega⟩
  obtain ⟨year, month, day, h, hk⟩ := hnat (n % 146097).toNat
  have hlength : marchLength (400 * (n / 146097) + year) month = marchLength year month := by
    simp only [marchLength, add_assoc, leap_span]
  refine ⟨400 * (n / 146097) + year, month, day, ?_, ?_⟩
  · exact ⟨h.month_nonneg, h.month_le, h.day_nonneg, hlength ▸ h.day_lt⟩
  · unfold marchDays at hk ⊢
    rw [yearStart_span]
    omega

/-- There is such a date. -/
theorem valid_dateOfDay (days : Int) : (dateOfDay days).Valid := by
  obtain ⟨year, month, day, h, hdays⟩ := exists_marchDays (days + 719468)
  have hdate := dateOfDay_marchDays h
  rw [hdays, Int.add_sub_cancel] at hdate
  rw [hdate]
  exact valid_civil h

/-- The date of the day after is the next date. -/
theorem dateOfDay_add_one (days : Int) : dateOfDay (days + 1) = (dateOfDay days).next := by
  obtain ⟨year, month, day, h, hdays⟩ := exists_marchDays (days + 719468)
  obtain ⟨year', month', day', h', hdays', hnext⟩ := exists_marchDays_succ h
  have hdate := dateOfDay_marchDays h
  have hdate' := dateOfDay_marchDays h'
  rw [hdays, Int.add_sub_cancel] at hdate
  rw [hdays', hdays, show days + 719468 + 1 - 719468 = days + 1 by omega] at hdate'
  rw [hdate, hdate', hnext]

example : dateOfDay (-719163) = ⟨0, 12, 31⟩ := by decide

/-! ## The computation in words -/

/-- The result of an operation on words of 64 bits, if there is no overflow. -/
def word? (n : Int) : Option Int :=
  if -9223372036854775808 ≤ n ∧ n < 9223372036854775808 then some n else none

/-- What fits in a word is found. -/
lemma word?_eq {n : Int} (h : -9223372036854775808 ≤ n ∧ n < 9223372036854775808) :
    word? n = some n :=
  if_pos h

/-- What is found is passed on. -/
lemma bind_of_eq_some {α β : Type} {a : α} {o : Option α} {f : α → Option β} (h : o = some a) :
    o >>= f = f a := by
  rw [h]
  rfl

/-- What fits in a word is passed on. -/
lemma word?_bind {α : Type} {n : Int} {f : Int → Option α}
    (h : -9223372036854775808 ≤ n ∧ n < 9223372036854775808) : word? n >>= f = f n :=
  bind_of_eq_some (word?_eq h)

/-- The year of a span of 400 years, from the day of the span, by operations on words. -/
def yearOfSpan? (dayOfSpan : Int) : Option Int := do
  let fours ← word? (dayOfSpan.tdiv 1460)
  let withoutFours ← word? (dayOfSpan - fours)
  let centuries ← word? (dayOfSpan.tdiv 36524)
  let withCenturies ← word? (withoutFours + centuries)
  let spans ← word? (dayOfSpan.tdiv 146096)
  let corrected ← word? (withCenturies - spans)
  word? (corrected.tdiv 365)

/-- The number of days of a span before a year, by operations on words. -/
def daysBefore? (yearOfSpan : Int) : Option Int := do
  let days ← word? (365 * yearOfSpan)
  let fours ← word? (yearOfSpan.tdiv 4)
  let withFours ← word? (days + fours)
  let centuries ← word? (yearOfSpan.tdiv 100)
  word? (withFours - centuries)

/-- The month, from March, and the day of the month, both from zero, from the day of a year, by
operations on words. -/
def monthAndDay? (dayOfYear : Int) : Option (Int × Int) := do
  let fivefold ← word? (5 * dayOfYear)
  let scaled ← word? (fivefold + 2)
  let month ← word? (scaled.tdiv 153)
  let scaledBack ← word? (153 * month)
  let rounded ← word? (scaledBack + 2)
  let before ← word? (rounded.tdiv 5)
  let day ← word? (dayOfYear - before)
  return (month, day)

/-- The date of a day, by operations on words. Most of the divisions round toward zero. -/
def dateOfDay? (days : Int) : Option Date := do
  let shifted ← word? (days + 719468)
  let span ← word? (shifted / 146097)
  let dayOfSpan ← word? (shifted % 146097)
  let yearOfSpan ← yearOfSpan? dayOfSpan
  let before ← daysBefore? yearOfSpan
  let dayOfYear ← word? (dayOfSpan - before)
  let (monthFromMarch, dayFromZero) ← monthAndDay? dayOfYear
  let day ← word? (dayFromZero + 1)
  let month ← if monthFromMarch < 10 then word? (monthFromMarch + 3) else word? (monthFromMarch - 9)
  let years ← word? (span * 400)
  let marchYear ← word? (yearOfSpan + years)
  let year ← word? (marchYear + (if month ≤ 2 then 1 else 0))
  return ⟨year, month, day⟩

/-- The point in time, by operations on words. Some of the divisions round toward zero. -/
def momentOf? (millis : Int) : Option Moment := do
  let seconds ← word? (millis / 1000)
  let milli ← word? (millis % 1000)
  let days ← word? (seconds / 86400)
  let ofDay ← word? (seconds % 86400)
  let hour ← word? (ofDay.tdiv 3600)
  let ofHour ← word? (ofDay.tmod 3600)
  let minute ← word? (ofHour.tdiv 60)
  let second ← word? (ofDay.tmod 60)
  return { days, hour, minute, second, milli }

section Words

variable {n y r month day : Int}

/-- Nothing overflows where the year is found. -/
lemma yearOfSpan?_eq (h : Divisions n y r month day) (hy : 0 ≤ y ∧ y < 400) :
    yearOfSpan? n = some y := by
  obtain ⟨hn, hyear, -, -, -⟩ := h
  have hfours : 0 ≤ n / 1460 ∧ n / 1460 ≤ n := by omega
  have hcenturies : 0 ≤ n / 36524 ∧ n / 36524 ≤ n := by omega
  have hspans : 0 ≤ n / 146096 ∧ n / 146096 ≤ n := by omega
  have hcorrected : 0 ≤ n - n / 1460 + n / 36524 - n / 146096 := by omega
  unfold yearOfSpan?
  simp only [Int.tdiv_eq_ediv_of_nonneg hn.1]
  generalize n / 1460 = fours at *
  generalize n / 36524 = centuries at *
  generalize n / 146096 = spans at *
  rw [word?_bind (by omega), word?_bind (by omega), word?_bind (by omega), word?_bind (by omega),
    word?_bind (by omega), word?_bind (by omega), Int.tdiv_eq_ediv_of_nonneg hcorrected, hyear,
    word?_eq (by omega)]

/-- Nothing overflows where the days before the year are counted. -/
lemma daysBefore?_eq (hy : 0 ≤ y ∧ y < 400) :
    daysBefore? y = some (365 * y + y / 4 - y / 100) := by
  simp (disch := omega) only [daysBefore?, word?_eq, Int.tdiv_eq_ediv_of_nonneg,
    Option.bind_eq_bind, Option.bind_some]

/-- Nothing overflows where the month and the day are found. -/
lemma monthAndDay?_eq (h : Divisions n y r month day) (hr : 0 ≤ r ∧ r ≤ 365) :
    monthAndDay? r = some (month, day) := by
  obtain ⟨-, -, -, hmonth, hday⟩ := h
  have hscaled : (5 * r + 2).tdiv 153 = month := by
    rw [Int.tdiv_eq_ediv_of_nonneg (by omega), hmonth]
  have hbefore : (153 * month + 2).tdiv 5 = (153 * month + 2) / 5 :=
    Int.tdiv_eq_ediv_of_nonneg (by omega)
  unfold monthAndDay?
  rw [word?_bind (by omega), word?_bind (by omega), hscaled, word?_bind (by omega),
    word?_bind (by omega), word?_bind (by omega), hbefore, word?_bind (by omega), hday,
    word?_bind (by omega)]
  rfl

end Words

/-- Nothing overflows in the computation of a date, unless the day is among the last ones there are
in a word. -/
theorem dateOfDay?_eq {days : Int}
    (h : -9223372036854775808 ≤ days ∧ days < 9223372036854775808 - 719468) :
    dateOfDay? days = some (dateOfDay days) := by
  obtain ⟨year, month, day, hin, hdays⟩ := exists_marchDays (days + 719468)
  have hdate := dateOfDay_marchDays hin
  rw [hdays, Int.add_sub_cancel] at hdate
  -- years are counted from March on, in spans of 400
  obtain ⟨span, y, n, rfl, hy, hmarch, hdiv⟩ := exists_span hin
  have hr : 0 ≤ monthStart month + day ∧ monthStart month + day ≤ 365 := by
    have := dayOfYear_bounds hin
    omega
  have hmonths := monthAndDay?_eq hdiv hr
  have hyears := yearOfSpan?_eq hdiv hy
  obtain ⟨hn, -, hdayOfYear, -, -⟩ := hdiv
  have hsum : days + 719468 = 146097 * span + n := by omega
  have hspan : (146097 * span + n) / 146097 = span := by omega
  have hdayOfSpan : (146097 * span + n) % 146097 = n := by omega
  obtain ⟨h0, h11, hday0, -⟩ := hin
  have hday : day ≤ 365 := by
    unfold monthStart at hr
    omega
  -- each step of the computation is within a word
  rw [hdate]
  unfold dateOfDay?
  rw [hsum, word?_bind (by omega), hspan, word?_bind (by omega), hdayOfSpan, word?_bind (by omega),
    bind_of_eq_some hyears, bind_of_eq_some (daysBefore?_eq hy), hdayOfYear,
    word?_bind (by omega), bind_of_eq_some hmonths]
  dsimp only
  rw [word?_bind (by omega)]
  by_cases h10 : month < 10
  · rw [if_pos h10, word?_bind (by omega), word?_bind (by omega), word?_bind (by omega),
      if_neg (by omega), word?_bind (by omega), civil_of_lt h10]
    simp only [Int.add_zero, show y + span * 400 = 400 * span + y by omega]
    rfl
  · rw [if_neg h10, word?_bind (by omega), word?_bind (by omega), word?_bind (by omega),
      if_pos (by omega), word?_bind (by omega), civil_of_le (by omega)]
    simp only [show y + span * 400 = 400 * span + y by omega]
    rfl

/-- A moment within its day: the fields have their ranges. -/
structure Moment.InDay (m : Moment) : Prop where
  /-- A day has 24 hours. -/
  hour : 0 ≤ m.hour ∧ m.hour < 24
  /-- An hour has 60 minutes. -/
  minute : 0 ≤ m.minute ∧ m.minute < 60
  /-- A minute has 60 seconds. -/
  second : 0 ≤ m.second ∧ m.second < 60
  /-- A second has 1000 milliseconds. -/
  milli : 0 ≤ m.milli ∧ m.milli < 1000

/-- The number of milliseconds from the start of 1970. -/
def Moment.millis (m : Moment) : Int :=
  (((m.days * 24 + m.hour) * 60 + m.minute) * 60 + m.second) * 1000 + m.milli

/-- The fields of a point in time have their ranges. -/
lemma inDay_momentOf (millis : Int) : (momentOf millis).InDay := by
  constructor <;> dsimp only [momentOf] <;> omega

/-- The fields of a point in time give back its number of milliseconds. -/
lemma millis_momentOf (millis : Int) : (momentOf millis).millis = millis := by
  dsimp only [momentOf, Moment.millis]
  omega

/-- Nothing overflows in the computation of a point in time. -/
theorem momentOf?_eq {millis : Int}
    (h : -9223372036854775808 ≤ millis ∧ millis < 9223372036854775808) :
    momentOf? millis = some (momentOf millis) := by
  have hseconds : -9223372036854775808 ≤ millis / 1000 ∧ millis / 1000 < 9223372036854775808 := by
    omega
  simp only [momentOf?, momentOf, Option.bind_eq_bind, word?_eq hseconds, Option.bind_some]
  generalize millis / 1000 = seconds at *
  simp (disch := omega) only [word?_eq, Int.tdiv_eq_ediv_of_nonneg, Int.tmod_eq_emod_of_nonneg,
    Option.bind_some]
  rfl

/-- A point in time that is a word has a day that is far from the end of the words. -/
lemma days_momentOf {millis : Int}
    (h : -9223372036854775808 ≤ millis ∧ millis < 9223372036854775808) :
    -9223372036854775808 ≤ (momentOf millis).days ∧
      (momentOf millis).days < 9223372036854775808 - 719468 := by
  dsimp only [momentOf]
  omega

/-- Points in time are shown by the Gregorian calendar, carried on in both directions: the first
day is the first of January 1970, every day has a date that exists, the day after it has the next
date, and for every number of milliseconds that is a word of 64 bits the date and the time of day
are found without overflow, with every field in its range, and together they are that number of
milliseconds again. -/
theorem dates_gregorian :
    dateOfDay 0 = ⟨1970, 1, 1⟩ ∧
      (∀ days, (dateOfDay days).Valid ∧ dateOfDay (days + 1) = (dateOfDay days).next) ∧
      ∀ millis : Int64, ∃ m, m = momentOf millis.toInt ∧
        momentOf? millis.toInt = some m ∧ dateOfDay? m.days = some m.date ∧
        m.InDay ∧ m.millis = millis.toInt := by
  refine ⟨by decide, fun days => ⟨valid_dateOfDay days, dateOfDay_add_one days⟩, ?_⟩
  intro millis
  have hword : -9223372036854775808 ≤ millis.toInt ∧ millis.toInt < 9223372036854775808 :=
    ⟨millis.le_toInt, millis.toInt_lt⟩
  exact ⟨_, rfl, momentOf?_eq hword, dateOfDay?_eq (days_momentOf hword), inDay_momentOf _,
    millis_momentOf _⟩

end CommandScript.Calendar
