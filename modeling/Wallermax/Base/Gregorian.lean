import Mathlib.Data.Int.Notation
import Mathlib.Tactic.Common

/-!
# The Gregorian calendar in closed form

Days are counted in eras of 400 years, 146097 days each, in years that start on the first
of March, so that a leap day is the last day of its year. A day of an era lies in a
century, a cycle of four years, a year of it and a day of the year; only the last year of
a cycle has 366 days, and it has them not in the last cycle of a century, unless that is
the last century.
-/

namespace Wallermax.Base.Gregorian

/-- A day of an era. -/
structure EraDay : Type where
  century : ℤ
  cycle : ℤ
  year : ℤ
  day : ℤ
  century_bound : 0 ≤ century ∧ century ≤ 3
  cycle_bound : 0 ≤ cycle ∧ cycle ≤ 24
  year_bound : 0 ≤ year ∧ year ≤ 3
  day_nonneg : 0 ≤ day
  day_bound : day ≤ 364 ∨ day = 365 ∧ year = 3 ∧ (cycle ≠ 24 ∨ century = 3)

/-- The year of the era. -/
def EraDay.yearOfEra (e : EraDay) : ℤ := 100 * e.century + 4 * e.cycle + e.year

/-- The day's place in the era. -/
def EraDay.index (e : EraDay) : ℤ :=
  36524 * e.century + 1461 * e.cycle + 365 * e.year + e.day

/-- The days before the first of March of a year. -/
def daysBefore (year : ℤ) : ℤ := 365 * year + year / 4 - year / 100 + year / 400

def isLeap (year : ℤ) : Prop := year % 4 = 0 ∧ (year % 100 ≠ 0 ∨ year % 400 = 0)

instance (year : ℤ) : Decidable (isLeap year) := inferInstanceAs (Decidable (_ ∧ _))

theorem EraDay.yearOfEra_bound (e : EraDay) : 0 ≤ e.yearOfEra ∧ e.yearOfEra < 400 := by
  obtain ⟨c, g, y, d, hc, hg, hy, hd0, hd⟩ := e
  simp only [yearOfEra]
  omega

theorem EraDay.index_bound (e : EraDay) : 0 ≤ e.index ∧ e.index < 146097 := by
  obtain ⟨c, g, y, d, hc, hg, hy, hd0, hd⟩ := e
  simp only [index]
  omega

/-- Every day of an era is one. -/
theorem exists_eraDay (n : ℤ) (h0 : 0 ≤ n) (h1 : n < 146097) : ∃ e : EraDay, e.index = n := by
  obtain ⟨c, hc⟩ : ∃ c, c = min (n / 36524) 3 := ⟨_, rfl⟩
  obtain ⟨g, hg⟩ : ∃ g, g = (n - 36524 * c) / 1461 := ⟨_, rfl⟩
  obtain ⟨y, hy⟩ : ∃ y, y = min ((n - 36524 * c - 1461 * g) / 365) 3 := ⟨_, rfl⟩
  refine ⟨⟨c, g, y, n - 36524 * c - 1461 * g - 365 * y, ?_, ?_, ?_, ?_, ?_⟩, ?_⟩
  · omega
  · omega
  · omega
  · omega
  · omega
  · simp only [EraDay.index]
    omega

/-- A year and a day of it make a day of the era. -/
theorem exists_eraDay_of_year (year day : ℤ) (hyear : 0 ≤ year ∧ year < 400) (hday0 : 0 ≤ day)
    (hday : day ≤ 364 ∨ day = 365 ∧ isLeap (year + 1)) :
    ∃ e : EraDay, e.yearOfEra = year ∧ e.day = day := by
  unfold isLeap at hday
  refine ⟨⟨year / 100, year % 100 / 4, year % 4, day, ?_, ?_, ?_, hday0, ?_⟩, ?_, rfl⟩
  · omega
  · omega
  · omega
  · omega
  · simp only [EraDay.yearOfEra]
    omega

/-- The place of a day from its year. -/
theorem EraDay.index_eq (e : EraDay) :
    e.index = 365 * e.yearOfEra + e.yearOfEra / 4 - e.yearOfEra / 100 + e.day := by
  obtain ⟨c, g, y, d, hc, hg, hy, hd0, hd⟩ := e
  simp only [index, yearOfEra]
  omega

theorem EraDay.day_eq_last (e : EraDay) (h : e.day = 365) : isLeap (e.yearOfEra + 1) := by
  obtain ⟨c, g, y, d, hc, hg, hy, hd0, hd⟩ := e
  simp only [yearOfEra, isLeap] at h ⊢
  omega

/-- **The year of a day**: what the leap days add up to is taken off, then a year is 365
days. -/
theorem EraDay.yearOfEra_eq (e : EraDay) :
    (e.index - e.index / 1460 + e.index / 36524 - e.index / 146096) / 365 = e.yearOfEra := by
  obtain ⟨c, g, y, d, hc, hg, hy, hd0, hd⟩ := e
  simp only [index, yearOfEra]
  generalize hn : 36524 * c + 1461 * g + 365 * y + d = n
  -- the last day of the era is in the fifth century and in the second era of their counts
  have hera : n / 146096 = if c = 3 ∧ g = 24 ∧ y = 3 ∧ d = 365 then 1 else 0 := by
    split <;> omega
  have hcentury : n / 36524 = c + n / 146096 := by
    rw [hera]
    split <;> omega
  have hcycle : n / 1460 = 25 * c + g + if 1460 ≤ 24 * c + g + 365 * y + d then 1 else 0 := by
    split <;> omega
  rw [hcentury, hcycle]
  split <;> omega

/-! ## Months -/

/-- The first day of a month in the year; March is month 0. -/
def monthStart (month : ℤ) : ℤ := (153 * month + 2) / 5

/-- The days of a month of the year that starts in its March. -/
def monthLength (year month : ℤ) : ℤ :=
  if month = 11 then if isLeap (year + 1) then 29 else 28
  else if month = 1 ∨ month = 3 ∨ month = 6 ∨ month = 8 then 30 else 31

theorem month_cases {month : ℤ} (h0 : 0 ≤ month) (h1 : month ≤ 11) :
    month = 0 ∨ month = 1 ∨ month = 2 ∨ month = 3 ∨ month = 4 ∨ month = 5 ∨ month = 6 ∨
      month = 7 ∨ month = 8 ∨ month = 9 ∨ month = 10 ∨ month = 11 := by
  omega

theorem monthLength_pos (year month : ℤ) : 28 ≤ monthLength year month := by
  unfold monthLength
  split <;> split <;> decide

/-- The months lie one behind the other. -/
theorem monthStart_succ (year : ℤ) {month : ℤ} (h0 : 0 ≤ month) (h1 : month ≤ 10) :
    monthStart (month + 1) = monthStart month + monthLength year month := by
  unfold monthStart monthLength
  rcases month_cases h0 (by omega) with rfl | rfl | rfl | rfl | rfl | rfl | rfl | rfl | rfl |
    rfl | rfl | rfl
  all_goals first | rfl | omega

theorem monthStart_last (year : ℤ) :
    monthStart 11 + monthLength year 11 = 365 + if isLeap (year + 1) then 1 else 0 := by
  unfold monthStart monthLength
  by_cases hleap : isLeap (year + 1)
  · simp [hleap]
  · simp [hleap]

/-- The day is one of the year that starts in March. -/
def IsDay (year day : ℤ) : Prop := 0 ≤ day ∧ (day ≤ 364 ∨ day = 365 ∧ isLeap (year + 1))

/-- The month of a day of the year. -/
theorem month_of_day {year day : ℤ} (h : IsDay year day) :
    0 ≤ (5 * day + 2) / 153 ∧ (5 * day + 2) / 153 ≤ 11 ∧ monthStart ((5 * day + 2) / 153) ≤ day ∧
      day < monthStart ((5 * day + 2) / 153) + monthLength year ((5 * day + 2) / 153) := by
  obtain ⟨h0, hday⟩ := h
  have hle : day ≤ 365 := by omega
  generalize hm : (5 * day + 2) / 153 = month
  have hm0 : 0 ≤ month := by omega
  have hm1 : month ≤ 11 := by omega
  refine ⟨hm0, hm1, ?_, ?_⟩
  · unfold monthStart
    omega
  · by_cases hlast : month = 11
    · subst hlast
      rw [monthStart_last]
      split
      · omega
      · rename_i hcommon
        rcases hday with hday | ⟨-, hleap⟩
        · omega
        · exact absurd hleap hcommon
    · have hle10 : month ≤ 10 := by omega
      rw [← monthStart_succ year hm0 hle10]
      unfold monthStart
      omega

/-- A day of a month is a day of the year, and of no other month. -/
theorem day_of_month {year month k : ℤ} (h0 : 0 ≤ month) (h1 : month ≤ 11) (hk0 : 0 ≤ k)
    (hk : k < monthLength year month) :
    IsDay year (monthStart month + k) ∧ (5 * (monthStart month + k) + 2) / 153 = month := by
  by_cases hlast : month = 11
  · subst hlast
    have hend := monthStart_last year
    have hstart : monthStart 11 = 337 := by decide
    rw [hstart] at hend ⊢
    refine ⟨⟨by omega, ?_⟩, by omega⟩
    split at hend
    · by_cases hday : k = 28
      · exact Or.inr ⟨by omega, ‹_›⟩
      · exact Or.inl (by omega)
    · exact Or.inl (by omega)
  · have hnext := monthStart_succ year h0 (by omega : month ≤ 10)
    unfold IsDay
    unfold monthStart at hnext ⊢
    omega

/-! ## Days in order -/

/-- The number of a day, counted from the first of March of year 0. -/
def dayNumber (year month k : ℤ) : ℤ := daysBefore year + monthStart month + k

theorem daysBefore_succ (year : ℤ) :
    daysBefore (year + 1) = daysBefore year + 365 + if isLeap (year + 1) then 1 else 0 := by
  unfold daysBefore
  by_cases hleap : isLeap (year + 1)
  · rw [if_pos hleap]
    unfold isLeap at hleap
    omega
  · rw [if_neg hleap]
    unfold isLeap at hleap
    omega

/-- The first of a month comes after the last of the one before. -/
theorem dayNumber_next_month (year : ℤ) {month : ℤ} (h0 : 0 ≤ month) (h1 : month ≤ 10) :
    dayNumber year (month + 1) 0 = dayNumber year month (monthLength year month - 1) + 1 := by
  have hnext := monthStart_succ year h0 h1
  unfold dayNumber
  omega

theorem dayNumber_next_year (year : ℤ) :
    dayNumber (year + 1) 0 0 = dayNumber year 11 (monthLength year 11 - 1) + 1 := by
  have hlast := monthStart_last year
  have hyear := daysBefore_succ year
  have hfirst : monthStart 0 = 0 := by decide
  unfold dayNumber
  omega

/-- The place of a day of an era among all days. -/
theorem EraDay.daysBefore_add_day (e : EraDay) (era : ℤ) :
    era * 146097 + e.index = daysBefore (e.yearOfEra + 400 * era) + e.day := by
  have hindex := e.index_eq
  have hyear := e.yearOfEra_bound
  unfold daysBefore
  omega

theorem EraDay.isDay (e : EraDay) (era : ℤ) : IsDay (e.yearOfEra + 400 * era) e.day := by
  have hlast := e.day_eq_last
  have hbound := e.day_bound
  unfold isLeap at hlast
  unfold IsDay isLeap
  refine ⟨e.day_nonneg, ?_⟩
  omega

/-- Every year and day of it is a day of an era. -/
theorem exists_eraDay_of_isDay {year day : ℤ} (h : IsDay year day) :
    ∃ e : EraDay, e.yearOfEra + 400 * (year / 400) = year ∧ e.day = day := by
  have hleap : isLeap (year + 1) → isLeap (year % 400 + 1) := by
    unfold isLeap
    omega
  obtain ⟨e, hyear, hday⟩ := exists_eraDay_of_year (year % 400) day (by omega) h.1
    (h.2.imp_right fun hlast => ⟨hlast.1, hleap hlast.2⟩)
  exact ⟨e, by omega, hday⟩

end Wallermax.Base.Gregorian
