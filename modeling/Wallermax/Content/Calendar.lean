import Wallermax.Base.Gregorian
import Wallermax.Content.Dates

/-!
# The civil calendar

`civil_from_days` and `days_from_civil` go through the years that start in March. There
the two of them are each other's inverse, and the day after a day is the next day of its
month, or the first of the next one, with `days_in_month` for the length of a month.
-/

namespace Wallermax.Content

open Wallermax.Base.Gregorian

/-- The day after a date. -/
def nextDate (date : ℤ × ℕ × ℕ) : ℤ × ℕ × ℕ :=
  if date.2.2 < daysInMonth date.1 date.2.1 then (date.1, date.2.1, date.2.2 + 1)
  else if date.2.1 < 12 then (date.1, date.2.1 + 1, 1)
  else (date.1 + 1, 1, 1)

/-- A date of the calendar. -/
structure IsDate (year : ℤ) (month day : ℕ) : Prop where
  month_bound : 1 ≤ month ∧ month ≤ 12
  day_bound : 1 ≤ day ∧ day ≤ daysInMonth year month

/-- The date of the day `k` of a month of the year that starts in March, both from 0. -/
def fromMarch (year month k : ℤ) : ℤ × ℕ × ℕ :=
  (if month < 10 then year else year + 1,
    (if month < 10 then month + 3 else month - 9).toNat, (k + 1).toNat)

/-- The day and the month are ones of the year. -/
structure IsMarchDay (year month k : ℤ) : Prop where
  month_bound : 0 ≤ month ∧ month ≤ 11
  day_bound : 0 ≤ k ∧ k < monthLength year month

/-! ## Dates and days of the year -/

theorem daysInMonth_fromMarch (year k : ℤ) {month : ℤ} (h : 0 ≤ month ∧ month ≤ 11) :
    (daysInMonth (fromMarch year month k).1 (fromMarch year month k).2.1 : ℤ) =
      monthLength year month := by
  rcases month_cases h.1 h.2 with rfl | rfl | rfl | rfl | rfl | rfl | rfl | rfl | rfl | rfl |
    rfl | rfl
  case inr.inr.inr.inr.inr.inr.inr.inr.inr.inr.inr =>
    show ((if (year + 1) % 4 = 0 ∧ (year + 1) % 100 ≠ 0 ∨ (year + 1) % 400 = 0 then 29 else 28 : ℕ) :
      ℤ) = if isLeap (year + 1) then 29 else 28
    have hiff : ((year + 1) % 4 = 0 ∧ (year + 1) % 100 ≠ 0 ∨ (year + 1) % 400 = 0) ↔
        isLeap (year + 1) := by
      unfold isLeap
      omega
    by_cases hleap : isLeap (year + 1)
    · rw [if_pos (hiff.mpr hleap), if_pos hleap]
      rfl
    · rw [if_neg (hiff.not.mpr hleap), if_neg hleap]
      rfl
  all_goals rfl

theorem fromMarch_bound {year month : ℤ} (k : ℤ) (h : 0 ≤ month ∧ month ≤ 11) :
    1 ≤ (fromMarch year month k).2.1 ∧ (fromMarch year month k).2.1 ≤ 12 := by
  unfold fromMarch
  dsimp only
  split <;> omega

theorem IsMarchDay.isDate {year month k : ℤ} (h : IsMarchDay year month k) :
    IsDate (fromMarch year month k).1 (fromMarch year month k).2.1 (fromMarch year month k).2.2 := by
  refine ⟨fromMarch_bound k h.month_bound, ?_⟩
  have hlength := daysInMonth_fromMarch year k h.month_bound
  have hday := h.day_bound
  have hk : ((fromMarch year month k).2.2 : ℤ) = k + 1 := by
    show ((k + 1).toNat : ℤ) = k + 1
    omega
  omega

/-- Every date is one of a year that starts in March. -/
theorem IsDate.exists_fromMarch {year : ℤ} {month day : ℕ} (h : IsDate year month day) :
    ∃ y m k, IsMarchDay y m k ∧ fromMarch y m k = (year, month, day) := by
  obtain ⟨hmonth, hday⟩ := h
  let m : ℤ := ((month + 9) % 12 : ℕ)
  have hbound : 0 ≤ m ∧ m ≤ 11 := by omega
  have hdate : fromMarch (if month ≤ 2 then year - 1 else year) m (day - 1) =
      (year, month, day) := by
    unfold fromMarch
    refine Prod.ext ?_ (Prod.ext ?_ ?_)
    · dsimp only
      split_ifs <;> omega
    · dsimp only
      split_ifs <;> omega
    · dsimp only
      omega
  have hlength := daysInMonth_fromMarch (if month ≤ 2 then year - 1 else year) (day - 1) hbound
  rw [hdate] at hlength
  exact ⟨_, m, day - 1, ⟨hbound, by omega, by rw [← hlength]; dsimp only; omega⟩, hdate⟩

/-- The day after, in the years that start in March. -/
theorem nextDate_fromMarch {year month k : ℤ} (h : IsMarchDay year month k) :
    ∃ y m k', IsMarchDay y m k' ∧ nextDate (fromMarch year month k) = fromMarch y m k' ∧
      dayNumber y m k' = dayNumber year month k + 1 := by
  have hlength := daysInMonth_fromMarch year k h.month_bound
  obtain ⟨hmonth, hday⟩ := h
  have hk : ((fromMarch year month k).2.2 : ℤ) = k + 1 := by
    show ((k + 1).toNat : ℤ) = k + 1
    omega
  unfold nextDate
  by_cases hlast : k + 1 < monthLength year month
  · -- the next day of the month
    refine ⟨year, month, k + 1, ⟨hmonth, by omega⟩, ?_, by unfold dayNumber; omega⟩
    rw [if_pos (by omega)]
    unfold fromMarch
    ext <;> dsimp only
    omega
  · have hfull : k = monthLength year month - 1 := by omega
    have hpos := monthLength_pos year (month + 1)
    have hfirst := monthLength_pos (year + 1) 0
    rw [if_neg (by omega)]
    by_cases hfebruary : month = 11
    · subst hfebruary hfull
      refine ⟨year + 1, 0, 0, ⟨by omega, by omega⟩, ?_, dayNumber_next_year year⟩
      rfl
    · subst hfull
      refine ⟨year, month + 1, 0, ⟨by omega, by omega⟩, ?_, dayNumber_next_month year hmonth.1 (by omega)⟩
      unfold fromMarch
      dsimp only
      split_ifs <;> ext <;> dsimp only <;> omega

/-! ## The two algorithms -/

/-- `civil_from_days` finds the date of a day of a year. -/
theorem civilFromDays_daysBefore {year day : ℤ} (h : IsDay year day) :
    civilFromDays (daysBefore year + day - 719468) =
      fromMarch year ((5 * day + 2) / 153) (day - monthStart ((5 * day + 2) / 153)) := by
  obtain ⟨e, hyear, hday⟩ := exists_eraDay_of_isDay h
  have hindex := e.daysBefore_add_day (year / 400)
  rw [hyear, hday] at hindex
  have hbound := e.index_bound
  have hera : (daysBefore year + day - 719468 + 719468) / 146097 = year / 400 := by omega
  have hplace : (daysBefore year + day - 719468 + 719468) % 146097 = e.index := by omega
  have hoffset : e.index - (365 * e.yearOfEra + e.yearOfEra / 4 - e.yearOfEra / 100) = day := by
    rw [e.index_eq, hday]
    omega
  unfold civilFromDays
  simp only [hera, hplace, e.yearOfEra_eq, hoffset]
  have hyear' : e.yearOfEra + year / 400 * 400 = year := by omega
  rw [hyear']
  obtain ⟨hm0, hm1, -, -⟩ := month_of_day h
  generalize (5 * day + 2) / 153 = month at hm0 hm1
  unfold fromMarch monthStart
  refine Prod.ext ?_ (Prod.ext rfl rfl)
  dsimp only
  split_ifs <;> omega

theorem civilFromDays_dayNumber {year month k : ℤ} (h : IsMarchDay year month k) :
    civilFromDays (dayNumber year month k - 719468) = fromMarch year month k := by
  obtain ⟨hday, hmonth⟩ := day_of_month h.month_bound.1 h.month_bound.2 h.day_bound.1 h.day_bound.2
  have hcivil := civilFromDays_daysBefore hday
  rw [hmonth] at hcivil
  have hk : monthStart month + k - monthStart month = k := by omega
  have hnumber : dayNumber year month k = daysBefore year + (monthStart month + k) := by
    unfold dayNumber
    omega
  rw [hnumber, hcivil, hk]

/-- Every day is one of a year that starts in March. -/
theorem exists_dayNumber (d : ℤ) :
    ∃ year month k, IsMarchDay year month k ∧ dayNumber year month k - 719468 = d := by
  obtain ⟨e, he⟩ := exists_eraDay ((d + 719468) % 146097) (by omega) (by omega)
  have hindex := e.daysBefore_add_day ((d + 719468) / 146097)
  obtain ⟨hm0, hm1, hk0, hk1⟩ := month_of_day (e.isDay ((d + 719468) / 146097))
  refine ⟨e.yearOfEra + 400 * ((d + 719468) / 146097), (5 * e.day + 2) / 153,
    e.day - monthStart ((5 * e.day + 2) / 153), ⟨⟨hm0, hm1⟩, by omega, by omega⟩, ?_⟩
  unfold dayNumber
  omega

/-- The truncated division by 400 is made a floored one. -/
theorem tdiv_era (year : ℤ) :
    (if 0 ≤ year then year else year - 399).tdiv 400 = year / 400 := by
  split
  · exact Int.tdiv_eq_ediv_of_nonneg ‹_›
  · rename_i hneg
    have hflip : year - 399 = -(399 - year) := by omega
    rw [hflip, Int.neg_tdiv, Int.tdiv_eq_ediv_of_nonneg (by omega)]
    omega

theorem daysFromCivil_fromMarch {year month k : ℤ} (h : IsMarchDay year month k) :
    daysFromCivil (fromMarch year month k).1 (fromMarch year month k).2.1
        (fromMarch year month k).2.2 = dayNumber year month k - 719468 := by
  obtain ⟨hmonth, hk⟩ := h
  have hyear : (if (fromMarch year month k).2.1 ≤ 2 then (fromMarch year month k).1 - 1
      else (fromMarch year month k).1) = year := by
    unfold fromMarch
    dsimp only
    split_ifs <;> omega
  have hplace : (((fromMarch year month k).2.1 + 9) % 12 : ℕ) = month := by
    unfold fromMarch
    dsimp only
    split_ifs <;> omega
  have hday : ((fromMarch year month k).2.2 : ℤ) = k + 1 := by
    show ((k + 1).toNat : ℤ) = k + 1
    omega
  unfold daysFromCivil
  simp only [hyear, tdiv_era, hday]
  rw [hplace]
  unfold dayNumber daysBefore monthStart
  omega

/-! ## The calendar -/

theorem isDate_civilFromDays (d : ℤ) :
    IsDate (civilFromDays d).1 (civilFromDays d).2.1 (civilFromDays d).2.2 := by
  obtain ⟨year, month, k, h, rfl⟩ := exists_dayNumber d
  rw [civilFromDays_dayNumber h]
  exact h.isDate

theorem daysFromCivil_civilFromDays (d : ℤ) :
    daysFromCivil (civilFromDays d).1 (civilFromDays d).2.1 (civilFromDays d).2.2 = d := by
  obtain ⟨year, month, k, h, rfl⟩ := exists_dayNumber d
  rw [civilFromDays_dayNumber h, daysFromCivil_fromMarch h]

theorem civilFromDays_daysFromCivil {year : ℤ} {month day : ℕ} (h : IsDate year month day) :
    civilFromDays (daysFromCivil year month day) = (year, month, day) := by
  obtain ⟨y, m, k, hmarch, hdate⟩ := h.exists_fromMarch
  have hdays := daysFromCivil_fromMarch hmarch
  rw [hdate] at hdays
  rw [hdays, civilFromDays_dayNumber hmarch, hdate]

theorem civilFromDays_succ (d : ℤ) : civilFromDays (d + 1) = nextDate (civilFromDays d) := by
  obtain ⟨year, month, k, h, rfl⟩ := exists_dayNumber d
  obtain ⟨y, m, k', hnext, hdate, hnumber⟩ := nextDate_fromMarch h
  have hday : dayNumber year month k - 719468 + 1 = dayNumber y m k' - 719468 := by omega
  rw [hday, civilFromDays_dayNumber hnext, civilFromDays_dayNumber h, hdate]

end Wallermax.Content
