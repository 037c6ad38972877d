import Mathlib.Data.Nat.Digits.Defs
import Wallermax.Content.DatetimeLocal

/-!
# Dates in forms, there and back

`format_datetime_local` pads every number to the width of its field, so what it writes is
of the documented grammar, and `parse_datetime_local` reads it back as the same minute.
-/

namespace Wallermax.Content

/-! ## Padded numbers -/

theorem toList_pushn (text : String) (c : Char) (n : ℕ) :
    (text.pushn c n).toList = text.toList ++ List.replicate n c := by
  rw [String.pushn_eq_repeat_push]
  induction n with
  | zero => exact (List.append_nil _).symm
  | succ n ih =>
      show ((n.repeat (fun t : String => t.push c) text).push c).toList = _
      rw [String.toList_push, ih, List.append_assoc, List.replicate_succ']

theorem toList_padded (width n : ℕ) :
    (padded width n).toList =
      List.replicate (width - (Nat.toDigits 10 n).length) '0' ++ Nat.toDigits 10 n := by
  have hdigits : (toString (n : ℤ).natAbs).toList = Nat.toDigits 10 n := by
    rw [Int.natAbs_natCast, Nat.toString_eq_repr, Nat.toList_repr]
  unfold padded
  rw [if_neg (by omega), String.toList_append, toList_pushn, hdigits, ← String.length_toList,
    hdigits]
  rfl

theorem digitsValue_eq {ds : List Char} (hne : ds ≠ []) (hds : ∀ c ∈ ds, c.isDigit = true) :
    digitsValue ds = some (Nat.ofDigitChars 10 ds 0) := by
  unfold digitsValue
  rw [if_pos ⟨hne, List.all_eq_true.mpr hds⟩, Nat.ofDigitChars_eq_foldl]

theorem isDigit_of_mem_toDigits (n : ℕ) : ∀ c ∈ Nat.toDigits 10 n, c.isDigit = true := by
  induction n using Nat.strongRecOn with
  | ind n ih =>
      intro c hc
      have hdigit : ∀ k < 10, (Nat.digitChar k).isDigit = true := by decide
      rw [Nat.toDigits_eq_if (by decide)] at hc
      split at hc
      · rw [List.mem_singleton.mp hc]
        exact hdigit n ‹_›
      · rcases List.mem_append.mp hc with hc | hc
        · exact ih (n / 10) (by omega) c hc
        · rw [List.mem_singleton.mp hc]
          exact hdigit (n % 10) (by omega)

/-- A padded number that fits its width is a field of that width. -/
theorem exactField_padded {width n : ℕ} (hwidth : 0 < width) (hn : n < 10 ^ width) :
    ExactField width (padded width n).toList n := by
  have hlength : (Nat.toDigits 10 n).length ≤ width :=
    (Nat.length_toDigits_le_iff (by decide) hwidth).mpr hn
  have hdigits : ∀ c ∈ (padded width n).toList, c.isDigit = true := by
    intro c hc
    rw [toList_padded] at hc
    rcases List.mem_append.mp hc with hc | hc
    · rw [(List.mem_replicate.mp hc).2]
      rfl
    · exact isDigit_of_mem_toDigits n c hc
  have htotal : (padded width n).toList.length = width := by
    rw [toList_padded, List.length_append, List.length_replicate]
    omega
  refine ⟨htotal, ?_⟩
  rw [digitsValue_eq (List.ne_nil_of_length_pos (by omega)) hdigits, toList_padded,
    Nat.ofDigitChars_append, Nat.ofDigitChars_replicate_zero, Nat.mul_zero,
    Nat.ofDigitChars_ten_toDigits]

/-! ## The written date -/

/-- The date and the time of an instant, to the minute. -/
def stampOf (seconds : ℤ) : Stamp where
  year := (civilFromDays (seconds / 86400)).1.toNat
  month := (civilFromDays (seconds / 86400)).2.1
  day := (civilFromDays (seconds / 86400)).2.2
  hour := (seconds % 86400 / 3600).toNat
  minute := (seconds % 86400 % 3600 / 60).toNat
  second := 0

/-- The year of the instant is one that the field takes. -/
def FieldYear (seconds : ℤ) : Prop :=
  1970 ≤ (civilFromDays (seconds / 86400)).1 ∧ (civilFromDays (seconds / 86400)).1 ≤ 9999

theorem inCalendar_stampOf {seconds : ℤ} (h : FieldYear seconds) :
    (stampOf seconds).InCalendar := by
  obtain ⟨hlow, hhigh⟩ := h
  have hyear : ((civilFromDays (seconds / 86400)).1.toNat : ℤ) =
      (civilFromDays (seconds / 86400)).1 := Int.toNat_of_nonneg (by omega)
  have hdate := isDate_civilFromDays (seconds / 86400)
  rw [← hyear] at hdate
  exact ⟨by dsimp only [stampOf]; omega, hdate, by dsimp only [stampOf]; omega⟩

theorem toUnix_stampOf {seconds : ℤ} (h : FieldYear seconds) :
    (stampOf seconds).toUnix = seconds - seconds % 60 := by
  have hyear : ((civilFromDays (seconds / 86400)).1.toNat : ℤ) =
      (civilFromDays (seconds / 86400)).1 := Int.toNat_of_nonneg (by have := h.1; omega)
  unfold Stamp.toUnix stampOf
  dsimp only
  rw [hyear, daysFromCivil_civilFromDays]
  omega

/-- **What is written is of the documented kind.** -/
theorem shape_formatDatetimeLocal {seconds : ℤ} (h : FieldYear seconds) :
    Shape ExactField (formatDatetimeLocal seconds).toList (stampOf seconds) := by
  have hcalendar := inCalendar_stampOf h
  have hyear := hcalendar.year_bound
  have hmonth := hcalendar.date.month_bound
  have hday := hcalendar.date.day_bound
  have hday31 := daysInMonth_le (stampOf seconds).year (stampOf seconds).month
  have htime := hcalendar.time
  have htext : (formatDatetimeLocal seconds).toList =
      (padded 4 (stampOf seconds).year).toList ++ '-' ::
        ((padded 2 (stampOf seconds).month).toList ++ '-' ::
          (padded 2 (stampOf seconds).day).toList) ++ 'T' ::
        ((padded 2 (stampOf seconds).hour).toList ++ ':' ::
          (padded 2 (stampOf seconds).minute).toList) := by
    have hY : (((stampOf seconds).year : ℕ) : ℤ) = (civilFromDays (seconds / 86400)).1 :=
      Int.toNat_of_nonneg (by have := h.1; omega)
    have hh : (((stampOf seconds).hour : ℕ) : ℤ) = seconds % 86400 / 3600 :=
      Int.toNat_of_nonneg (by omega)
    have hm : (((stampOf seconds).minute : ℕ) : ℤ) = seconds % 86400 % 3600 / 60 :=
      Int.toNat_of_nonneg (by omega)
    rw [hY, hh, hm]
    unfold formatDatetimeLocal isoDate clock
    simp only [String.toList_append]
    simp [stampOf]
  rw [htext]
  exact .minutes (exactField_padded (by decide) (by omega)) (exactField_padded (by decide) (by omega))
    (exactField_padded (by decide) (by omega)) (exactField_padded (by decide) (by omega))
    (exactField_padded (by decide) (by omega)) rfl

theorem parseDatetimeLocal_formatDatetimeLocal {seconds : ℤ} (h : FieldYear seconds) :
    parseDatetimeLocal (formatDatetimeLocal seconds) = some (seconds - seconds % 60) := by
  rw [parseDatetimeLocal_of_shape (inCalendar_stampOf h)
    ((shape_formatDatetimeLocal h).mono fun _ _ _ hfield => hfield.integerField),
    toUnix_stampOf h]

/-- **The civil dates are the Gregorian calendar**: the two algorithms are each other's
inverse, days follow one another as in the table of months, the first day is the first of
1970, and the form's text goes there and back down to the minute. -/
theorem civil_calendar :
    (∀ d : ℤ, daysFromCivil (civilFromDays d).1 (civilFromDays d).2.1 (civilFromDays d).2.2 = d) ∧
      (∀ (year : ℤ) (month day : ℕ), 1970 ≤ year → year ≤ 9999 → IsDate year month day →
        civilFromDays (daysFromCivil year month day) = (year, month, day)) ∧
      (∀ d : ℤ, civilFromDays (d + 1) = nextDate (civilFromDays d)) ∧
      civilFromDays 0 = (1970, 1, 1) ∧
      ∀ seconds : ℤ, FieldYear seconds →
        parseDatetimeLocal (formatDatetimeLocal seconds) = some (seconds - seconds % 60) :=
  ⟨daysFromCivil_civilFromDays, fun _ _ _ _ _ hdate => civilFromDays_daysFromCivil hdate,
    civilFromDays_succ, by decide +kernel, fun _ hyear => parseDatetimeLocal_formatDatetimeLocal hyear⟩

/-- A leap day, and the last minute of the year 2000. -/
theorem civil_calendar_leap :
    civilFromDays (daysFromCivil 2028 2 29) = (2028, 2, 29) ∧
      parseDatetimeLocal (formatDatetimeLocal 978307199) = some (978307199 - 978307199 % 60) :=
  ⟨civil_calendar.2.1 2028 2 29 (by decide) (by decide) ⟨by decide, by decide⟩,
    civil_calendar.2.2.2.2 978307199 ⟨by decide +kernel, by decide +kernel⟩⟩

end Wallermax.Content
