import Wallermax.Base.Cut
import Wallermax.Content.Calendar

/-!
# The `datetime-local` field

What `parse_datetime_local` reads, as a grammar: the separators are where they should be,
and each field is whatever the integer parser takes, with a sign and with any number of
digits. The documented grammar has four digits for the year and two for every other
field.
-/

namespace Wallermax.Content

open Wallermax.Base

/-! ## Two grammars -/

/-- The values of the fields. -/
structure Stamp : Type where
  year : ℕ
  month : ℕ
  day : ℕ
  hour : ℕ
  minute : ℕ
  second : ℕ

/-- An instant of the calendar, from 1970 to 9999. -/
structure Stamp.InCalendar (s : Stamp) : Prop where
  year_bound : 1970 ≤ s.year ∧ s.year ≤ 9999
  date : IsDate s.year s.month s.day
  time : s.hour < 24 ∧ s.minute < 60 ∧ s.second < 60

def Stamp.toUnix (s : Stamp) : ℤ :=
  daysFromCivil s.year s.month s.day * 86400 + s.hour * 3600 + s.minute * 60 + s.second

/-- `YYYY-MM-DDTHH:MM` or `YYYY-MM-DDTHH:MM:SS`; `field` says which texts stand for a
value in a field of a width. -/
inductive Shape (field : ℕ → List Char → ℕ → Prop) : List Char → Stamp → Prop
  | minutes {Y M D h m : List Char} {s : Stamp} (year : field 4 Y s.year)
      (month : field 2 M s.month) (day : field 2 D s.day) (hour : field 2 h s.hour)
      (minute : field 2 m s.minute) (second : s.second = 0) :
      Shape field (Y ++ '-' :: (M ++ '-' :: D) ++ 'T' :: (h ++ ':' :: m)) s
  | seconds {Y M D h m sec : List Char} {s : Stamp} (year : field 4 Y s.year)
      (month : field 2 M s.month) (day : field 2 D s.day) (hour : field 2 h s.hour)
      (minute : field 2 m s.minute) (second : field 2 sec s.second) :
      Shape field (Y ++ '-' :: (M ++ '-' :: D) ++ 'T' :: (h ++ ':' :: (m ++ ':' :: sec))) s

/-- Exactly as many digits as the field is wide. -/
def ExactField (width : ℕ) (text : List Char) (value : ℕ) : Prop :=
  text.length = width ∧ digitsValue text = some value

/-- Whatever the integer parser takes. -/
def IntegerField (_width : ℕ) (text : List Char) (value : ℕ) : Prop :=
  signedValue true text = some (value : ℤ)

/-- The text is of the documented grammar, with an in-calendar value. -/
def Documented (raw : String) : Prop :=
  ∃ s : Stamp, s.InCalendar ∧ Shape ExactField raw.toList s

/-- The text has the separators of the documented grammar and integers for its fields,
with an in-calendar value. -/
def Readable (raw : String) : Prop :=
  ∃ s : Stamp, s.InCalendar ∧ Shape IntegerField raw.toList s

/-- The pieces between the separators, the date's at `-` and the time's at `:`. -/
def datePieces (raw : String) : List (List Char) :=
  (raw.toList.takeWhile (· != 'T')).splitOn '-'

def timePieces (raw : String) : List (List Char) :=
  (raw.toList.dropWhile (· != 'T')).tail.splitOn ':'

/-- Every piece has digits only, and as many as documented. -/
structure Neat (raw : String) : Prop where
  date : (datePieces raw).map List.length = [4, 2, 2]
  time : (timePieces raw).map List.length = [2, 2] ∨ (timePieces raw).map List.length = [2, 2, 2]
  digits : ∀ piece ∈ datePieces raw ++ timePieces raw, ∀ c ∈ piece, c.isDigit = true

theorem Shape.mono {field field' : ℕ → List Char → ℕ → Prop}
    (h : ∀ width text value, field width text value → field' width text value)
    {text : List Char} {s : Stamp} (hs : Shape field text s) : Shape field' text s := by
  cases hs with
  | minutes year month day hour minute second =>
      exact .minutes (h _ _ _ year) (h _ _ _ month) (h _ _ _ day) (h _ _ _ hour)
        (h _ _ _ minute) second
  | seconds year month day hour minute second =>
      exact .seconds (h _ _ _ year) (h _ _ _ month) (h _ _ _ day) (h _ _ _ hour)
        (h _ _ _ minute) (h _ _ _ second)

/-! ## Fields -/

theorem digitsValue_some {ds : List Char} {n : ℕ} (h : digitsValue ds = some n) :
    ds ≠ [] ∧ ∀ c ∈ ds, c.isDigit = true := by
  unfold digitsValue at h
  split at h
  · rename_i hdigits
    exact ⟨hdigits.1, List.all_eq_true.mp hdigits.2⟩
  · cases h

/-- The ways an integer is written. -/
theorem signedValue_cases {signed : Bool} {text : List Char} {value : ℤ}
    (h : signedValue signed text = some value) :
    ∃ (ds : List Char) (n : ℕ), digitsValue ds = some n ∧
      (text = ds ∧ value = n ∨ text = '+' :: ds ∧ value = n ∨
        signed = true ∧ text = '-' :: ds ∧ value = -n) := by
  unfold signedValue at h
  split at h
  · rename_i ds
    cases hds : digitsValue ds with
    | none =>
        rw [hds] at h
        cases h
    | some n =>
        rw [hds] at h
        cases h
        exact ⟨ds, n, hds, Or.inr (Or.inl ⟨rfl, rfl⟩)⟩
  · rename_i ds
    split at h
    · rename_i hsigned
      cases hds : digitsValue ds with
      | none =>
          rw [hds] at h
          cases h
      | some n =>
          rw [hds] at h
          cases h
          exact ⟨ds, n, hds, Or.inr (Or.inr ⟨hsigned, rfl, rfl⟩)⟩
    · cases h
  · cases hds : digitsValue text with
    | none =>
        rw [hds] at h
        cases h
    | some n =>
        rw [hds] at h
        cases h
        exact ⟨text, n, hds, Or.inl ⟨rfl, rfl⟩⟩

theorem signedValue_plus (signed : Bool) {ds : List Char} {n : ℕ} (h : digitsValue ds = some n) :
    signedValue signed ('+' :: ds) = some (n : ℤ) := by
  unfold signedValue
  simp [h]

theorem signedValue_of_digits (signed : Bool) {ds : List Char} {n : ℕ}
    (h : digitsValue ds = some n) : signedValue signed ds = some (n : ℤ) := by
  have hdigits := (digitsValue_some h).2
  unfold signedValue
  split
  · exact absurd (hdigits '+' List.mem_cons_self) (by decide)
  · exact absurd (hdigits '-' List.mem_cons_self) (by decide)
  · simp [h]

theorem ExactField.integerField {width : ℕ} {text : List Char} {value : ℕ}
    (h : ExactField width text value) : IntegerField width text value :=
  signedValue_of_digits true h.2

/-- The characters of an integer; a minus sign only before zero. -/
theorem IntegerField.chars {width : ℕ} {text : List Char} {value : ℕ}
    (h : IntegerField width text value) :
    ∀ c ∈ text, c.isDigit = true ∨ c = '+' ∨ c = '-' ∧ value = 0 := by
  intro c hc
  obtain ⟨ds, n, hds, ⟨rfl, -⟩ | ⟨rfl, -⟩ | ⟨-, rfl, hvalue⟩⟩ := signedValue_cases h
  · exact Or.inl ((digitsValue_some hds).2 c hc)
  · rcases List.mem_cons.mp hc with rfl | hc
    · exact Or.inr (Or.inl rfl)
    · exact Or.inl ((digitsValue_some hds).2 c hc)
  · rcases List.mem_cons.mp hc with rfl | hc
    · exact Or.inr (Or.inr ⟨rfl, by omega⟩)
    · exact Or.inl ((digitsValue_some hds).2 c hc)

theorem IntegerField.not_mem {width : ℕ} {text : List Char} {value : ℕ}
    (h : IntegerField width text value) {c : Char} (hdigit : c.isDigit = false)
    (hplus : c ≠ '+') (hminus : c ≠ '-' ∨ 0 < value) : c ∉ text := by
  intro hc
  rcases h.chars c hc with hd | rfl | ⟨rfl, rfl⟩
  · rw [hdigit] at hd
    cases hd
  · exact hplus rfl
  · rcases hminus with hminus | hminus
    · exact hminus rfl
    · exact Nat.lt_irrefl 0 hminus

theorem IntegerField.parseI64 {width : ℕ} {text : List Char} {value : ℕ}
    (h : IntegerField width text value) (hvalue : value < 10000) :
    parseI64 text = some (value : ℤ) := by
  unfold Content.parseI64
  rw [h]
  exact Option.filter_some_pos (decide_eq_true ⟨by omega, by omega⟩)

theorem IntegerField.parseU32 {width : ℕ} {text : List Char} {value : ℕ}
    (h : IntegerField width text value) (hpos : 0 < value) (hvalue : value < 10000) :
    parseU32 text = some value := by
  have hunsigned : signedValue false text = some (value : ℤ) := by
    obtain ⟨ds, n, hds, ⟨rfl, hn⟩ | ⟨rfl, hn⟩ | ⟨-, rfl, hn⟩⟩ := signedValue_cases h
    · rw [hn, signedValue_of_digits false hds]
    · rw [hn, signedValue_plus false hds]
    · omega
  unfold Content.parseU32
  rw [hunsigned]
  have hlt : (value : ℤ) < 0x100000000 := by omega
  simp [Option.filter, hlt]

theorem integerField_of_parseI64 (width : ℕ) {text : List Char} {value : ℤ}
    (h : Content.parseI64 text = some value) (hvalue : 0 ≤ value) :
    IntegerField width text value.toNat := by
  unfold Content.parseI64 at h
  unfold IntegerField
  rw [(Option.filter_eq_some_iff.mp h).1, Int.toNat_of_nonneg hvalue]

theorem integerField_of_parseU32 (width : ℕ) {text : List Char} {value : ℕ}
    (h : Content.parseU32 text = some value) : IntegerField width text value := by
  unfold Content.parseU32 at h
  obtain ⟨n, hn, rfl⟩ := Option.map_eq_some_iff.mp h
  unfold IntegerField
  obtain ⟨ds, k, hds, ⟨rfl, rfl⟩ | ⟨rfl, rfl⟩ | ⟨hsigned, -, -⟩⟩ :=
    signedValue_cases (Option.filter_eq_some_iff.mp hn).1
  · exact signedValue_of_digits true hds
  · exact signedValue_plus true hds
  · cases hsigned

/-! ## Reading -/

theorem parseDate_of_fields {Y M D : List Char} {year month day : ℕ}
    (hY : IntegerField 4 Y year) (hM : IntegerField 2 M month) (hD : IntegerField 2 D day)
    (hyear : 0 < year ∧ year < 10000) (hmonth : 0 < month ∧ month < 10000)
    (hday : 0 < day ∧ day < 10000) :
    parseDate (Y ++ '-' :: (M ++ '-' :: D)) = some ((year : ℤ), month, day) := by
  have hdash : ∀ {width : ℕ} {text : List Char} {value : ℕ}, IntegerField width text value →
      0 < value → '-' ∉ text := fun h hpos => h.not_mem (by decide) (by decide) (Or.inr hpos)
  unfold parseDate
  rw [splitOn_triple (hdash hY hyear.1) (hdash hM hmonth.1) (hdash hD hday.1)]
  simp [hY.parseI64 hyear.2, hM.parseU32 hmonth.1 hmonth.2, hD.parseU32 hday.1 hday.2]

theorem IntegerField.colon_not_mem {width : ℕ} {text : List Char} {value : ℕ}
    (h : IntegerField width text value) : ':' ∉ text :=
  h.not_mem (by decide) (by decide) (Or.inl (by decide))

theorem parseTime_minutes {h m : List Char} {hour minute : ℕ} (hh : IntegerField 2 h hour)
    (hm : IntegerField 2 m minute) (hhour : hour < 10000) (hminute : minute < 10000) :
    parseTime (h ++ ':' :: m) = some ((hour : ℤ), (minute : ℤ), 0) := by
  unfold parseTime
  rw [splitOn_pair hh.colon_not_mem hm.colon_not_mem]
  simp [hh.parseI64 hhour, hm.parseI64 hminute]

theorem parseTime_seconds {h m sec : List Char} {hour minute second : ℕ}
    (hh : IntegerField 2 h hour) (hm : IntegerField 2 m minute)
    (hs : IntegerField 2 sec second) (hhour : hour < 10000) (hminute : minute < 10000)
    (hsecond : second < 10000) :
    parseTime (h ++ ':' :: (m ++ ':' :: sec)) =
      some ((hour : ℤ), (minute : ℤ), (second : ℤ)) := by
  unfold parseTime
  rw [splitOn_triple hh.colon_not_mem hm.colon_not_mem hs.colon_not_mem]
  simp [hh.parseI64 hhour, hm.parseI64 hminute, hs.parseI64 hsecond]

theorem daysInMonth_le (year : ℤ) (month : ℕ) : daysInMonth year month ≤ 31 := by
  unfold daysInMonth
  split_ifs <;> decide

/-- A date and a time in the calendar are read as their instant. -/
theorem parseDatetimeLocal_of_parts {raw : String} {s : Stamp} {date time : List Char}
    (hs : s.InCalendar) (hraw : raw.toList = date ++ 'T' :: time) (hT : 'T' ∉ date)
    (hdate : parseDate date = some ((s.year : ℤ), s.month, s.day))
    (htime : parseTime time = some ((s.hour : ℤ), (s.minute : ℤ), (s.second : ℤ))) :
    parseDatetimeLocal raw = some s.toUnix := by
  obtain ⟨hyear, ⟨hmonth, hday⟩, hhour, hminute, hsecond⟩ := hs
  have hcalendar : 1970 ≤ (s.year : ℤ) ∧ (s.year : ℤ) ≤ 9999 ∧ 1 ≤ s.month ∧ s.month ≤ 12 ∧
      1 ≤ s.day ∧ s.day ≤ daysInMonth s.year s.month ∧ 0 ≤ (s.hour : ℤ) ∧ (s.hour : ℤ) < 24 ∧
      0 ≤ (s.minute : ℤ) ∧ (s.minute : ℤ) < 60 ∧ 0 ≤ (s.second : ℤ) ∧ (s.second : ℤ) < 60 := by
    omega
  unfold parseDatetimeLocal
  rw [hraw, span_append_cons hT]
  simp only [hdate, htime, Option.bind_eq_bind, Option.bind_some, if_pos hcalendar]
  rfl

/-- A text of the right shape is read as its instant. -/
theorem parseDatetimeLocal_of_shape {raw : String} {s : Stamp} (hs : s.InCalendar)
    (h : Shape IntegerField raw.toList s) : parseDatetimeLocal raw = some s.toUnix := by
  have hday31 := daysInMonth_le s.year s.month
  have hyear := hs.year_bound
  have hmonth := hs.date.month_bound
  have hday := hs.date.day_bound
  have htime := hs.time
  have hT : ∀ {width : ℕ} {text : List Char} {value : ℕ}, IntegerField width text value →
      'T' ∉ text := fun h => h.not_mem (by decide) (by decide) (Or.inl (by decide))
  generalize hraw : raw.toList = text at h
  cases h with
  | minutes hY hM hD hh hm hzero =>
      refine parseDatetimeLocal_of_parts hs hraw (by simp [hT hY, hT hM, hT hD])
        (parseDate_of_fields hY hM hD (by omega) (by omega) (by omega)) ?_
      rw [hzero]
      exact parseTime_minutes hh hm (by omega) (by omega)
  | seconds hY hM hD hh hm hsec =>
      exact parseDatetimeLocal_of_parts hs hraw (by simp [hT hY, hT hM, hT hD])
        (parseDate_of_fields hY hM hD (by omega) (by omega) (by omega))
        (parseTime_seconds hh hm hsec (by omega) (by omega) (by omega))

theorem parseDate_some {date : List Char} {year : ℤ} {month day : ℕ}
    (h : parseDate date = some (year, month, day)) :
    ∃ Y M D, date = Y ++ '-' :: (M ++ '-' :: D) ∧ parseI64 Y = some year ∧
      parseU32 M = some month ∧ parseU32 D = some day := by
  unfold parseDate at h
  split at h
  · rename_i Y M D hsplit
    simp only [Option.bind_eq_bind, Option.bind_eq_some_iff, Option.pure_def, Option.some.injEq,
      Prod.mk.injEq] at h
    obtain ⟨year', hY, month', hM, day', hD, rfl, rfl, rfl⟩ := h
    exact ⟨Y, M, D, eq_of_splitOn_triple hsplit, hY, hM, hD⟩
  · cases h

theorem parseTime_some {time : List Char} {hour minute second : ℤ}
    (h : parseTime time = some (hour, minute, second)) :
    (∃ h m, time = h ++ ':' :: m ∧ parseI64 h = some hour ∧ parseI64 m = some minute ∧
        second = 0) ∨
      ∃ h m s, time = h ++ ':' :: (m ++ ':' :: s) ∧ parseI64 h = some hour ∧
        parseI64 m = some minute ∧ parseI64 s = some second := by
  unfold parseTime at h
  split at h
  · rename_i a b hsplit
    simp only [Option.bind_eq_bind, Option.bind_eq_some_iff, Option.pure_def, Option.some.injEq,
      Prod.mk.injEq] at h
    obtain ⟨hour', hh, minute', hm, rfl, rfl, rfl⟩ := h
    exact Or.inl ⟨a, b, eq_of_splitOn_pair hsplit, hh, hm, rfl⟩
  · rename_i a b d hsplit
    simp only [Option.bind_eq_bind, Option.bind_eq_some_iff, Option.pure_def, Option.some.injEq,
      Prod.mk.injEq] at h
    obtain ⟨hour', hh, minute', hm, second', hs, rfl, rfl, rfl⟩ := h
    exact Or.inr ⟨a, b, d, eq_of_splitOn_triple hsplit, hh, hm, hs⟩
  · cases h

/-- What is read has the shape. -/
theorem shape_of_parseDatetimeLocal {raw : String} {n : ℤ}
    (h : parseDatetimeLocal raw = some n) : Readable raw := by
  unfold parseDatetimeLocal at h
  split at h
  · rename_i date time hspan
    have hraw : raw.toList = date ++ 'T' :: time := eq_append_of_span hspan
    simp only [Option.bind_eq_bind, Option.bind_eq_some_iff] at h
    obtain ⟨⟨year, month, day⟩, hdate, ⟨hour, minute, second⟩, htime, h⟩ := h
    dsimp only at h
    split at h
    · rename_i hcalendar
      obtain ⟨Y, M, D, rfl, hY, hM, hD⟩ := parseDate_some hdate
      have hyear : ((year.toNat : ℕ) : ℤ) = year := by omega
      let s : Stamp := ⟨year.toNat, month, day, hour.toNat, minute.toNat, second.toNat⟩
      have hs : s.InCalendar := by
        refine ⟨by dsimp only [s]; omega, ⟨by dsimp only [s]; omega, ?_⟩, by dsimp only [s]; omega⟩
        dsimp only [s]
        rw [hyear]
        omega
      refine ⟨s, hs, ?_⟩
      rw [hraw]
      have hY' := integerField_of_parseI64 4 hY (by omega)
      have hM' := integerField_of_parseU32 2 hM
      have hD' := integerField_of_parseU32 2 hD
      obtain ⟨h, m, rfl, hh, hm, hzero⟩ | ⟨h, m, sec, rfl, hh, hm, hsec⟩ := parseTime_some htime
      · exact .minutes hY' hM' hD' (integerField_of_parseI64 2 hh (by omega))
          (integerField_of_parseI64 2 hm (by omega)) (by dsimp only [s]; omega)
      · exact .seconds hY' hM' hD' (integerField_of_parseI64 2 hh (by omega))
          (integerField_of_parseI64 2 hm (by omega)) (integerField_of_parseI64 2 hsec (by omega))
    · cases h
  · cases h

/-- **What the parser accepts.** -/
theorem parseDatetimeLocal_isSome_iff (raw : String) :
    (parseDatetimeLocal raw).isSome = true ↔ Readable raw := by
  constructor
  · intro h
    obtain ⟨n, hn⟩ := Option.isSome_iff_exists.mp h
    exact shape_of_parseDatetimeLocal hn
  · rintro ⟨s, hs, hshape⟩
    rw [parseDatetimeLocal_of_shape hs hshape]
    rfl

/-! ## The documented grammar -/

theorem IntegerField.exactField {width : ℕ} {text : List Char} {value : ℕ}
    (h : IntegerField width text value) (hlength : text.length = width)
    (hdigits : ∀ c ∈ text, c.isDigit = true) : ExactField width text value := by
  refine ⟨hlength, ?_⟩
  obtain ⟨ds, n, hds, ⟨rfl, hn⟩ | ⟨rfl, -⟩ | ⟨-, rfl, -⟩⟩ := signedValue_cases h
  · rw [hds, Option.some.injEq]
    omega
  · exact absurd (hdigits '+' List.mem_cons_self) (by decide)
  · exact absurd (hdigits '-' List.mem_cons_self) (by decide)

theorem datePieces_eq {raw : String} {Y M D time : List Char}
    (hraw : raw.toList = Y ++ '-' :: (M ++ '-' :: D) ++ 'T' :: time)
    (hT : 'T' ∉ Y ∧ 'T' ∉ M ∧ 'T' ∉ D) (hdash : '-' ∉ Y ∧ '-' ∉ M ∧ '-' ∉ D) :
    datePieces raw = [Y, M, D] ∧ timePieces raw = time.splitOn ':' := by
  have hfront : 'T' ∉ Y ++ '-' :: (M ++ '-' :: D) := by simp [hT.1, hT.2.1, hT.2.2]
  have hspan := span_append_cons hfront time
  rw [List.span_eq_takeWhile_dropWhile, Prod.mk.injEq, ← hraw] at hspan
  unfold datePieces timePieces
  rw [hspan.1, hspan.2]
  exact ⟨splitOn_triple hdash.1 hdash.2.1 hdash.2.2, rfl⟩

/-- The documented texts are the readable ones without a sign and with the documented
numbers of digits. -/
theorem documented_iff (raw : String) : Documented raw ↔ Readable raw ∧ Neat raw := by
  constructor
  · rintro ⟨s, hs, hshape⟩
    refine ⟨⟨s, hs, hshape.mono fun _ _ _ h => h.integerField⟩, ?_⟩
    have hdigit : ∀ {width : ℕ} {text : List Char} {value : ℕ}, ExactField width text value →
        ∀ c ∈ text, c.isDigit = true := fun h => (digitsValue_some h.2).2
    have hnot : ∀ {width : ℕ} {text : List Char} {value : ℕ} (c : Char),
        ExactField width text value → c.isDigit = false → c ∉ text := by
      intro width text value c h hc hmem
      rw [hdigit h c hmem] at hc
      cases hc
    generalize hraw : raw.toList = text at hshape
    cases hshape with
    | minutes hY hM hD hh hm hzero =>
        obtain ⟨hdate, htime⟩ := datePieces_eq hraw
          ⟨hnot 'T' hY rfl, hnot 'T' hM rfl, hnot 'T' hD rfl⟩
          ⟨hnot '-' hY rfl, hnot '-' hM rfl, hnot '-' hD rfl⟩
        rw [splitOn_pair (hnot ':' hh rfl) (hnot ':' hm rfl)] at htime
        refine ⟨?_, Or.inl ?_, ?_⟩
        · simp [hdate, hY.1, hM.1, hD.1]
        · simp [htime, hh.1, hm.1]
        · rw [hdate, htime]
          simp only [List.cons_append, List.nil_append, List.forall_mem_cons]
          exact ⟨hdigit hY, hdigit hM, hdigit hD, hdigit hh, hdigit hm, by simp⟩
    | seconds hY hM hD hh hm hsec =>
        obtain ⟨hdate, htime⟩ := datePieces_eq hraw
          ⟨hnot 'T' hY rfl, hnot 'T' hM rfl, hnot 'T' hD rfl⟩
          ⟨hnot '-' hY rfl, hnot '-' hM rfl, hnot '-' hD rfl⟩
        rw [splitOn_triple (hnot ':' hh rfl) (hnot ':' hm rfl) (hnot ':' hsec rfl)] at htime
        refine ⟨?_, Or.inr ?_, ?_⟩
        · simp [hdate, hY.1, hM.1, hD.1]
        · simp [htime, hh.1, hm.1, hsec.1]
        · rw [hdate, htime]
          simp only [List.cons_append, List.nil_append, List.forall_mem_cons]
          exact ⟨hdigit hY, hdigit hM, hdigit hD, hdigit hh, hdigit hm, hdigit hsec, by simp⟩
  · rintro ⟨⟨s, hs, hshape⟩, hneat⟩
    refine ⟨s, hs, ?_⟩
    have hT : ∀ {width : ℕ} {text : List Char} {value : ℕ}, IntegerField width text value →
        'T' ∉ text := fun h => h.not_mem (by decide) (by decide) (Or.inl (by decide))
    have hdash : ∀ {width : ℕ} {text : List Char} {value : ℕ}, IntegerField width text value →
        0 < value → '-' ∉ text := fun h hpos => h.not_mem (by decide) (by decide) (Or.inr hpos)
    have hyear := hs.year_bound
    have hmonth := hs.date.month_bound
    have hday := hs.date.day_bound
    obtain ⟨hdate, htime, hdigits⟩ := hneat
    generalize hraw : raw.toList = text at hshape ⊢
    cases hshape with
    | minutes hY hM hD hh hm hzero =>
        obtain ⟨hd, ht⟩ := datePieces_eq hraw ⟨hT hY, hT hM, hT hD⟩
          ⟨hdash hY (by omega), hdash hM (by omega), hdash hD (by omega)⟩
        rw [splitOn_pair hh.colon_not_mem hm.colon_not_mem] at ht
        rw [hd] at hdate hdigits
        rw [ht] at htime hdigits
        simp only [List.map_cons, List.map_nil, List.cons.injEq, and_true, reduceCtorEq,
          and_false, or_false] at hdate htime
        simp only [List.cons_append, List.nil_append, List.forall_mem_cons] at hdigits
        obtain ⟨dY, dM, dD, dh, dm, -⟩ := hdigits
        exact .minutes (hY.exactField hdate.1 dY) (hM.exactField hdate.2.1 dM)
          (hD.exactField hdate.2.2 dD) (hh.exactField htime.1 dh) (hm.exactField htime.2 dm) hzero
    | seconds hY hM hD hh hm hsec =>
        obtain ⟨hd, ht⟩ := datePieces_eq hraw ⟨hT hY, hT hM, hT hD⟩
          ⟨hdash hY (by omega), hdash hM (by omega), hdash hD (by omega)⟩
        rw [splitOn_triple hh.colon_not_mem hm.colon_not_mem hsec.colon_not_mem] at ht
        rw [hd] at hdate hdigits
        rw [ht] at htime hdigits
        simp only [List.map_cons, List.map_nil, List.cons.injEq, and_true, reduceCtorEq,
          and_false, false_or] at hdate htime
        simp only [List.cons_append, List.nil_append, List.forall_mem_cons] at hdigits
        obtain ⟨dY, dM, dD, dh, dm, dsec, -⟩ := hdigits
        exact .seconds (hY.exactField hdate.1 dY) (hM.exactField hdate.2.1 dM)
          (hD.exactField hdate.2.2 dD) (hh.exactField htime.1 dh) (hm.exactField htime.2.1 dm)
          (hsec.exactField htime.2.2 dsec)

/-- **The parser keeps to its grammar exactly on the texts whose fields, if they make a date
and a time at all, have no sign and as many digits as documented.** -/
theorem accepts_documented_iff (raw : String) :
    ((parseDatetimeLocal raw).isSome = true ↔ Documented raw) ↔ (Readable raw → Neat raw) := by
  rw [parseDatetimeLocal_isSome_iff, documented_iff]
  exact ⟨fun h hr => (h.mp hr).2, fun h => ⟨fun hr => ⟨hr, h hr⟩, fun hr => hr.1⟩⟩

/-- Signs and single digits are read as a date and a time. -/
theorem loose_fields_accepted : (parseDatetimeLocal "+2026-9-1T7:+5").isSome = true ∧
    ¬ Documented "+2026-9-1T7:+5" := by
  refine ⟨by decide +kernel, ?_⟩
  rw [documented_iff]
  rintro ⟨-, hneat⟩
  exact absurd hneat.date (by decide +kernel)

end Wallermax.Content
