import Mathlib.Data.Int.Notation
import Mathlib.Data.List.SplitOn
import Mathlib.Tactic.Common

/-!
# Numbers and dates in forms

`str::parse` for the two integer types the forms read, and the civil calendar
behind the schedules and the formatted dates. A date is a count of seconds
since 1970, in UTC.
-/

namespace Wallermax.Content

/-! ## `str::parse` -/

/-- The value of a non-empty run of ASCII digits. -/
def digitsValue (ds : List Char) : Option ℕ :=
  if ds ≠ [] ∧ ds.all Char.isDigit then
    some (ds.foldl (fun n c => 10 * n + (c.toNat - '0'.toNat)) 0)
  else none

/-- A leading `+` or, for a signed type, `-`. -/
def signedValue (signed : Bool) : List Char → Option ℤ
  | '+' :: ds => (digitsValue ds).map fun n => (n : ℤ)
  | '-' :: ds => if signed then (digitsValue ds).map fun n => -(n : ℤ) else none
  | ds => (digitsValue ds).map fun n => (n : ℤ)

def parseI64 (raw : List Char) : Option ℤ :=
  (signedValue true raw).filter fun n =>
    decide (-0x8000000000000000 ≤ n ∧ n < 0x8000000000000000)

def parseU32 (raw : List Char) : Option ℕ :=
  ((signedValue false raw).filter fun n => decide (n < 0x100000000)).map Int.toNat

/-! ## The calendar -/

def daysInMonth (year : ℤ) (month : ℕ) : ℕ :=
  if [1, 3, 5, 7, 8, 10, 12].contains month then 31
  else if [4, 6, 9, 11].contains month then 30
  else if month = 2 then
    if (year % 4 = 0 ∧ year % 100 ≠ 0) ∨ year % 400 = 0 then 29 else 28
  else 0

/-- `civil_from_days`: year, month and day. -/
def civilFromDays (days : ℤ) : ℤ × ℕ × ℕ :=
  let z := days + 719468
  let era := z / 146097
  let dayOfEra := z % 146097
  let yearOfEra :=
    (dayOfEra - dayOfEra / 1460 + dayOfEra / 36524 - dayOfEra / 146096) / 365
  let year := yearOfEra + era * 400
  let dayOfYear := dayOfEra - (365 * yearOfEra + yearOfEra / 4 - yearOfEra / 100)
  let monthPrime := (5 * dayOfYear + 2) / 153
  let day := (dayOfYear - (153 * monthPrime + 2) / 5 + 1).toNat
  let month := (if monthPrime < 10 then monthPrime + 3 else monthPrime - 9).toNat
  (if month ≤ 2 then year + 1 else year, month, day)

/-- `days_from_civil`; the division by 400 truncates. -/
def daysFromCivil (year : ℤ) (month day : ℕ) : ℤ :=
  let year := if month ≤ 2 then year - 1 else year
  let era := (if 0 ≤ year then year else year - 399).tdiv 400
  let yearOfEra := year - era * 400
  let monthPrime := (month + 9) % 12
  let dayOfYear : ℤ := (153 * (monthPrime : ℤ) + 2) / 5 + day - 1
  let dayOfEra := yearOfEra * 365 + yearOfEra / 4 - yearOfEra / 100 + dayOfYear
  era * 146097 + dayOfEra - 719468

/-! ## Formatting -/

/-- `{n:0width}`: zeros up to the width, the sign counted. -/
def padded (width : ℕ) (n : ℤ) : String :=
  let digits := toString n.natAbs
  if n < 0 then "-" ++ "".pushn '0' (width - 1 - digits.length) ++ digits
  else "".pushn '0' (width - digits.length) ++ digits

def isoDate (seconds : ℤ) : String :=
  let (year, month, day) := civilFromDays (seconds / 86400)
  padded 4 year ++ "-" ++ padded 2 month ++ "-" ++ padded 2 day

/-- `HH:MM` of a time of day. -/
def clock (timeOfDay : ℤ) : String :=
  padded 2 (timeOfDay / 3600) ++ ":" ++ padded 2 (timeOfDay % 3600 / 60)

def formatTimestamp (seconds : ℤ) : String :=
  isoDate seconds ++ " " ++ clock (seconds % 86400)

def formatDatetimeLocal (seconds : ℤ) : String :=
  isoDate seconds ++ "T" ++ clock (seconds % 86400)

def isoDatetime (seconds : ℤ) : String :=
  isoDate seconds ++ "T" ++ clock (seconds % 86400) ++ ":" ++
    padded 2 (seconds % 86400 % 60) ++ "Z"

def weekdays : List String := ["Sun", "Mon", "Tue", "Wed", "Thu", "Fri", "Sat"]

def months : List String :=
  ["Jan", "Feb", "Mar", "Apr", "May", "Jun", "Jul", "Aug", "Sep", "Oct", "Nov", "Dec"]

/-- `rfc2822_date`: 1970-01-01 was a Thursday. -/
def rfc2822Date (seconds : ℤ) : String :=
  let days := seconds / 86400
  let (year, month, day) := civilFromDays days
  weekdays.getD ((days + 4) % 7).toNat "" ++ ", " ++ padded 2 day ++ " " ++
    months.getD (month - 1) "" ++ " " ++ padded 4 year ++ " " ++
    clock (seconds % 86400) ++ ":" ++ padded 2 (seconds % 86400 % 60) ++ " +0000"

/-! ## The `datetime-local` field -/

def parseDate (date : List Char) : Option (ℤ × ℕ × ℕ) :=
  match date.splitOn '-' with
  | [year, month, day] => do
      let year ← parseI64 year
      let month ← parseU32 month
      let day ← parseU32 day
      return (year, month, day)
  | _ => none

def parseTime (time : List Char) : Option (ℤ × ℤ × ℤ) :=
  match time.splitOn ':' with
  | [hour, minute] => do
      let hour ← parseI64 hour
      let minute ← parseI64 minute
      return (hour, minute, 0)
  | [hour, minute, second] => do
      let hour ← parseI64 hour
      let minute ← parseI64 minute
      let second ← parseI64 second
      return (hour, minute, second)
  | _ => none

/-- `parse_datetime_local`: cut at the first `T`, read as UTC. -/
def parseDatetimeLocal (raw : String) : Option ℤ :=
  match raw.toList.span (· != 'T') with
  | (date, 'T' :: time) => do
      let (year, month, day) ← parseDate date
      let (hour, minute, second) ← parseTime time
      if 1970 ≤ year ∧ year ≤ 9999 ∧ 1 ≤ month ∧ month ≤ 12 ∧
          1 ≤ day ∧ day ≤ daysInMonth year month ∧ 0 ≤ hour ∧ hour < 24 ∧
          0 ≤ minute ∧ minute < 60 ∧ 0 ≤ second ∧ second < 60 then
        return daysFromCivil year month day * 86400 + hour * 3600 + minute * 60 + second
      else none
  | _ => none

/-- `normalize_schedule`: only a draft's future date is kept. -/
def normalizeSchedule (is_published : Bool) (publish_at : Option ℤ) (now : ℤ) :
    Option ℤ :=
  match is_published, publish_at with
  | false, some due => if now < due then some due else none
  | _, _ => none

end Wallermax.Content
