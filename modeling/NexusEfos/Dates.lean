/-
Calendar arithmetic, as JavaScript's `Date` does it.

A `DateTime` counts milliseconds since the first of January 1970, and the server
keeps its clock in UTC.  `setMonth` does not clamp: a day of the month that the
new month lacks rolls over into the following one.  `addMonths` counts days on
from the first of the new month, which is the same rule.
-/
import NexusEfos.Schema.Accounting

namespace NexusEfos

def msPerDay : ℤ := 86400000

/-- `d.setHours(0, 0, 0, 0)`. -/
def startOfDay (t : DateTime) : DateTime := t - t % msPerDay

/-- `d.setHours(23, 59, 59, 999)`. -/
def endOfDay (t : DateTime) : DateTime := startOfDay t + (msPerDay - 1)

/-- The number of days from 1970-01-01 to a date of the Gregorian calendar.  The
year is counted from March, so that the leap day comes last. -/
def daysFromCivil (year month day : ℤ) : ℤ :=
  let y := if month ≤ 2 then year - 1 else year
  let era := y / 400
  let yearOfEra := y - era * 400
  let dayOfYear := (153 * (if 2 < month then month - 3 else month + 9) + 2) / 5 + day - 1
  let dayOfEra := yearOfEra * 365 + yearOfEra / 4 - yearOfEra / 100 + dayOfYear
  era * 146097 + dayOfEra - 719468

/-- Year, month and day of the month of a number of days. -/
def civilFromDays (days : ℤ) : ℤ × ℤ × ℤ :=
  let z := days + 719468
  let era := z / 146097
  let dayOfEra := z - era * 146097
  let yearOfEra := (dayOfEra - dayOfEra / 1460 + dayOfEra / 36524 - dayOfEra / 146096) / 365
  let dayOfYear := dayOfEra - (365 * yearOfEra + yearOfEra / 4 - yearOfEra / 100)
  let shifted := (5 * dayOfYear + 2) / 153
  let month := if shifted < 10 then shifted + 3 else shifted - 9
  let year := yearOfEra + era * 400
  (if month ≤ 2 then year + 1 else year, month, dayOfYear - (153 * shifted + 2) / 5 + 1)

/-- `d.setDate(d.getDate() + n)`. -/
def addDays (t : DateTime) (n : ℤ) : DateTime := t + n * msPerDay

/-- `d.setMonth(d.getMonth() + n)`. -/
def addMonths (t : DateTime) (n : ℤ) : DateTime :=
  let (year, month, day) := civilFromDays (t / msPerDay)
  let months := month - 1 + n
  let days := daysFromCivil (year + months / 12) (months % 12 + 1) 1 + (day - 1)
  days * msPerDay + t % msPerDay

/-- `nextExecutionDate` of `lib/standingInstructions.ts`. -/
def nextExecutionDate (start : DateTime) (frequency : StandingInstructionFrequency)
    (customIntervalDays : Option ℤ) : DateTime :=
  match frequency with
  | .daily => addDays start 1
  | .weekly => addDays start 7
  | .fortnightly => addDays start 14
  | .monthly => addMonths start 1
  | .quarterly => addMonths start 3
  | .halfYearly => addMonths start 6
  | .annually => addMonths start 12
  | .custom =>
    match customIntervalDays with
    | some days => if 0 < days then addDays start days else addDays start 1
    | none => addDays start 1

-- The rollover the source discloses: a month after 31 January 2026 is 3 March.
example : civilFromDays (nextExecutionDate (daysFromCivil 2026 1 31 * msPerDay) .monthly none /
    msPerDay) = (2026, 3, 3) := by decide

end NexusEfos
