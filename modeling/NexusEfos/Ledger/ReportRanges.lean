/-
The date ranges of reports: `lib/reportRanges.ts`.

A range is either a calendar unit, from its first day to its last, or a window that reaches from
today over so many days, months or years.  The units of a kind lie between the values of one
increasing function, the days on which they begin, so they leave no gap and do not overlap.  A
window of months ends on the same day of another month, and where that month lacks the day it
rolls over into the next one: there the windows of two days may end in the wrong order.
-/
import NexusEfos.Calendar

namespace NexusEfos

/-! ## JavaScript's dates -/

/-- `new Date(year, monthIndex, day)`: the years 0 to 99 stand for 1900 to 1999. -/
def newDate (year monthIndex day : ℤ) : DateTime :=
  let fullYear := if 0 ≤ year ∧ year ≤ 99 then 1900 + year else year
  (daysFromCivil (fullYear + monthIndex / 12) (monthIndex % 12 + 1) 1 + (day - 1)) * msPerDay

def getFullYear (t : DateTime) : ℤ := (civilFromDays (t / msPerDay)).1

/-- The index of the month, from 0. -/
def getMonth (t : DateTime) : ℤ := (civilFromDays (t / msPerDay)).2.1 - 1

/-- The day of the week, from Sunday. -/
def getDay (t : DateTime) : ℤ := (t / msPerDay + 4) % 7

/-- `d.setFullYear(d.getFullYear() + n)`. -/
def addYears (t : DateTime) (n : ℤ) : DateTime :=
  let (year, month, day) := civilFromDays (t / msPerDay)
  (daysFromCivil (year + n) month 1 + (day - 1)) * msPerDay + t % msPerDay

/-! ## The code -/

inductive ReportRangeId
  | today | thisWeek | thisMonth | thisQuarter | thisHalfYear | thisYear
  | tomorrow | weekToEnd | monthToEnd | quarterToEnd | halfYearToEnd | yearToEnd
  | nextWeek | nextMonth | nextQuarter | nextHalfYear | nextYear
  | yesterday | lastWeek | lastMonth | lastQuarter | lastHalfYear | lastYear
  | nextOneWeek | nextOneMonth | next3Months | next6Months | nextOneYear
  | lastOneWeek | lastOneMonth | last3Months | last6Months | lastOneYear
  | custom

/-- A range of instants, both ends included.  The source's names are `from` and `to`. -/
structure DateRange where
  start : DateTime
  stop : DateTime

namespace ReportRange

/-- Weeks begin on Monday: Sunday counts as the seventh day. -/
def startOfWeek (d : DateTime) : DateTime :=
  let r := startOfDay d
  let day := if getDay r = 0 then 7 else getDay r
  addDays r (-(day - 1))

def endOfWeek (d : DateTime) : DateTime := endOfDay (addDays (startOfWeek d) 6)

def startOfMonth (d : DateTime) : DateTime := newDate (getFullYear d) (getMonth d) 1

def endOfMonth (d : DateTime) : DateTime := endOfDay (newDate (getFullYear d) (getMonth d + 1) 0)

def startOfQuarter (d : DateTime) : DateTime :=
  let q := getMonth d / 3
  newDate (getFullYear d) (q * 3) 1

def endOfQuarter (d : DateTime) : DateTime :=
  let q := getMonth d / 3
  endOfDay (newDate (getFullYear d) (q * 3 + 3) 0)

def startOfHalfYear (d : DateTime) : DateTime :=
  let h := if getMonth d < 6 then 0 else 6
  newDate (getFullYear d) h 1

def endOfHalfYear (d : DateTime) : DateTime :=
  let h := if getMonth d < 6 then 5 else 11
  endOfDay (newDate (getFullYear d) (h + 1) 0)

def startOfYear (d : DateTime) : DateTime := newDate (getFullYear d) 0 1

def endOfYear (d : DateTime) : DateTime := endOfDay (newDate (getFullYear d) 11 31)

end ReportRange

open ReportRange in
/-- `custom` holds the dates of a range that is entered. -/
def resolveReportRange (id : ReportRangeId) (now : DateTime)
    (custom : Option (DateTime × DateTime)) : Except String DateRange :=
  let today := startOfDay now
  match id with
  | .today => .ok ⟨today, endOfDay today⟩
  | .thisWeek => .ok ⟨startOfWeek today, endOfWeek today⟩
  | .thisMonth => .ok ⟨startOfMonth today, endOfMonth today⟩
  | .thisQuarter => .ok ⟨startOfQuarter today, endOfQuarter today⟩
  | .thisHalfYear => .ok ⟨startOfHalfYear today, endOfHalfYear today⟩
  | .thisYear => .ok ⟨startOfYear today, endOfYear today⟩
  | .tomorrow => let t := addDays today 1; .ok ⟨t, endOfDay t⟩
  | .weekToEnd => .ok ⟨today, endOfWeek today⟩
  | .monthToEnd => .ok ⟨today, endOfMonth today⟩
  | .quarterToEnd => .ok ⟨today, endOfQuarter today⟩
  | .halfYearToEnd => .ok ⟨today, endOfHalfYear today⟩
  | .yearToEnd => .ok ⟨today, endOfYear today⟩
  | .nextWeek => let n := addDays (startOfWeek today) 7; .ok ⟨n, endOfWeek n⟩
  | .nextMonth => let n := addMonths (startOfMonth today) 1; .ok ⟨n, endOfMonth n⟩
  | .nextQuarter => let n := addMonths (startOfQuarter today) 3; .ok ⟨n, endOfQuarter n⟩
  | .nextHalfYear => let n := addMonths (startOfHalfYear today) 6; .ok ⟨n, endOfHalfYear n⟩
  | .nextYear => let n := addYears (startOfYear today) 1; .ok ⟨n, endOfYear n⟩
  | .yesterday => let y := addDays today (-1); .ok ⟨y, endOfDay y⟩
  | .lastWeek => let l := addDays (startOfWeek today) (-7); .ok ⟨l, endOfWeek l⟩
  | .lastMonth => let l := addMonths (startOfMonth today) (-1); .ok ⟨l, endOfMonth l⟩
  | .lastQuarter => let l := addMonths (startOfQuarter today) (-3); .ok ⟨l, endOfQuarter l⟩
  | .lastHalfYear => let l := addMonths (startOfHalfYear today) (-6); .ok ⟨l, endOfHalfYear l⟩
  | .lastYear => let l := addYears (startOfYear today) (-1); .ok ⟨l, endOfYear l⟩
  -- the rolling windows
  | .nextOneWeek => .ok ⟨today, endOfDay (addDays today 7)⟩
  | .nextOneMonth => .ok ⟨today, endOfDay (addMonths today 1)⟩
  | .next3Months => .ok ⟨today, endOfDay (addMonths today 3)⟩
  | .next6Months => .ok ⟨today, endOfDay (addMonths today 6)⟩
  | .nextOneYear => .ok ⟨today, endOfDay (addYears today 1)⟩
  | .lastOneWeek => .ok ⟨addDays today (-7), endOfDay today⟩
  | .lastOneMonth => .ok ⟨addMonths today (-1), endOfDay today⟩
  | .last3Months => .ok ⟨addMonths today (-3), endOfDay today⟩
  | .last6Months => .ok ⟨addMonths today (-6), endOfDay today⟩
  | .lastOneYear => .ok ⟨addYears today (-1), endOfDay today⟩
  | .custom =>
    match custom with
    | none => .error "CUSTOM range requires from/to dates"
    | some (start, stop) => .ok ⟨startOfDay start, endOfDay stop⟩

/-! ## What the dates come to -/

/-- Days between the first days of two months, by the months. -/
theorem firstOfMonth_le_iff {j days : ℤ} : firstOfMonth j ≤ days ↔ j ≤ monthOf days := by
  obtain ⟨hfirst, hday, hnext⟩ := monthOf_spec days
  constructor
  · intro hle
    have hlt := firstOfMonth_strictMono.lt_iff_lt.mp (lt_of_le_of_lt hle hnext)
    omega
  · intro hle
    have hmono := firstOfMonth_strictMono.monotone hle
    linarith

theorem monthLength_le (year month : ℤ) : monthLength year month ≤ 31 := by
  unfold monthLength
  split
  · split <;> decide
  · split <;> decide

theorem addYears_eq (t n : ℤ) : addYears t n = addMonths t (12 * n) := by
  have hmonth := civilMonth_bounds (t / msPerDay)
  unfold addYears addMonths
  rcases hcivil : civilFromDays (t / msPerDay) with ⟨year, month, day⟩
  rw [hcivil] at hmonth
  dsimp only at hmonth ⊢
  rw [show (month - 1 + 12 * n) / 12 = n by omega, show (month - 1 + 12 * n) % 12 + 1 = month by omega]

/-- From the year 100 on the constructor takes the year as it is. -/
theorem newDate_eq {year : ℤ} (hyear : 100 ≤ year) (monthIndex day : ℤ) :
    newDate year monthIndex day =
      (firstOfMonth (12 * year + monthIndex) + (day - 1)) * msPerDay := by
  have hlate : ¬ (0 ≤ year ∧ year ≤ 99) := by omega
  unfold newDate firstOfMonth
  dsimp only
  rw [if_neg hlate, show (12 * year + monthIndex) / 12 = year + monthIndex / 12 by omega,
    show (12 * year + monthIndex) % 12 = monthIndex % 12 by omega]

section Midnight

variable (day : ℤ)

theorem midnight_div : day * msPerDay / msPerDay = day := Int.mul_ediv_cancel _ msPerDay_pos.ne'

theorem startOfDay_midnight : startOfDay (day * msPerDay) = day * msPerDay := by
  rw [startOfDay, Int.mul_emod_left, sub_zero]

theorem endOfDay_midnight : endOfDay (day * msPerDay) = (day + 1) * msPerDay - 1 := by
  rw [endOfDay, startOfDay_midnight]
  ring

theorem startOfDay_eq (t : DateTime) : startOfDay t = t / msPerDay * msPerDay := by
  have hsplit := Int.ediv_mul_add_emod t msPerDay
  unfold startOfDay
  linarith

theorem getFullYear_midnight : getFullYear (day * msPerDay) = monthOf day / 12 := by
  rw [getFullYear, midnight_div, monthOf_div_twelve]

theorem getMonth_midnight : getMonth (day * msPerDay) = monthOf day % 12 := by
  rw [getMonth, midnight_div, monthOf_mod_twelve]

end Midnight

/-! ## Calendar units -/

inductive CalendarUnit
  | week | month | quarter | halfYear | year

namespace CalendarUnit

/-- The days on which the units of a kind begin. -/
def boundary : CalendarUnit → ℤ → ℤ
  | week, k => 7 * k - 3
  | month, k => firstOfMonth k
  | quarter, k => firstOfMonth (3 * k)
  | halfYear, k => firstOfMonth (6 * k)
  | year, k => firstOfMonth (12 * k)

/-- The number of the unit that a day lies in. -/
def index : CalendarUnit → ℤ → ℤ
  | week, days => (days + 3) / 7
  | month, days => monthOf days
  | quarter, days => monthOf days / 3
  | halfYear, days => monthOf days / 6
  | year, days => monthOf days / 12

/-- A unit, from its first millisecond to its last. -/
def range (unit : CalendarUnit) (k : ℤ) : DateRange :=
  ⟨unit.boundary k * msPerDay, unit.boundary (k + 1) * msPerDay - 1⟩

variable (unit : CalendarUnit)

theorem boundary_strictMono : StrictMono unit.boundary := by
  intro j k hjk
  cases unit with
  | week =>
    show 7 * j - 3 < 7 * k - 3
    omega
  | month => exact firstOfMonth_strictMono hjk
  | quarter =>
    apply firstOfMonth_strictMono
    omega
  | halfYear =>
    apply firstOfMonth_strictMono
    omega
  | year =>
    apply firstOfMonth_strictMono
    omega

theorem boundary_le_iff {k days : ℤ} : unit.boundary k ≤ days ↔ k ≤ unit.index days := by
  cases unit with
  | week =>
    show 7 * k - 3 ≤ days ↔ k ≤ (days + 3) / 7
    omega
  | month => exact firstOfMonth_le_iff
  | quarter =>
    show firstOfMonth (3 * k) ≤ days ↔ k ≤ monthOf days / 3
    rw [firstOfMonth_le_iff]
    omega
  | halfYear =>
    show firstOfMonth (6 * k) ≤ days ↔ k ≤ monthOf days / 6
    rw [firstOfMonth_le_iff]
    omega
  | year =>
    show firstOfMonth (12 * k) ≤ days ↔ k ≤ monthOf days / 12
    rw [firstOfMonth_le_iff]
    omega

theorem index_boundary (k : ℤ) : unit.index (unit.boundary k) = k := by
  apply le_antisymm
  · apply Int.lt_add_one_iff.mp
    rw [← not_le, ← boundary_le_iff, not_le]
    exact unit.boundary_strictMono (lt_add_one k)
  · exact unit.boundary_le_iff.mp le_rfl

/-- The functions of the source for a unit. -/
def startOf : CalendarUnit → DateTime → DateTime
  | week => ReportRange.startOfWeek
  | month => ReportRange.startOfMonth
  | quarter => ReportRange.startOfQuarter
  | halfYear => ReportRange.startOfHalfYear
  | year => ReportRange.startOfYear

def endOf : CalendarUnit → DateTime → DateTime
  | week => ReportRange.endOfWeek
  | month => ReportRange.endOfMonth
  | quarter => ReportRange.endOfQuarter
  | halfYear => ReportRange.endOfHalfYear
  | year => ReportRange.endOfYear

/-- So many units on. -/
def shift : CalendarUnit → DateTime → ℤ → DateTime
  | week, t, n => addDays t (7 * n)
  | month, t, n => addMonths t n
  | quarter, t, n => addMonths t (3 * n)
  | halfYear, t, n => addMonths t (6 * n)
  | year, t, n => addYears t n

def lastId : CalendarUnit → ReportRangeId
  | week => .lastWeek
  | month => .lastMonth
  | quarter => .lastQuarter
  | halfYear => .lastHalfYear
  | year => .lastYear

def thisId : CalendarUnit → ReportRangeId
  | week => .thisWeek
  | month => .thisMonth
  | quarter => .thisQuarter
  | halfYear => .thisHalfYear
  | year => .thisYear

def nextId : CalendarUnit → ReportRangeId
  | week => .nextWeek
  | month => .nextMonth
  | quarter => .nextQuarter
  | halfYear => .nextHalfYear
  | year => .nextYear

def toEndId : CalendarUnit → ReportRangeId
  | week => .weekToEnd
  | month => .monthToEnd
  | quarter => .quarterToEnd
  | halfYear => .halfYearToEnd
  | year => .yearToEnd

/-- Far enough from the years that the constructor maps elsewhere. -/
def Modern : CalendarUnit → ℤ → Prop
  | week, _ => True
  | _, days => 1200 ≤ monthOf days

theorem startOf_midnight {day : ℤ} (h : unit.Modern day) :
    unit.startOf (day * msPerDay) = unit.boundary (unit.index day) * msPerDay := by
  cases unit with
  | week =>
    have hback : day - ((if (day + 4) % 7 = 0 then 7 else (day + 4) % 7) - 1) =
        7 * ((day + 3) / 7) - 3 := by
      split <;> omega
    show ReportRange.startOfWeek (day * msPerDay) = (7 * ((day + 3) / 7) - 3) * msPerDay
    rw [ReportRange.startOfWeek, startOfDay_midnight, getDay, midnight_div, ← hback, addDays]
    ring
  | month =>
    have hmonth : 1200 ≤ monthOf day := h
    show ReportRange.startOfMonth (day * msPerDay) = firstOfMonth (monthOf day) * msPerDay
    rw [ReportRange.startOfMonth, getFullYear_midnight, getMonth_midnight, newDate_eq (by omega),
      Int.mul_ediv_add_emod, sub_self, add_zero]
  | quarter =>
    have hmonth : 1200 ≤ monthOf day := h
    show ReportRange.startOfQuarter (day * msPerDay) = firstOfMonth (3 * (monthOf day / 3)) * msPerDay
    rw [ReportRange.startOfQuarter, getFullYear_midnight, getMonth_midnight, newDate_eq (by omega),
      show 12 * (monthOf day / 12) + monthOf day % 12 / 3 * 3 = 3 * (monthOf day / 3) by omega,
      sub_self, add_zero]
  | halfYear =>
    have hmonth : 1200 ≤ monthOf day := h
    have hhalf : 12 * (monthOf day / 12) + (if monthOf day % 12 < 6 then 0 else 6) =
        6 * (monthOf day / 6) := by
      split <;> omega
    show ReportRange.startOfHalfYear (day * msPerDay) =
      firstOfMonth (6 * (monthOf day / 6)) * msPerDay
    rw [ReportRange.startOfHalfYear, getFullYear_midnight, getMonth_midnight,
      newDate_eq (by omega), hhalf, sub_self, add_zero]
  | year =>
    have hmonth : 1200 ≤ monthOf day := h
    show ReportRange.startOfYear (day * msPerDay) = firstOfMonth (12 * (monthOf day / 12)) * msPerDay
    rw [ReportRange.startOfYear, getFullYear_midnight, newDate_eq (by omega), add_zero, sub_self,
      add_zero]

theorem endOf_midnight {day : ℤ} (h : unit.Modern day) :
    unit.endOf (day * msPerDay) = unit.boundary (unit.index day + 1) * msPerDay - 1 := by
  cases unit with
  | week =>
    have hstart : startOf week (day * msPerDay) = boundary week (index week day) * msPerDay :=
      startOf_midnight week trivial
    show endOfDay (addDays (startOf week (day * msPerDay)) 6) =
      (7 * ((day + 3) / 7 + 1) - 3) * msPerDay - 1
    have hlast : addDays (startOf week (day * msPerDay)) 6 =
        (7 * ((day + 3) / 7) + 3) * msPerDay := by
      rw [hstart, addDays]
      show (7 * ((day + 3) / 7) - 3) * msPerDay + 6 * msPerDay = _
      ring
    rw [hlast, endOfDay_midnight]
    ring
  | month =>
    have hmonth : 1200 ≤ monthOf day := h
    show ReportRange.endOfMonth (day * msPerDay) = firstOfMonth (monthOf day + 1) * msPerDay - 1
    rw [ReportRange.endOfMonth, getFullYear_midnight, getMonth_midnight, newDate_eq (by omega),
      endOfDay_midnight, ← add_assoc, Int.mul_ediv_add_emod]
    ring
  | quarter =>
    have hmonth : 1200 ≤ monthOf day := h
    show ReportRange.endOfQuarter (day * msPerDay) =
      firstOfMonth (3 * (monthOf day / 3 + 1)) * msPerDay - 1
    rw [ReportRange.endOfQuarter, getFullYear_midnight, getMonth_midnight, newDate_eq (by omega),
      endOfDay_midnight,
      show 12 * (monthOf day / 12) + (monthOf day % 12 / 3 * 3 + 3) = 3 * (monthOf day / 3 + 1) by
        omega]
    ring
  | halfYear =>
    have hmonth : 1200 ≤ monthOf day := h
    have hhalf : 12 * (monthOf day / 12) + ((if monthOf day % 12 < 6 then 5 else 11) + 1) =
        6 * (monthOf day / 6 + 1) := by
      split <;> omega
    show ReportRange.endOfHalfYear (day * msPerDay) =
      firstOfMonth (6 * (monthOf day / 6 + 1)) * msPerDay - 1
    rw [ReportRange.endOfHalfYear, getFullYear_midnight, getMonth_midnight,
      newDate_eq (by omega), endOfDay_midnight, hhalf]
    ring
  | year =>
    have hmonth : 1200 ≤ monthOf day := h
    have hdecember : monthLength ((12 * (monthOf day / 12) + 11) / 12)
        ((12 * (monthOf day / 12) + 11) % 12 + 1) = 31 := by
      rw [show (12 * (monthOf day / 12) + 11) % 12 + 1 = 12 by omega]
      rfl
    have hnext := firstOfMonth_succ (12 * (monthOf day / 12) + 11)
    rw [hdecember, show 12 * (monthOf day / 12) + 11 + 1 = 12 * (monthOf day / 12 + 1) by ring] at hnext
    show ReportRange.endOfYear (day * msPerDay) =
      firstOfMonth (12 * (monthOf day / 12 + 1)) * msPerDay - 1
    rw [ReportRange.endOfYear, getFullYear_midnight, newDate_eq (by omega), endOfDay_midnight, hnext]
    ring

theorem shift_boundary (k n : ℤ) :
    unit.shift (unit.boundary k * msPerDay) n = unit.boundary (k + n) * msPerDay := by
  cases unit with
  | week =>
    show (7 * k - 3) * msPerDay + 7 * n * msPerDay = (7 * (k + n) - 3) * msPerDay
    ring
  | month => exact addMonths_firstOfMonth k n
  | quarter =>
    show addMonths (firstOfMonth (3 * k) * msPerDay) (3 * n) = firstOfMonth (3 * (k + n)) * msPerDay
    rw [addMonths_firstOfMonth, mul_add]
  | halfYear =>
    show addMonths (firstOfMonth (6 * k) * msPerDay) (6 * n) = firstOfMonth (6 * (k + n)) * msPerDay
    rw [addMonths_firstOfMonth, mul_add]
  | year =>
    show addYears (firstOfMonth (12 * k) * msPerDay) n = firstOfMonth (12 * (k + n)) * msPerDay
    rw [addYears_eq, addMonths_firstOfMonth, mul_add]

theorem modern_boundary {day n : ℤ} (h : 2400 ≤ monthOf day) (hn : -1 ≤ n) :
    unit.Modern (unit.boundary (unit.index day + n)) := by
  cases unit with
  | week => trivial
  | month =>
    show 1200 ≤ monthOf (firstOfMonth (monthOf day + n))
    rw [monthOf_firstOfMonth]
    omega
  | quarter =>
    show 1200 ≤ monthOf (firstOfMonth (3 * (monthOf day / 3 + n)))
    rw [monthOf_firstOfMonth]
    omega
  | halfYear =>
    show 1200 ≤ monthOf (firstOfMonth (6 * (monthOf day / 6 + n)))
    rw [monthOf_firstOfMonth]
    omega
  | year =>
    show 1200 ≤ monthOf (firstOfMonth (12 * (monthOf day / 12 + n)))
    rw [monthOf_firstOfMonth]
    omega

theorem Modern.of_late {day : ℤ} (h : 2400 ≤ monthOf day) : unit.Modern day := by
  cases unit with
  | week => trivial
  | month | quarter | halfYear | year => exact le_trans (by decide) h

/-- The range of a unit from its own first day. -/
theorem range_eq {k : ℤ} (h : unit.Modern (unit.boundary k)) :
    (⟨unit.boundary k * msPerDay, unit.endOf (unit.boundary k * msPerDay)⟩ : DateRange) =
      unit.range k := by
  rw [endOf_midnight unit h, index_boundary]
  rfl

end CalendarUnit

section Tiles

variable (unit : CalendarUnit) {now : DateTime} (custom : Option (DateTime × DateTime))

theorem resolve_this (h : unit.Modern (now / msPerDay)) :
    resolveReportRange unit.thisId now custom = .ok (unit.range (unit.index (now / msPerDay))) := by
  have hcode : resolveReportRange unit.thisId now custom =
      .ok ⟨unit.startOf (startOfDay now), unit.endOf (startOfDay now)⟩ := by
    cases unit <;> rfl
  rw [hcode, startOfDay_eq, unit.startOf_midnight h, unit.endOf_midnight h]
  rfl

theorem resolve_toEnd (h : unit.Modern (now / msPerDay)) :
    resolveReportRange unit.toEndId now custom =
      .ok ⟨startOfDay now, (unit.range (unit.index (now / msPerDay))).stop⟩ := by
  have hcode : resolveReportRange unit.toEndId now custom =
      .ok ⟨startOfDay now, unit.endOf (startOfDay now)⟩ := by
    cases unit <;> rfl
  have hend := unit.endOf_midnight h
  rw [← startOfDay_eq] at hend
  rw [hcode, hend]
  rfl

/-- A unit before or after the present one. -/
theorem shifted_range (h : 2400 ≤ monthOf (now / msPerDay)) {n : ℤ} (hn : -1 ≤ n) :
    (⟨unit.shift (unit.startOf (startOfDay now)) n,
      unit.endOf (unit.shift (unit.startOf (startOfDay now)) n)⟩ : DateRange) =
        unit.range (unit.index (now / msPerDay) + n) := by
  rw [startOfDay_eq, unit.startOf_midnight (.of_late unit h), unit.shift_boundary,
    unit.range_eq (unit.modern_boundary h hn)]

theorem resolve_next (h : 2400 ≤ monthOf (now / msPerDay)) :
    resolveReportRange unit.nextId now custom =
      .ok (unit.range (unit.index (now / msPerDay) + 1)) := by
  rw [← shifted_range unit h (by decide)]
  cases unit <;> rfl

theorem resolve_last (h : 2400 ≤ monthOf (now / msPerDay)) :
    resolveReportRange unit.lastId now custom =
      .ok (unit.range (unit.index (now / msPerDay) - 1)) := by
  rw [sub_eq_add_neg, ← shifted_range unit h le_rfl]
  cases unit <;> rfl

/-- An instant lies in the unit of its day. -/
theorem mem_range (now : DateTime) :
    (unit.range (unit.index (now / msPerDay))).start ≤ now ∧
      now ≤ (unit.range (unit.index (now / msPerDay))).stop := by
  have hfirst : unit.boundary (unit.index (now / msPerDay)) ≤ now / msPerDay :=
    unit.boundary_le_iff.mpr le_rfl
  have hlast : now / msPerDay < unit.boundary (unit.index (now / msPerDay) + 1) := by
    rw [← not_le, unit.boundary_le_iff]
    omega
  constructor
  · exact (Int.le_ediv_iff_mul_le msPerDay_pos).mp hfirst
  · exact Int.le_sub_one_of_lt ((Int.ediv_lt_iff_lt_mul msPerDay_pos).mp hlast)

/-- The last, the present and the next unit follow one another without a gap, and the present
instant lies in the present one. -/
theorem calendar_ranges_tile (unit : CalendarUnit) (now : DateTime) (hyear : 200 ≤ getFullYear now)
    (custom : Option (DateTime × DateTime)) :
    ∃ last this next toEnd : DateRange,
      resolveReportRange unit.lastId now custom = .ok last ∧
      resolveReportRange unit.thisId now custom = .ok this ∧
      resolveReportRange unit.nextId now custom = .ok next ∧
      resolveReportRange unit.toEndId now custom = .ok toEnd ∧
      (last.start ≤ last.stop ∧ this.start ≤ this.stop ∧ next.start ≤ next.stop) ∧
      (this.start = last.stop + 1 ∧ next.start = this.stop + 1) ∧
      (this.start ≤ now ∧ now ≤ this.stop) ∧
      (toEnd.start = startOfDay now ∧ toEnd.stop = this.stop) ∧
      resolveReportRange unit.thisId next.start custom = .ok next := by
  have hlate : 2400 ≤ monthOf (now / msPerDay) := by
    have hyears := monthOf_div_twelve (now / msPerDay)
    unfold getFullYear at hyear
    omega
  have hlong : ∀ k, (unit.range k).start ≤ (unit.range k).stop := by
    intro k
    have hlater := mul_lt_mul_of_pos_right (unit.boundary_strictMono (lt_add_one k)) msPerDay_pos
    exact Int.le_sub_one_of_lt hlater
  refine ⟨_, _, _, _, resolve_last unit custom hlate,
    resolve_this unit custom (.of_late unit hlate), resolve_next unit custom hlate,
    resolve_toEnd unit custom (.of_late unit hlate), ⟨hlong _, hlong _, hlong _⟩, ⟨?_, ?_⟩,
    mem_range unit now, ⟨rfl, rfl⟩, ?_⟩
  · show unit.boundary _ * msPerDay = unit.boundary _ * msPerDay - 1 + 1
    rw [sub_add_cancel, sub_add_cancel]
  · show unit.boundary _ * msPerDay = unit.boundary _ * msPerDay - 1 + 1
    rw [sub_add_cancel]
  · have hmodern := unit.modern_boundary hlate (n := 1) (by decide)
    have hthis : unit.Modern
        (unit.boundary (unit.index (now / msPerDay) + 1) * msPerDay / msPerDay) → _ :=
      resolve_this unit custom
    rw [midnight_div, unit.index_boundary] at hthis
    exact hthis hmodern

/-- The months around a leap day. -/
theorem calendar_ranges_tile_leapDay :
    ∃ this next : DateRange,
      resolveReportRange .thisMonth (daysFromCivil 2024 2 29 * msPerDay + 1) none = .ok this ∧
      resolveReportRange .nextMonth (daysFromCivil 2024 2 29 * msPerDay + 1) none = .ok next ∧
      next.start = this.stop + 1 := by
  obtain ⟨_, this, next, _, -, hthis, hnext, -, -, ⟨-, hconsecutive⟩, -⟩ :=
    calendar_ranges_tile .month (daysFromCivil 2024 2 29 * msPerDay + 1) (by decide) none
  exact ⟨this, next, hthis, hnext, hconsecutive⟩

end Tiles

/-! ## Rolling windows -/

inductive RollingWindow
  | oneWeek | oneMonth | threeMonths | sixMonths | oneYear

inductive WindowSide
  | next | last

def WindowSide.sign : WindowSide → ℤ
  | next => 1
  | last => -1

namespace RollingWindow

def rangeId : RollingWindow → WindowSide → ReportRangeId
  | oneWeek, .next => .nextOneWeek
  | oneMonth, .next => .nextOneMonth
  | threeMonths, .next => .next3Months
  | sixMonths, .next => .next6Months
  | oneYear, .next => .nextOneYear
  | oneWeek, .last => .lastOneWeek
  | oneMonth, .last => .lastOneMonth
  | threeMonths, .last => .last3Months
  | sixMonths, .last => .last6Months
  | oneYear, .last => .lastOneYear

/-- The other end of a window. -/
def farEnd : RollingWindow → WindowSide → DateTime → DateTime
  | oneWeek, side, t => addDays t (7 * side.sign)
  | oneMonth, side, t => addMonths t side.sign
  | threeMonths, side, t => addMonths t (3 * side.sign)
  | sixMonths, side, t => addMonths t (6 * side.sign)
  | oneYear, side, t => addYears t side.sign

/-- The months of a window. -/
def months : RollingWindow → ℤ
  | oneWeek => 0
  | oneMonth => 1
  | threeMonths => 3
  | sixMonths => 6
  | oneYear => 12

/-- The second of two days is in the month after that of the first, and its day of the month is
smaller than what the first day's exceeds the length of its target month by. -/
def Overtakes (window : RollingWindow) (side : WindowSide) (day₁ day₂ : ℤ) : Prop :=
  let target := monthOf day₁ + window.months * side.sign
  monthOf day₂ = monthOf day₁ + 1 ∧
    dayOfMonth day₂ + monthLength (target / 12) (target % 12 + 1) < dayOfMonth day₁

instance (window : RollingWindow) (side : WindowSide) (day₁ day₂ : ℤ) :
    Decidable (window.Overtakes side day₁ day₂) := inferInstanceAs (Decidable (_ ∧ _))

/-- The day of the other end. -/
def farDay (window : RollingWindow) (side : WindowSide) (day : ℤ) : ℤ :=
  match window with
  | oneWeek => day + 7 * side.sign
  | _ => firstOfMonth (monthOf day + window.months * side.sign) + (dayOfMonth day - 1)

variable (window : RollingWindow) (side : WindowSide)

theorem farEnd_midnight (day : ℤ) :
    window.farEnd side (day * msPerDay) = window.farDay side day * msPerDay := by
  have hmonths : ∀ n, addMonths (day * msPerDay) n =
      (firstOfMonth (monthOf day + n) + (dayOfMonth day - 1)) * msPerDay := by
    intro n
    rw [addMonths_eq, midnight_div, Int.mul_emod_left, add_zero]
  cases window with
  | oneWeek =>
    show day * msPerDay + 7 * side.sign * msPerDay = (day + 7 * side.sign) * msPerDay
    ring
  | oneMonth =>
    show addMonths (day * msPerDay) side.sign =
      (firstOfMonth (monthOf day + 1 * side.sign) + (dayOfMonth day - 1)) * msPerDay
    rw [hmonths, one_mul]
  | threeMonths => exact hmonths _
  | sixMonths => exact hmonths _
  | oneYear =>
    show addYears (day * msPerDay) side.sign = _
    rw [addYears_eq]
    exact hmonths _

/-- The first of two days after so many months, and the second. -/
theorem monthsOn_le_iff {day₁ day₂ : ℤ} (h : day₁ ≤ day₂) (n : ℤ) :
    firstOfMonth (monthOf day₁ + n) + (dayOfMonth day₁ - 1) ≤
        firstOfMonth (monthOf day₂ + n) + (dayOfMonth day₂ - 1) ↔
      ¬ (monthOf day₂ = monthOf day₁ + 1 ∧
        dayOfMonth day₂ + monthLength ((monthOf day₁ + n) / 12) ((monthOf day₁ + n) % 12 + 1) <
          dayOfMonth day₁) := by
  obtain ⟨hspec₁, hday₁, hnext₁⟩ := monthOf_spec day₁
  obtain ⟨hspec₂, hday₂, -⟩ := monthOf_spec day₂
  have hmonth : monthOf day₁ ≤ monthOf day₂ := firstOfMonth_le_iff.mp (by linarith)
  have hlength := firstOfMonth_succ (monthOf day₁ + n)
  rcases hmonth.eq_or_lt with hsame | hlater
  · -- the same month
    rw [← hsame] at hspec₂ ⊢
    constructor
    · exact fun _ hnot => by omega
    · intro _
      linarith
  · by_cases hadjacent : monthOf day₂ = monthOf day₁ + 1
    · rw [hadjacent, add_right_comm, hlength]
      constructor
      · rintro hle ⟨-, hlt⟩
        linarith
      · intro hnot
        rw [not_and, not_lt] at hnot
        linarith [hnot rfl]
    · -- two months on are longer than what any day of the month can exceed
      have hfar : firstOfMonth (monthOf day₁ + n + 1 + 1) ≤ firstOfMonth (monthOf day₂ + n) :=
        firstOfMonth_strictMono.monotone (by omega)
      have hlength' := firstOfMonth_succ (monthOf day₁ + n + 1)
      have hlong := monthLength_pos ((monthOf day₁ + n) / 12) ((monthOf day₁ + n) % 12 + 1)
      have hlong' := monthLength_pos ((monthOf day₁ + n + 1) / 12) ((monthOf day₁ + n + 1) % 12 + 1)
      have hshort := monthLength_le (monthOf day₁ / 12) (monthOf day₁ % 12 + 1)
      rw [firstOfMonth_succ] at hnext₁
      constructor
      · exact fun _ hnot => hadjacent hnot.1
      · intro _
        linarith

theorem farDay_le_iff {day₁ day₂ : ℤ} (h : day₁ ≤ day₂) :
    window.farDay side day₁ ≤ window.farDay side day₂ ↔ ¬ window.Overtakes side day₁ day₂ := by
  cases window with
  | oneWeek =>
    obtain ⟨hspec, -, hnext⟩ := monthOf_spec day₁
    have hday := (monthOf_spec day₂).2.1
    rw [firstOfMonth_succ] at hnext
    have hnever : ¬ oneWeek.Overtakes side day₁ day₂ := by
      rintro ⟨-, hlt⟩
      simp only [months, zero_mul, add_zero] at hlt
      linarith
    constructor
    · exact fun _ => hnever
    · intro _
      show day₁ + 7 * side.sign ≤ day₂ + 7 * side.sign
      omega
  | oneMonth | threeMonths | sixMonths | oneYear => exact monthsOn_le_iff h _

/-- A window reaches from today forwards or backwards. -/
theorem farDay_next (day : ℤ) : day ≤ window.farDay .next day := by
  have hmonths : ∀ n, 0 ≤ n → day ≤ firstOfMonth (monthOf day + n) + (dayOfMonth day - 1) := by
    intro n hn
    have hmono := firstOfMonth_strictMono.monotone (show monthOf day ≤ monthOf day + n by omega)
    linarith [(monthOf_spec day).1]
  cases window with
  | oneWeek =>
    show day ≤ day + 7 * 1
    omega
  | oneMonth | threeMonths | sixMonths | oneYear => exact hmonths _ (by decide)

theorem farDay_last (day : ℤ) : window.farDay .last day ≤ day := by
  have hmonths : ∀ n, n ≤ 0 → firstOfMonth (monthOf day + n) + (dayOfMonth day - 1) ≤ day := by
    intro n hn
    have hmono := firstOfMonth_strictMono.monotone (show monthOf day + n ≤ monthOf day by omega)
    linarith [(monthOf_spec day).1]
  cases window with
  | oneWeek =>
    show day + 7 * -1 ≤ day
    omega
  | oneMonth | threeMonths | sixMonths | oneYear => exact hmonths _ (by decide)

end RollingWindow

/-- The windows of two instants, each around its own today and the second no earlier. -/
def WindowsMoveOn (id : ReportRangeId) (now₁ now₂ : DateTime)
    (custom : Option (DateTime × DateTime)) : Prop :=
  ∃ r₁ r₂, resolveReportRange id now₁ custom = .ok r₁ ∧
    resolveReportRange id now₂ custom = .ok r₂ ∧
    (r₁.start ≤ r₂.start ∧ r₁.stop ≤ r₂.stop) ∧
    (r₁.start ≤ startOfDay now₁ ∧ endOfDay now₁ ≤ r₁.stop) ∧
    r₂.start ≤ startOfDay now₂ ∧ endOfDay now₂ ≤ r₂.stop

theorem endOfDay_eq (t : DateTime) : endOfDay t = (t / msPerDay + 1) * msPerDay - 1 := by
  rw [endOfDay, startOfDay_eq]
  ring

section Windows

variable (window : RollingWindow) (now : DateTime) (custom : Option (DateTime × DateTime))

theorem resolve_nextWindow : resolveReportRange (window.rangeId .next) now custom =
    .ok ⟨now / msPerDay * msPerDay,
      (window.farDay .next (now / msPerDay) + 1) * msPerDay - 1⟩ := by
  have hcode : resolveReportRange (window.rangeId .next) now custom =
      .ok ⟨startOfDay now, endOfDay (window.farEnd .next (startOfDay now))⟩ := by
    cases window <;> rfl
  rw [hcode, startOfDay_eq, window.farEnd_midnight, endOfDay_midnight]

theorem resolve_lastWindow : resolveReportRange (window.rangeId .last) now custom =
    .ok ⟨window.farDay .last (now / msPerDay) * msPerDay,
      (now / msPerDay + 1) * msPerDay - 1⟩ := by
  have hcode : resolveReportRange (window.rangeId .last) now custom =
      .ok ⟨window.farEnd .last (startOfDay now), endOfDay (startOfDay now)⟩ := by
    cases window <;> rfl
  rw [hcode, startOfDay_eq, window.farEnd_midnight, endOfDay_midnight]

/-- The windows of two instants move on with today unless the first one's end rolls over past the
second one's. -/
theorem rolling_windows_move_on_iff (window : RollingWindow) (side : WindowSide)
    (now₁ now₂ : DateTime) (h : now₁ ≤ now₂) (custom : Option (DateTime × DateTime)) :
    WindowsMoveOn (window.rangeId side) now₁ now₂ custom ↔
      ¬ window.Overtakes side (now₁ / msPerDay) (now₂ / msPerDay) := by
  have hdays : now₁ / msPerDay ≤ now₂ / msPerDay := Int.ediv_le_ediv msPerDay_pos h
  have hscale : ∀ a b : ℤ, a ≤ b ↔ a * msPerDay ≤ b * msPerDay := fun a b =>
    (mul_le_mul_iff_left₀ msPerDay_pos).symm
  rw [← window.farDay_le_iff side hdays]
  cases side with
  | next =>
    unfold WindowsMoveOn
    simp only [resolve_nextWindow, startOfDay_eq, endOfDay_eq]
    constructor
    · rintro ⟨r₁, r₂, h₁, h₂, ⟨-, hstop⟩, -⟩
      rw [← Except.ok.inj h₁, ← Except.ok.inj h₂] at hstop
      have hsucc := (hscale _ _).mpr (sub_le_sub_iff_right 1 |>.mp hstop)
      omega
    · intro hfar
      have hends : ∀ {a b : ℤ}, a ≤ b → (a + 1) * msPerDay - 1 ≤ (b + 1) * msPerDay - 1 :=
        fun hab => Int.sub_le_sub_right ((hscale _ _).mp (Int.add_le_add_right hab 1)) 1
      exact ⟨_, _, rfl, rfl, ⟨(hscale _ _).mp hdays, hends hfar⟩,
        ⟨le_rfl, hends (window.farDay_next _)⟩, le_rfl, hends (window.farDay_next _)⟩
  | last =>
    unfold WindowsMoveOn
    simp only [resolve_lastWindow, startOfDay_eq, endOfDay_eq]
    constructor
    · rintro ⟨r₁, r₂, h₁, h₂, ⟨hstart, -⟩, -⟩
      rw [← Except.ok.inj h₁, ← Except.ok.inj h₂] at hstart
      exact (hscale _ _).mpr hstart
    · intro hfar
      have hends : (now₁ / msPerDay + 1) * msPerDay - 1 ≤ (now₂ / msPerDay + 1) * msPerDay - 1 :=
        Int.sub_le_sub_right ((hscale _ _).mp (Int.add_le_add_right hdays 1)) 1
      exact ⟨_, _, rfl, rfl, ⟨(hscale _ _).mp hfar, hends⟩,
        ⟨(hscale _ _).mp (window.farDay_last _), le_rfl⟩, (hscale _ _).mp (window.farDay_last _),
        le_rfl⟩

/-- From the 29th of February to the first of March, a year on. -/
theorem rolling_windows_move_on_leapDay :
    WindowsMoveOn .nextOneYear (daysFromCivil 2024 2 29 * msPerDay)
      (daysFromCivil 2024 3 1 * msPerDay) none :=
  (rolling_windows_move_on_iff .oneYear .next (daysFromCivil 2024 2 29 * msPerDay)
    (daysFromCivil 2024 3 1 * msPerDay) (by decide) none).mpr (by decide +kernel)

/-- A month after the 31st of January is the third of March, and a month after the first of
February the first of March. -/
theorem rolling_windows_turn_back :
    ¬ WindowsMoveOn .nextOneMonth (daysFromCivil 2026 1 31 * msPerDay)
      (daysFromCivil 2026 2 1 * msPerDay) none := by
  rintro ⟨r₁, r₂, h₁, h₂, ⟨-, hstop⟩, -⟩
  rw [← Except.ok.inj h₁, ← Except.ok.inj h₂] at hstop
  exact absurd hstop (by decide +kernel)

end Windows

end NexusEfos
