/-
The months of the calendar.

Months are counted from January of the year 0.  `firstOfMonth` is the day on which a month begins,
every day lies in the one month whose first day is not after it and whose successor's is
(`monthOf_eq_iff`), and the months have the lengths that one learns at school (`firstOfMonth_succ`).
-/
import NexusEfos.Dates
import Mathlib.Data.Int.ConditionallyCompleteOrder
import Mathlib.Order.SuccPred.IntervalSucc
import Mathlib.Tactic.IntervalCases
import Mathlib.Tactic.Linarith

namespace NexusEfos

/-! ## Years

An era has 400 years and 146097 days.  It is made up of centuries of 36524 days and they of four
years each, 1461 days, of which a century lacks one day unless it is the last of the era. -/

/-- The days of the years before a year that begins in March. -/
def daysBeforeYear (y : ℤ) : ℤ := 365 * y + y / 4 - y / 100 + y / 400

theorem daysBeforeYear_cycles {century quad year : ℤ} (hc : 0 ≤ century ∧ century ≤ 3)
    (hq : 0 ≤ quad ∧ quad ≤ 24) (hy : 0 ≤ year ∧ year ≤ 3) :
    daysBeforeYear (100 * century + 4 * quad + year) =
      36524 * century + 1461 * quad + 365 * year := by
  have hfour : (100 * century + 4 * quad + year) / 4 = 25 * century + quad := by omega
  have hhundred : (100 * century + 4 * quad + year) / 100 = century := by omega
  have hera : (100 * century + 4 * quad + year) / 400 = 0 := by omega
  unfold daysBeforeYear
  rw [hfour, hhundred, hera]
  ring

/-- A day of an era lies in a century of it, in four years of that, and in one of these. -/
theorem exists_cycles {day : ℤ} (h0 : 0 ≤ day) (h1 : day < 146097) :
    ∃ century quad year rest : ℤ, day = 36524 * century + 1461 * quad + rest ∧
      (0 ≤ century ∧ century ≤ 3) ∧ (0 ≤ quad ∧ quad ≤ 24) ∧ (0 ≤ year ∧ year ≤ 3) ∧
      365 * year ≤ rest ∧ rest ≤ 1460 ∧ (year < 3 → rest < 365 * (year + 1)) ∧
      (rest = 1460 → quad = 24 → century = 3) := by
  obtain ⟨century, r, hc, hr, hday, hlast⟩ : ∃ century r : ℤ, (0 ≤ century ∧ century ≤ 3) ∧
      (0 ≤ r ∧ r ≤ 36524) ∧ day = 36524 * century + r ∧ (r = 36524 → century = 3) :=
    ⟨min (day / 36524) 3, day - 36524 * min (day / 36524) 3, by omega, by omega, by omega, by omega⟩
  obtain ⟨quad, rest, hr', hrest, hquad⟩ : ∃ quad rest : ℤ, r = 1461 * quad + rest ∧
      (0 ≤ rest ∧ rest ≤ 1460) ∧ (0 ≤ quad ∧ quad ≤ 24) :=
    ⟨r / 1461, r % 1461, by omega, by omega, by omega⟩
  obtain ⟨year, hyear, hle, hlt⟩ : ∃ year : ℤ, (0 ≤ year ∧ year ≤ 3) ∧ 365 * year ≤ rest ∧
      (year < 3 → rest < 365 * (year + 1)) :=
    ⟨min (rest / 365) 3, by omega, by omega, by omega⟩
  refine ⟨century, quad, year, rest, by omega, hc, hquad, hyear, hle, hrest.2, hlt, ?_⟩
  intro hend hq
  apply hlast
  omega

/-- The year of a day of an era, as `civilFromDays` reckons it. -/
def yearOfEra (dayOfEra : ℤ) : ℤ :=
  (dayOfEra - dayOfEra / 1460 + dayOfEra / 36524 - dayOfEra / 146096) / 365

theorem yearOfEra_cycles {century quad year rest : ℤ} (hc : 0 ≤ century ∧ century ≤ 3)
    (hq : 0 ≤ quad ∧ quad ≤ 24) (hy : 0 ≤ year ∧ year ≤ 3) (hle : 365 * year ≤ rest)
    (hrest : rest ≤ 1460) (hlt : year < 3 → rest < 365 * (year + 1))
    (hleap : rest = 1460 → quad = 24 → century = 3) :
    yearOfEra (36524 * century + 1461 * quad + rest) = 100 * century + 4 * quad + year := by
  obtain ⟨day, hday⟩ : ∃ day, day = 36524 * century + 1461 * quad + rest := ⟨_, rfl⟩
  rw [← hday]
  unfold yearOfEra
  -- Dividing by 1460 instead of 1461 carries one near the end of the four years.
  obtain ⟨carry, hcarry, hsmall, hbig, h1460⟩ : ∃ carry : ℤ, (0 ≤ carry ∧ carry ≤ 1) ∧
      (carry = 1 → 1095 ≤ rest - 1) ∧ (rest = 1460 → carry = 1) ∧
        day / 1460 = 25 * century + quad + carry := by
    rcases (show 24 * century + quad + rest < 1460 ∨ 1460 ≤ 24 * century + quad + rest by omega)
      with h | h
    · exact ⟨0, by omega, by omega, by omega, by omega⟩
    · exact ⟨1, by omega, by omega, by omega, by omega⟩
  rcases (show day < 146096 ∨ day = 146096 by omega) with h | h
  · have h36524 : day / 36524 = century := by omega
    have h146096 : day / 146096 = 0 := by omega
    rw [h1460, h36524, h146096]
    omega
  · have h1460' : day / 1460 = 100 := by omega
    have h36524 : day / 36524 = 4 := by omega
    have h146096 : day / 146096 = 1 := by omega
    rw [h1460', h36524, h146096]
    omega

/-- It is the year in which the day lies. -/
theorem yearOfEra_spec {day : ℤ} (h0 : 0 ≤ day) (h1 : day < 146097) :
    (0 ≤ yearOfEra day ∧ yearOfEra day < 400) ∧ daysBeforeYear (yearOfEra day) ≤ day ∧
      day < daysBeforeYear (yearOfEra day + 1) := by
  obtain ⟨century, quad, year, rest, rfl, hc, hq, hy, hle, hrest, hlt, hleap⟩ :=
    exists_cycles h0 h1
  rw [yearOfEra_cycles hc hq hy hle hrest hlt hleap]
  refine ⟨by omega, ?_, ?_⟩
  · rw [daysBeforeYear_cycles hc hq hy]
    linarith
  · rcases lt_or_eq_of_le hy.2 with h | h
    · have hnext : 100 * century + 4 * quad + year + 1 =
          100 * century + 4 * quad + (year + 1) := by ring
      have hrest' := hlt h
      rw [hnext, daysBeforeYear_cycles hc hq ⟨by linarith [hy.1], by omega⟩]
      linarith
    · rcases lt_or_eq_of_le hq.2 with h' | h'
      · have hnext : 100 * century + 4 * quad + year + 1 =
            100 * century + 4 * (quad + 1) + 0 := by
          rw [h]
          ring
        rw [hnext, daysBeforeYear_cycles hc ⟨by linarith [hq.1], by omega⟩ (by decide)]
        linarith
      · rcases lt_or_eq_of_le hc.2 with h'' | h''
        · have hnext : 100 * century + 4 * quad + year + 1 =
              100 * (century + 1) + 4 * 0 + 0 := by
            rw [h, h']
            ring
          have hshort : rest ≠ 1460 := fun h => h''.ne (hleap h h')
          have hrest' : rest < 1460 := lt_of_le_of_ne hrest hshort
          rw [hnext, daysBeforeYear_cycles ⟨by linarith [hc.1], by omega⟩ (by decide) (by decide), h']
          linarith
        · have hend : daysBeforeYear (100 * 3 + 4 * 24 + 3 + 1) = 146097 := by decide
          rw [h, h', h'', hend]
          linarith

theorem daysBeforeYear_add_era (y era : ℤ) :
    daysBeforeYear (y + era * 400) = daysBeforeYear y + era * 146097 := by
  have hfour : (y + era * 400) / 4 = y / 4 + 100 * era := by omega
  have hhundred : (y + era * 400) / 100 = y / 100 + 4 * era := by omega
  have hera : (y + era * 400) / 400 = y / 400 + era := by omega
  unfold daysBeforeYear
  rw [hfour, hhundred, hera]
  ring

/-! ## Months -/

/-- The days before a month of a year that begins in March. -/
def daysBeforeMonth (month : ℤ) : ℤ := (153 * month + 2) / 5

/-- The day on which a month begins. -/
def firstOfMonth (k : ℤ) : ℤ := daysFromCivil (k / 12) (k % 12 + 1) 1

theorem firstOfMonth_eq (k : ℤ) :
    firstOfMonth k = daysBeforeYear ((k - 2) / 12) + daysBeforeMonth ((k - 2) % 12) - 719468 := by
  have hyear : (if k % 12 + 1 ≤ 2 then k / 12 - 1 else k / 12) = (k - 2) / 12 := by
    split <;> omega
  have hmonth : (if 2 < k % 12 + 1 then k % 12 + 1 - 3 else k % 12 + 1 + 9) = (k - 2) % 12 := by
    split <;> omega
  unfold firstOfMonth daysFromCivil
  dsimp only
  rw [hyear, hmonth]
  have hera := daysBeforeYear_add_era ((k - 2) / 12 % 400) ((k - 2) / 12 / 400)
  have hsplit : (k - 2) / 12 % 400 + (k - 2) / 12 / 400 * 400 = (k - 2) / 12 := by omega
  have hyears : (k - 2) / 12 - (k - 2) / 12 / 400 * 400 = (k - 2) / 12 % 400 := by omega
  rw [hsplit] at hera
  have hwithin : daysBeforeYear ((k - 2) / 12 % 400) = 365 * ((k - 2) / 12 % 400) +
      (k - 2) / 12 % 400 / 4 - (k - 2) / 12 % 400 / 100 := by
    unfold daysBeforeYear
    omega
  rw [hera, hyears, hwithin]
  unfold daysBeforeMonth
  ring

/-- The number of days of a month. -/
def monthLength (year month : ℤ) : ℤ :=
  if month = 2 then
    if year % 4 = 0 ∧ (year % 100 ≠ 0 ∨ year % 400 = 0) then 29 else 28
  else if month = 4 ∨ month = 6 ∨ month = 9 ∨ month = 11 then 30
  else 31

/-- A year that begins in March is as long as the February in which it ends makes it. -/
theorem daysBeforeYear_succ (y : ℤ) :
    daysBeforeYear (y + 1) = daysBeforeYear y + 337 + monthLength (y + 1) 2 := by
  unfold daysBeforeYear monthLength
  rw [if_pos rfl]
  split <;> omega

/-- A month is followed by the next one. -/
theorem firstOfMonth_succ (k : ℤ) :
    firstOfMonth (k + 1) = firstOfMonth k + monthLength (k / 12) (k % 12 + 1) := by
  rw [firstOfMonth_eq, firstOfMonth_eq]
  obtain ⟨y, month, hk, hmonth⟩ : ∃ y month, k - 2 = 12 * y + month ∧ 0 ≤ month ∧ month ≤ 11 :=
    ⟨(k - 2) / 12, (k - 2) % 12, by omega, by omega, by omega⟩
  have hyear : (k - 2) / 12 = y := by omega
  have hmonth' : (k - 2) % 12 = month := by omega
  rw [hyear, hmonth']
  rcases (show month < 11 ∨ month = 11 by omega) with h | rfl
  · have hyear : (k + 1 - 2) / 12 = y := by omega
    have hmonth' : (k + 1 - 2) % 12 = month + 1 := by omega
    have hlength : daysBeforeMonth (month + 1) =
        daysBeforeMonth month + monthLength (k / 12) (k % 12 + 1) := by
      have hnumber : k % 12 + 1 = (month + 2) % 12 + 1 := by omega
      have hlow := hmonth.1
      rw [hnumber]
      clear hk hyear hmonth' hnumber hmonth
      interval_cases month <;> rfl
    rw [hyear, hmonth', hlength]
    ring
  · have hyear : (k + 1 - 2) / 12 = y + 1 := by omega
    have hmonth' : (k + 1 - 2) % 12 = 0 := by omega
    have hlast : k / 12 = y + 1 := by omega
    have hfebruary : k % 12 + 1 = 2 := by omega
    have hzero : daysBeforeMonth 0 = 0 := by decide
    have heleven : daysBeforeMonth 11 = 337 := by decide
    rw [hyear, hmonth', hlast, hfebruary, daysBeforeYear_succ, hzero, heleven]
    ring

theorem monthLength_pos (year month : ℤ) : 28 ≤ monthLength year month := by
  unfold monthLength
  split
  · split <;> decide
  · split <;> decide

theorem firstOfMonth_strictMono : StrictMono firstOfMonth := by
  apply strictMono_int_of_lt_succ
  intro k
  have hlength := monthLength_pos (k / 12) (k % 12 + 1)
  rw [firstOfMonth_succ]
  omega

/-! ## The month of a day -/

/-- The month in which a day lies. -/
def monthOf (days : ℤ) : ℤ := 12 * (civilFromDays days).1 + ((civilFromDays days).2.1 - 1)

/-- The day of the month. -/
def dayOfMonth (days : ℤ) : ℤ := (civilFromDays days).2.2

/-- The month and the day of the month, by the day of the year that begins in March. -/
theorem civilFromDays_march (days : ℤ) :
    ∃ year dayOfYear : ℤ, days = daysBeforeYear year + dayOfYear - 719468 ∧ 0 ≤ dayOfYear ∧
      dayOfYear < 337 + monthLength (year + 1) 2 ∧
      monthOf days = 12 * year + (5 * dayOfYear + 2) / 153 + 2 ∧
      dayOfMonth days = dayOfYear - daysBeforeMonth ((5 * dayOfYear + 2) / 153) + 1 := by
  obtain ⟨era, dayOfEra, hera, hdayOfEra, hday, h0, h1⟩ : ∃ era dayOfEra : ℤ,
      era = (days + 719468) / 146097 ∧ dayOfEra = days + 719468 - era * 146097 ∧
      days + 719468 = dayOfEra + era * 146097 ∧ 0 ≤ dayOfEra ∧ dayOfEra < 146097 :=
    ⟨_, _, rfl, rfl, by omega, by omega, by omega⟩
  obtain ⟨hyear, hstart, hend⟩ := yearOfEra_spec h0 h1
  obtain ⟨dayOfYear, hdayOfYear⟩ : ∃ dayOfYear,
      dayOfYear = dayOfEra - daysBeforeYear (yearOfEra dayOfEra) := ⟨_, rfl⟩
  have hwithin : dayOfEra - (365 * yearOfEra dayOfEra + yearOfEra dayOfEra / 4 -
      yearOfEra dayOfEra / 100) = dayOfYear := by
    have hnone : yearOfEra dayOfEra / 400 = 0 := by omega
    rw [hdayOfYear]
    unfold daysBeforeYear
    rw [hnone, add_zero]
  have hcivil : civilFromDays days =
      (if (if (5 * dayOfYear + 2) / 153 < 10 then (5 * dayOfYear + 2) / 153 + 3
          else (5 * dayOfYear + 2) / 153 - 9) ≤ 2 then yearOfEra dayOfEra + era * 400 + 1
        else yearOfEra dayOfEra + era * 400,
        if (5 * dayOfYear + 2) / 153 < 10 then (5 * dayOfYear + 2) / 153 + 3
          else (5 * dayOfYear + 2) / 153 - 9,
        dayOfYear - daysBeforeMonth ((5 * dayOfYear + 2) / 153) + 1) := by
    rw [← hwithin, hdayOfEra, hera]
    rfl
  have hlength : dayOfYear < 337 + monthLength (yearOfEra dayOfEra + era * 400 + 1) 2 := by
    have hnext : yearOfEra dayOfEra + era * 400 + 1 = yearOfEra dayOfEra + 1 + era * 400 := by ring
    have hshift := daysBeforeYear_succ (yearOfEra dayOfEra + era * 400)
    rw [hnext, daysBeforeYear_add_era, daysBeforeYear_add_era] at hshift
    rw [hnext]
    linarith
  refine ⟨yearOfEra dayOfEra + era * 400, dayOfYear, ?_, by linarith, hlength, ?_, ?_⟩
  · rw [daysBeforeYear_add_era]
    linarith
  · have hshort : monthLength (yearOfEra dayOfEra + era * 400 + 1) 2 ≤ 29 := by
      unfold monthLength
      rw [if_pos rfl]
      split <;> decide
    unfold monthOf
    rw [hcivil]
    dsimp only
    have hpos : 0 ≤ dayOfYear := by linarith
    generalize yearOfEra dayOfEra + era * 400 = year at hlength hshort ⊢
    clear hcivil hwithin hdayOfYear hera hdayOfEra hstart hend hyear hday
    split <;> split <;> omega
  · unfold dayOfMonth
    rw [hcivil]

/-- A day lies in its month. -/
theorem monthOf_spec (days : ℤ) :
    firstOfMonth (monthOf days) + (dayOfMonth days - 1) = days ∧ 1 ≤ dayOfMonth days ∧
      days < firstOfMonth (monthOf days + 1) := by
  obtain ⟨year, dayOfYear, hdays, h0, h1, hmonth, hday⟩ := civilFromDays_march days
  obtain ⟨month, hshifted⟩ : ∃ month, month = (5 * dayOfYear + 2) / 153 := ⟨_, rfl⟩
  rw [← hshifted] at hmonth hday
  have hshort : monthLength (year + 1) 2 ≤ 29 := by
    unfold monthLength
    rw [if_pos rfl]
    split <;> decide
  have hrange : 0 ≤ month ∧ month ≤ 11 := by omega
  have hyear : (12 * year + month + 2 - 2) / 12 = year := by omega
  have hmonth' : (12 * year + month + 2 - 2) % 12 = month := by omega
  have hfirst : firstOfMonth (monthOf days) =
      daysBeforeYear year + daysBeforeMonth month - 719468 := by
    rw [hmonth, firstOfMonth_eq, hyear, hmonth']
  have hbefore : daysBeforeMonth month ≤ dayOfYear := by
    unfold daysBeforeMonth
    omega
  refine ⟨by linarith, by linarith, ?_⟩
  rcases lt_or_eq_of_le hrange.2 with h | h
  · have hyear : (12 * year + month + 2 + 1 - 2) / 12 = year := by omega
    have hmonth' : (12 * year + month + 2 + 1 - 2) % 12 = month + 1 := by omega
    have hafter : dayOfYear < daysBeforeMonth (month + 1) := by
      unfold daysBeforeMonth
      omega
    rw [hmonth, firstOfMonth_eq, hyear, hmonth']
    linarith
  · have hyear : (12 * year + month + 2 + 1 - 2) / 12 = year + 1 := by omega
    have hmonth' : (12 * year + month + 2 + 1 - 2) % 12 = 0 := by omega
    have hzero : daysBeforeMonth 0 = 0 := by decide
    rw [hmonth, firstOfMonth_eq, hyear, hmonth', daysBeforeYear_succ, hzero]
    linarith

theorem monthOf_eq_iff {days k : ℤ} :
    monthOf days = k ↔ firstOfMonth k ≤ days ∧ days < firstOfMonth (k + 1) := by
  obtain ⟨hfirst, hday, hnext⟩ := monthOf_spec days
  constructor
  · rintro rfl
    exact ⟨by linarith, hnext⟩
  · rintro ⟨hle, hlt⟩
    have h := firstOfMonth_strictMono.lt_iff_lt.mp (show firstOfMonth (monthOf days) <
      firstOfMonth (k + 1) by linarith)
    have h' := firstOfMonth_strictMono.lt_iff_lt.mp (show firstOfMonth k <
      firstOfMonth (monthOf days + 1) by linarith)
    omega

/-! ## Months on -/

theorem msPerDay_pos : 0 < msPerDay := by decide

theorem addMonths_eq (t n : ℤ) :
    addMonths t n =
      (firstOfMonth (monthOf (t / msPerDay) + n) + (dayOfMonth (t / msPerDay) - 1)) * msPerDay +
        t % msPerDay := by
  unfold addMonths firstOfMonth monthOf dayOfMonth
  obtain ⟨year, month, day⟩ := civilFromDays (t / msPerDay)
  have hyear : (12 * year + (month - 1) + n) / 12 = year + (month - 1 + n) / 12 := by omega
  have hmonth : (12 * year + (month - 1) + n) % 12 = (month - 1 + n) % 12 := by omega
  dsimp only
  rw [hyear, hmonth]

theorem addMonths_strictMono (t : DateTime) : StrictMono (addMonths t) := by
  intro m n h
  have hfirst := firstOfMonth_strictMono (show monthOf (t / msPerDay) + m <
    monthOf (t / msPerDay) + n by omega)
  have hlater := mul_lt_mul_of_pos_right hfirst msPerDay_pos
  rw [addMonths_eq, addMonths_eq, add_mul, add_mul]
  linarith

/-- So many months on is the same day of another month, if that has it. -/
theorem monthOf_addMonths_iff (t n : ℤ) :
    monthOf (addMonths t n / msPerDay) = monthOf (t / msPerDay) + n ↔
      dayOfMonth (t / msPerDay) ≤
        monthLength ((monthOf (t / msPerDay) + n) / 12) ((monthOf (t / msPerDay) + n) % 12 + 1) := by
  have hdays : addMonths t n / msPerDay =
      firstOfMonth (monthOf (t / msPerDay) + n) + (dayOfMonth (t / msPerDay) - 1) := by
    rw [addMonths_eq, add_comm, Int.add_mul_ediv_right _ _ msPerDay_pos.ne',
      Int.ediv_eq_zero_of_lt (Int.emod_nonneg _ msPerDay_pos.ne') (Int.emod_lt_of_pos _ msPerDay_pos),
      zero_add]
  have hday := (monthOf_spec (t / msPerDay)).2.1
  rw [monthOf_eq_iff, hdays, firstOfMonth_succ]
  constructor
  · rintro ⟨-, h⟩
    linarith
  · intro h
    exact ⟨by linarith, by linarith⟩

/-- The months of a year are numbered from 1 to 12. -/
theorem civilMonth_bounds (days : ℤ) :
    1 ≤ (civilFromDays days).2.1 ∧ (civilFromDays days).2.1 ≤ 12 := by
  obtain ⟨era, dayOfEra, hera, hdayOfEra, h0, h1⟩ : ∃ era dayOfEra : ℤ,
      era = (days + 719468) / 146097 ∧ dayOfEra = days + 719468 - era * 146097 ∧
      0 ≤ dayOfEra ∧ dayOfEra < 146097 := ⟨_, _, rfl, rfl, by omega, by omega⟩
  obtain ⟨hyear, hstart, hend⟩ := yearOfEra_spec h0 h1
  obtain ⟨dayOfYear, hdayOfYear⟩ : ∃ dayOfYear,
      dayOfYear = dayOfEra - daysBeforeYear (yearOfEra dayOfEra) := ⟨_, rfl⟩
  have hlength : monthLength (yearOfEra dayOfEra + 1) 2 ≤ 29 := by
    unfold monthLength
    rw [if_pos rfl]
    split <;> decide
  rw [daysBeforeYear_succ] at hend
  have hwithin : dayOfEra - (365 * yearOfEra dayOfEra + yearOfEra dayOfEra / 4 -
      yearOfEra dayOfEra / 100) = dayOfYear := by
    have hnone : yearOfEra dayOfEra / 400 = 0 := by omega
    rw [hdayOfYear]
    unfold daysBeforeYear
    rw [hnone, add_zero]
  have hmonth : (civilFromDays days).2.1 = if (5 * dayOfYear + 2) / 153 < 10 then
      (5 * dayOfYear + 2) / 153 + 3 else (5 * dayOfYear + 2) / 153 - 9 := by
    rw [← hwithin, hdayOfEra, hera]
    rfl
  have hfirst : 0 ≤ dayOfYear := by linarith
  have hlast : dayOfYear ≤ 365 := by linarith
  rw [hmonth]
  split <;> omega

theorem monthOf_div_twelve (days : ℤ) : monthOf days / 12 = (civilFromDays days).1 := by
  have hmonth := civilMonth_bounds days
  unfold monthOf
  omega

theorem monthOf_mod_twelve (days : ℤ) : monthOf days % 12 = (civilFromDays days).2.1 - 1 := by
  have hmonth := civilMonth_bounds days
  unfold monthOf
  omega

/-- The first of a month. -/
theorem monthOf_firstOfMonth (k : ℤ) : monthOf (firstOfMonth k) = k :=
  monthOf_eq_iff.mpr ⟨le_rfl, firstOfMonth_strictMono (lt_add_one k)⟩

theorem dayOfMonth_firstOfMonth (k : ℤ) : dayOfMonth (firstOfMonth k) = 1 := by
  have hspec := (monthOf_spec (firstOfMonth k)).1
  rw [monthOf_firstOfMonth] at hspec
  omega

theorem firstOfMonth_mul_div (k : ℤ) : firstOfMonth k * msPerDay / msPerDay = firstOfMonth k :=
  Int.mul_ediv_cancel _ msPerDay_pos.ne'

theorem addMonths_firstOfMonth (k n : ℤ) :
    addMonths (firstOfMonth k * msPerDay) n = firstOfMonth (k + n) * msPerDay := by
  rw [addMonths_eq, firstOfMonth_mul_div, monthOf_firstOfMonth, dayOfMonth_firstOfMonth,
    Int.mul_emod_left]
  ring

/-! ## The next execution -/

theorem addMonths_zero (t : DateTime) : addMonths t 0 = t := by
  rw [addMonths_eq, add_zero, (monthOf_spec _).1, Int.ediv_mul_add_emod]

/-- Months on is at least a day on. -/
theorem add_day_le_addMonths (t : DateTime) {n : ℤ} (hn : 0 < n) :
    t + msPerDay ≤ addMonths t n := by
  have hself := addMonths_zero t
  rw [addMonths_eq, add_zero] at hself
  have hfirst := firstOfMonth_strictMono (show monthOf (t / msPerDay) <
    monthOf (t / msPerDay) + n by omega)
  have hlater := mul_le_mul_of_nonneg_right (Int.add_one_le_iff.mpr hfirst) msPerDay_pos.le
  rw [addMonths_eq]
  linarith

/-- An item comes due again a day later at the earliest. -/
theorem add_day_le_nextExecutionDate (start : DateTime) (frequency : StandingInstructionFrequency)
    (customIntervalDays : Option ℤ) :
    start + msPerDay ≤ nextExecutionDate start frequency customIntervalDays := by
  have hdays : ∀ n : ℤ, 0 < n → start + msPerDay ≤ addDays start n := by
    intro n hn
    have hlater := mul_le_mul_of_nonneg_right (Int.add_one_le_iff.mpr hn) msPerDay_pos.le
    unfold addDays
    linarith
  unfold nextExecutionDate
  cases frequency with
  | daily => exact hdays 1 (by decide)
  | weekly => exact hdays 7 (by decide)
  | fortnightly => exact hdays 14 (by decide)
  | monthly => exact add_day_le_addMonths start (by decide)
  | quarterly => exact add_day_le_addMonths start (by decide)
  | halfYearly => exact add_day_le_addMonths start (by decide)
  | annually => exact add_day_le_addMonths start (by decide)
  | custom =>
    cases customIntervalDays with
    | none => exact hdays 1 (by decide)
    | some days =>
      by_cases hpos : 0 < days
      · simpa only [if_pos hpos] using hdays days hpos
      · simpa only [if_neg hpos] using hdays 1 (by decide)

end NexusEfos
