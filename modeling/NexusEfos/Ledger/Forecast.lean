/-
The trend forecast: `linearTrendForecast` of `lib/generalLedger.ts`, and its use in
`routes/analytics.routes.ts`.

The points of the trend are the values at the indices from 0 on.  Two of them have different
indices, so the denominator is not zero, and the line before rounding is the one of least squares.
-/
import NexusEfos.Ledger.ReportRanges
import NexusEfos.Ledger.Reports
import NexusEfos.Library.LeastSquares

namespace NexusEfos

/-! ## The forecast -/

section Trend

variable (values : List ℚ)

/-- The indices of the values. -/
def trendIndices : List ℚ := (List.range values.length).map fun i : ℕ => (i : ℚ)

def trendSumX : ℚ := (trendIndices values).sum

def trendSumXY : ℚ := (List.zipWith (fun x v => x * v) (trendIndices values) values).sum

def trendSumXX : ℚ := ((trendIndices values).map fun x => x * x).sum

def trendDenominator : ℚ :=
  values.length * trendSumXX values - trendSumX values * trendSumX values

/-- The slope, before it is rounded. -/
def trendSlope : ℚ :=
  if trendDenominator values = 0 then 0
  else (values.length * trendSumXY values - trendSumX values * values.sum) / trendDenominator values

/-- The intercept, before it is rounded. -/
def trendIntercept : ℚ := (values.sum - trendSlope values * trendSumX values) / values.length

end Trend

structure TrendForecast where
  slope : ℚ
  intercept : ℚ
  nextValue : ℚ

def linearTrendForecast (values : List ℚ) : TrendForecast :=
  if values.length < 2 then
    { slope := 0, intercept := values.headD 0, nextValue := values.headD 0 }
  else
    { slope := round2 (trendSlope values)
      intercept := round2 (trendIntercept values)
      nextValue := round2 (trendSlope values * values.length + trendIntercept values) }

/-! ## Its use -/

structure MonthlyResult where
  periodStart : DateTime
  periodEnd : DateTime
  income : ℚ
  expense : ℚ
  netIncome : ℚ

/-- The first and the last instant of a month that has passed. -/
def monthBounds (now : DateTime) (monthsAgo : ℕ) : DateTime × DateTime :=
  (newDate (getFullYear now) (getMonth now - monthsAgo) 1,
    endOfDay (newDate (getFullYear now) (getMonth now - monthsAgo + 1) 0))

def monthlyIncomeExpense (institutionId : Id) (now : DateTime) (monthsAgo : ℕ) :
    Handler MonthlyResult := do
  let (start, stop) := monthBounds now monthsAgo
  let lines ← getPostedLinesForPeriod institutionId start stop
  let income := ((lines.filter fun l => l.account.category = .income).map fun l =>
    toNumber l.line.credit - toNumber l.line.debit).sum
  let expense := ((lines.filter fun l => l.account.category = .expense).map fun l =>
    toNumber l.line.debit - toNumber l.line.credit).sum
  return { periodStart := start, periodEnd := stop, income := round2 income,
           expense := round2 expense, netIncome := round2 (income - expense) }

/-- `Math.min(Math.max(Number(req.query.months) || 6, 2), 24)`, for a whole number of months. -/
def trendMonths (months : Option ℕ) : ℕ := min (max ((months.filter fun m => m ≠ 0).getD 6) 2) 24

/-- The results of the last months, the oldest first. -/
def monthlyResults (institutionId : Id) (now : DateTime) (months : ℕ) :
    Handler (List MonthlyResult) :=
  Proc.mapEach (List.range months).reverse (monthlyIncomeExpense institutionId now)

/-- `GET /forecast/net-income`. -/
def forecastNetIncome (auth : Auth) (now : DateTime) (months : Option ℕ) :
    Handler (List MonthlyResult × TrendForecast) := do
  let results ← monthlyResults auth.institutionId now (trendMonths months)
  let forecast := linearTrendForecast (results.map MonthlyResult.netIncome)
  let _ ← create .auditLog
    { institutionId := auth.institutionId, userId := some auth.userId,
      action := "gl_report.generated", resource := "gl_report" }
  return (results, forecast)

theorem two_le_trendMonths (months : Option ℕ) : 2 ≤ trendMonths months := by
  unfold trendMonths
  omega

/-- The endpoint forecasts from at least two months. -/
theorem run_forecastNetIncome (auth : Auth) (now : DateTime) (months : Option ℕ) (s : Db) :
    ∃ results, 2 ≤ results.length ∧ ∃ t, (forecastNetIncome auth now months).run s =
      (.ok (results, linearTrendForecast (results.map MonthlyResult.netIncome)), t) := by
  have hmonths := two_le_trendMonths months
  have hread : ∀ m, ∃ r, (monthlyIncomeExpense auth.institutionId now m).run s = (.ok r, s) :=
    fun m => ⟨_, rfl⟩
  choose result hresult using hread
  have hrun := Proc.run_mapEach_ok fun m (_ : m ∈ (List.range (trendMonths months)).reverse) =>
    hresult m
  refine ⟨((List.range (trendMonths months)).reverse).map result, ?_, ?_⟩
  · rw [List.length_map, List.length_reverse, List.length_range]
    exact hmonths
  · unfold forecastNetIncome
    rw [monthlyResults, Proc.run_bind_ok hrun]
    exact ⟨_, rfl⟩

/-! ## The line of least squares -/

/-- The points of the trend. -/
def trendPoints (values : List ℚ) : List (ℚ × ℚ) := (trendIndices values).zip values

section Points

variable (values : List ℚ)

theorem length_trendIndices : (trendIndices values).length = values.length := by
  rw [trendIndices, List.length_map, List.length_range]

theorem length_trendPoints : (trendPoints values).length = values.length := by
  rw [trendPoints, List.length_zip, length_trendIndices, min_self]

theorem map_fst_trendPoints : (trendPoints values).map Prod.fst = trendIndices values :=
  List.map_fst_zip (length_trendIndices values).le

theorem map_snd_trendPoints : (trendPoints values).map Prod.snd = values :=
  List.map_snd_zip (length_trendIndices values).ge

theorem sumX_trendPoints : LeastSquares.sumX (trendPoints values) = trendSumX values := by
  rw [LeastSquares.sumX, map_fst_trendPoints, trendSumX]

theorem sumY_trendPoints : LeastSquares.sumY (trendPoints values) = values.sum := by
  rw [LeastSquares.sumY, map_snd_trendPoints]

theorem sumXY_trendPoints : LeastSquares.sumXY (trendPoints values) = trendSumXY values := by
  rw [LeastSquares.sumXY, trendSumXY, trendPoints, List.zip, List.map_zipWith]

theorem sumXX_trendPoints : LeastSquares.sumXX (trendPoints values) = trendSumXX values := by
  rw [LeastSquares.sumXX, trendSumXX, ← map_fst_trendPoints, List.map_map]
  rfl

theorem denominator_trendPoints :
    LeastSquares.denominator (trendPoints values) = trendDenominator values := by
  rw [LeastSquares.denominator, trendDenominator, length_trendPoints, sumXX_trendPoints,
    sumX_trendPoints]

end Points

theorem two_mul_sum_range (n : ℕ) :
    2 * ((List.range n).map fun i : ℕ => (i : ℚ)).sum = n * (n - 1) := by
  induction n with
  | zero => simp
  | succ n ih =>
    rw [List.range_succ, List.map_append, List.sum_append, mul_add, ih]
    simp
    ring

theorem six_mul_sum_range_sq (n : ℕ) :
    6 * (((List.range n).map fun i : ℕ => (i : ℚ)).map fun x => x * x).sum =
      n * (n - 1) * (2 * n - 1) := by
  induction n with
  | zero => simp
  | succ n ih =>
    rw [List.range_succ, List.map_append, List.map_append, List.sum_append, mul_add, ih]
    simp
    ring

theorem twelve_mul_trendDenominator (values : List ℚ) :
    12 * trendDenominator values = (values.length : ℚ) ^ 2 * ((values.length : ℚ) ^ 2 - 1) := by
  have hx : 2 * trendSumX values = _ := two_mul_sum_range values.length
  have hxx : 6 * trendSumXX values = _ := six_mul_sum_range_sq values.length
  unfold trendDenominator
  linear_combination 2 * (values.length : ℚ) * hxx -
    3 * (2 * trendSumX values + values.length * (values.length - 1)) * hx

theorem trendDenominator_pos {values : List ℚ} (h : 2 ≤ values.length) :
    0 < trendDenominator values := by
  have hlength : (2 : ℚ) ≤ values.length := by exact_mod_cast h
  have hclosed := twelve_mul_trendDenominator values
  have hsq : (4 : ℚ) ≤ (values.length : ℚ) ^ 2 := by nlinarith only [hlength]
  nlinarith only [hclosed, hsq]

/-- The unrounded line of the forecast is the one of least squares. -/
theorem trend_eq {values : List ℚ} (h : 2 ≤ values.length) :
    trendSlope values = LeastSquares.slope (trendPoints values) ∧
      trendIntercept values = LeastSquares.intercept (trendPoints values) := by
  have hslope : trendSlope values = LeastSquares.slope (trendPoints values) := by
    rw [trendSlope, if_neg (trendDenominator_pos h).ne', LeastSquares.slope,
      denominator_trendPoints, length_trendPoints, sumXY_trendPoints, sumX_trendPoints,
      sumY_trendPoints]
  constructor
  · exact hslope
  · rw [trendIntercept, LeastSquares.intercept, hslope, sumY_trendPoints, sumX_trendPoints,
      length_trendPoints]

theorem isFit_trendPoints {values : List ℚ} (h : 2 ≤ values.length) :
    LeastSquares.IsFit (trendPoints values) (trendSlope values) (trendIntercept values) := by
  have hlength : ((trendPoints values).length : ℚ) ≠ 0 := by
    rw [length_trendPoints, Nat.cast_ne_zero]
    omega
  have hdenominator : LeastSquares.denominator (trendPoints values) ≠ 0 := by
    rw [denominator_trendPoints]
    exact (trendDenominator_pos h).ne'
  rw [(trend_eq h).1, (trend_eq h).2]
  exact LeastSquares.isFit_slope_intercept hlength hdenominator

/-! ## Arithmetic progressions -/

/-- The values are the terms of an arithmetic progression. -/
def IsProgression (values : List ℚ) (first step : ℚ) : Prop :=
  ∀ i < values.length, values[i]? = some (first + i * step)

/-- The points of a progression are on a line. -/
theorem trendPoints_of_isProgression {values : List ℚ} {first step : ℚ}
    (h : IsProgression values first step) :
    ∀ p ∈ trendPoints values, p.2 = first + step * p.1 := by
  intro p hp
  obtain ⟨i, hi⟩ := List.mem_iff_getElem?.mp hp
  rw [trendPoints, List.getElem?_zip_eq_some, trendIndices, List.getElem?_map] at hi
  obtain ⟨hx, hv⟩ := hi
  have hlength : i < values.length := (List.getElem?_eq_some_iff.mp hv).1
  rw [List.getElem?_range hlength, Option.map_some] at hx
  have hterm := h i hlength
  rw [hv] at hterm
  rw [Option.some.inj hterm, ← Option.some.inj hx, mul_comm]

theorem trend_of_isProgression {values : List ℚ} {first step : ℚ} (hlength : 2 ≤ values.length)
    (h : IsProgression values first step) :
    trendSlope values = step ∧ trendIntercept values = first := by
  have hfit := LeastSquares.isFit_of_forall (trendPoints_of_isProgression h)
  rw [(trend_eq hlength).1, (trend_eq hlength).2]
  apply hfit.unique
  · rw [length_trendPoints, Nat.cast_ne_zero]
    omega
  · rw [denominator_trendPoints]
    exact (trendDenominator_pos hlength).ne'

/-- With two terms of whole cents, all terms are of whole cents. -/
theorem wholeCent_of_isProgression {values : List ℚ} {first step : ℚ}
    (hlength : 2 ≤ values.length) (h : IsProgression values first step)
    (hwhole : ∀ v ∈ values, WholeCent v) (n : ℕ) : WholeCent (first + n * step) := by
  have hterm : ∀ i < values.length, WholeCent (first + i * step) :=
    fun i hi => hwhole _ (List.mem_of_getElem? (h i hi))
  have hfirst : WholeCent first := by
    have h₀ := hterm 0 (by omega)
    simpa using h₀
  have hstep : WholeCent step := by
    have h₁ := (hterm 1 (by omega)).sub hfirst
    simpa using h₁
  induction n with
  | zero => simpa using hfirst
  | succ n ih =>
    have hnext := ih.add hstep
    have heq : first + n * step + step = first + ((n + 1 : ℕ) : ℚ) * step := by
      push_cast
      ring
    rw [heq] at hnext
    exact hnext

theorem nextValue_of_isProgression {values : List ℚ} {first step : ℚ}
    (hlength : 2 ≤ values.length) (h : IsProgression values first step)
    (hwhole : ∀ v ∈ values, WholeCent v) :
    (linearTrendForecast values).nextValue = first + values.length * step := by
  have htrend := trend_of_isProgression hlength h
  have hnext := wholeCent_of_isProgression hlength h hwhole values.length
  unfold linearTrendForecast
  rw [if_neg (by omega)]
  show round2 (trendSlope values * values.length + trendIntercept values) = _
  rw [htrend.1, htrend.2, mul_comm, add_comm]
  exact hnext.round2_eq

/-- Two values or more have a trend without a division by zero, its line before rounding has the
least squared error, and a progression of whole cents is continued with its next term. -/
theorem linearTrendForecast_least_squares {values : List ℚ} (hlength : 2 ≤ values.length) :
    trendDenominator values ≠ 0 ∧ (values.length : ℚ) ≠ 0 ∧
    (∀ slope intercept, LeastSquares.squaredError (trendPoints values) (trendSlope values)
        (trendIntercept values) ≤
      LeastSquares.squaredError (trendPoints values) slope intercept) ∧
    ∀ first step, IsProgression values first step → (∀ v ∈ values, WholeCent v) →
      (linearTrendForecast values).nextValue = first + values.length * step := by
  have hpos : (values.length : ℚ) ≠ 0 := by
    rw [Nat.cast_ne_zero]
    omega
  exact ⟨(trendDenominator_pos hlength).ne', hpos, (isFit_trendPoints hlength).le,
    fun _ _ h hwhole => nextValue_of_isProgression hlength h hwhole⟩

/-- The term that follows 100, 130 and 160. -/
theorem linearTrendForecast_least_squares_progression :
    (linearTrendForecast [100, 130, 160]).nextValue = 190 := by
  have hterms : IsProgression [100, 130, 160] 100 30 := by
    unfold IsProgression
    decide +kernel
  have hwhole : ∀ v ∈ ([100, 130, 160] : List ℚ), WholeCent v := by
    rw [List.forall_mem_cons, List.forall_mem_cons, List.forall_mem_singleton]
    exact ⟨⟨10000, by norm_num [toNumber]⟩, ⟨13000, by norm_num [toNumber]⟩,
      ⟨16000, by norm_num [toNumber]⟩⟩
  have hnext := (linearTrendForecast_least_squares (by decide)).2.2.2 100 30 hterms hwhole
  norm_num at hnext
  exact hnext

end NexusEfos
