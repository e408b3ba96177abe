/-
Payroll before its approval: `lib/payrollCalc.ts`, and the endpoints of
`routes/payroll.routes.ts` for calendars, periods, rates, salary structures and processing.
-/
import NexusEfos.Approvals.Requests

namespace NexusEfos

/-! ## Calculation -/

structure TaxBandInput where
  lowerBound : ℚ
  upperBound : Option ℚ
  rate : ℚ

/-- The tax within one band. -/
def TaxBandInput.tax (band : TaxBandInput) (chargeableIncome : ℚ) : ℚ :=
  if chargeableIncome ≤ band.lowerBound then 0
  else
    let upper := match band.upperBound with
      | none => chargeableIncome
      | some bound => min chargeableIncome bound
    max 0 (upper - band.lowerBound) * (band.rate / 100)

def calculatePAYE (chargeableIncome : ℚ) (bands : List TaxBandInput) : ℚ :=
  if chargeableIncome ≤ 0 then 0
  else round2 (bands.map fun band => band.tax chargeableIncome).sum

def calculateStatutoryContribution (basicSalary rate : ℚ) (ceiling minimum : Option ℚ) : ℚ :=
  let base := match minimum with
    | some bound => if basicSalary < bound then bound else basicSalary
    | none => basicSalary
  let base := match ceiling with
    | some bound => if bound < base then bound else base
    | none => base
  round2 (base * (rate / 100))

/-- A `Decimal` in a text: without the zeros at its end. -/
def decimalText (c : Cents) : String :=
  let cents := c.natAbs % 100
  (if c < 0 then "-" else "") ++ toString (c.natAbs / 100) ++
    if cents = 0 then ""
    else if cents % 10 = 0 then "." ++ toString (cents / 10)
    else (if cents < 10 then ".0" else ".") ++ toString cents

/-! ## Calendars and periods -/

/-- `POST /calendars`. -/
def createPayrollCalendar (auth : Auth) (name : String) (frequency : PayFrequency)
    (payDayOfMonth : Option ℕ) : Handler Id := do
  Proc.require (name ≠ "" ∧ ∀ day, payDayOfMonth = some day → 1 ≤ day ∧ day ≤ 31) .invalid
  let calendar ← create .payrollCalendar
    { institutionId := auth.institutionId, name, frequency, payDayOfMonth }
  let _ ← create .auditLog
    { institutionId := auth.institutionId, userId := some auth.userId,
      action := "payroll_calendar.create", resource := "payroll_calendar",
      resourceId := some calendar }
  return calendar

/-- `periodSchema`. -/
structure PayrollPeriodRequest where
  calendarId : Id
  name : String
  startDate : DateTime
  endDate : DateTime
  payDate : DateTime

/-- `POST /periods`. -/
def createPayrollPeriod (auth : Auth) (body : PayrollPeriodRequest) : Handler Id := do
  Proc.require (body.name ≠ "") .invalid
  let overlap ← findFirst .payrollPeriod fun _ p =>
    p.institutionId = auth.institutionId ∧ p.calendarId = body.calendarId ∧
      p.startDate ≤ body.endDate ∧ body.startDate ≤ p.endDate
  Proc.require (overlap.isNone = true)
    (.http 400 ("This date range overlaps an existing payroll period (" ++
      ((overlap.map fun p => p.2.name).getD "") ++ ")"))
  let period ← create .payrollPeriod
    { institutionId := auth.institutionId, calendarId := body.calendarId, name := body.name,
      startDate := body.startDate, endDate := body.endDate, payDate := body.payDate }
  let _ ← create .auditLog
    { institutionId := auth.institutionId, userId := some auth.userId,
      action := "payroll_period.create", resource := "payroll_period", resourceId := some period }
  return period

/-! ## Rates -/

/-- The value of a `Decimal(5, 2)` column after a number is stored in it. -/
def toPercentColumn (x : ℚ) : ℚ := roundHalfAway (x * 100) / 100

/-- A band of `taxTableSchema`. -/
structure TaxBandRequest where
  sequence : ℤ
  lowerBound : ℚ
  upperBound : Option ℚ
  rate : ℚ

/-- `POST /tax-tables`. -/
def createTaxTable (auth : Auth) (name : String) (effectiveDate : DateTime)
    (bands : List TaxBandRequest) : Handler Id := do
  Proc.require (name ≠ "" ∧ bands ≠ [] ∧ ∀ b ∈ bands, 0 ≤ b.lowerBound ∧
    (∀ x, b.upperBound = some x → 0 < x) ∧ 0 ≤ b.rate ∧ b.rate ≤ 100) .invalid
  let table ← create .taxTable
    { institutionId := auth.institutionId, name, effectiveDate, active := false,
      bands := bands.map fun b =>
        { sequence := b.sequence, lowerBound := ofNumber b.lowerBound, upperBound := b.upperBound,
          rate := toPercentColumn b.rate } }
  let _ ← create .auditLog
    { institutionId := auth.institutionId, userId := some auth.userId,
      action := "tax_table.create", resource := "tax_table", resourceId := some table }
  return table

/-- `statutoryRateSchema`. -/
structure StatutoryRateRequest where
  name : String
  rate : ℚ
  ceiling : Option ℚ
  minimum : Option ℚ
  effectiveDate : DateTime

/-- `POST /statutory-rates`. -/
def createStatutoryRate (auth : Auth) (body : StatutoryRateRequest) : Handler Id := do
  Proc.require (body.name ≠ "" ∧ 0 ≤ body.rate ∧ body.rate ≤ 100 ∧
    (∀ x, body.ceiling = some x → 0 < x) ∧ ∀ x, body.minimum = some x → 0 ≤ x) .invalid
  let rate ← create .statutoryContributionRate
    { institutionId := auth.institutionId, name := body.name, rate := toPercentColumn body.rate,
      ceiling := body.ceiling.map ofNumber, minimum := body.minimum.map ofNumber,
      effectiveDate := body.effectiveDate, active := false }
  let _ ← create .auditLog
    { institutionId := auth.institutionId, userId := some auth.userId,
      action := "statutory_rate.create", resource := "statutory_contribution_rate",
      resourceId := some rate }
  return rate

/-- `POST /tax-tables/:id/activate`. -/
def activateTaxTable (auth : Auth) (tableId : Id) : Handler TaxTable := do
  let found ← findById .taxTable tableId fun t => t.institutionId = auth.institutionId
  let _ ← Proc.orFail found (.http 404 "Tax table not found")
  let _ ← updateMany .taxTable (fun _ t => t.institutionId = auth.institutionId && t.active)
    fun t => { t with active := false }
  let updated ← updateAs { activates := some (.taxTable tableId) } .taxTable tableId fun t =>
    { t with active := true }
  let _ ← create .auditLog
    { institutionId := auth.institutionId, userId := some auth.userId,
      action := "tax_table.activate", resource := "tax_table", resourceId := some tableId }
  return updated

/-- `POST /statutory-rates/:id/activate`. -/
def activateStatutoryRate (auth : Auth) (rateId : Id) : Handler StatutoryContributionRate := do
  let found ← findById .statutoryContributionRate rateId fun r =>
    r.institutionId = auth.institutionId
  let rate ← Proc.orFail found (.http 404 "Statutory rate not found")
  let _ ← updateMany .statutoryContributionRate
    (fun _ r => r.institutionId = auth.institutionId && decide (r.name = rate.name) && r.active)
    fun r => { r with active := false }
  let updated ← updateAs { activates := some (.statutoryRate rateId) } .statutoryContributionRate
    rateId fun r => { r with active := true }
  let _ ← create .auditLog
    { institutionId := auth.institutionId, userId := some auth.userId,
      action := "statutory_rate.activate", resource := "statutory_contribution_rate",
      resourceId := some rateId }
  return updated

/-! ## Salary structures -/

/-- An allowance or a deduction of `salaryStructureSchema`, with its code. -/
structure SalaryItemRequest where
  codeId : Id
  amount : ℚ
  isPercentageOfBasic : Bool := false

/-- What an item comes to. -/
def SalaryItemRequest.value (basicSalary : ℚ) (item : SalaryItemRequest) : ℚ :=
  if item.isPercentageOfBasic then basicSalary * (item.amount / 100) else item.amount

/-- `salaryStructureSchema`. -/
structure SalaryStructureRequest where
  employeeId : Id
  payGroupId : Option Id := none
  salaryGradeId : Option Id := none
  basicSalary : ℚ
  effectiveDate : DateTime
  allowances : List SalaryItemRequest := []
  deductions : List SalaryItemRequest := []

/-- The grade of a salary, if one is named and there. -/
def findSalaryGrade (auth : Auth) (salaryGradeId : Option Id) : Handler (Option SalaryGrade) :=
  match salaryGradeId with
  | some gradeId => findById .salaryGrade gradeId fun g => g.institutionId = auth.institutionId
  | none => return none

/-- `POST /salary-structures`. -/
def createSalaryStructure (auth : Auth) (body : SalaryStructureRequest) : Handler Id := do
  Proc.require (0 < body.basicSalary ∧ (∀ a ∈ body.allowances, 0 < a.amount) ∧
    ∀ d ∈ body.deductions, 0 < d.amount) .invalid
  let grade ← findSalaryGrade auth body.salaryGradeId
  Proc.require (∀ g, grade = some g →
      toNumber g.minSalary ≤ body.basicSalary ∧ body.basicSalary ≤ toNumber g.maxSalary)
    (.http 400 ("Basic salary must fall within grade " ++ ((grade.map SalaryGrade.name).getD "") ++
      "'s range (GHS " ++ ((grade.map fun g => decimalText g.minSalary).getD "") ++ " - " ++
      ((grade.map fun g => decimalText g.maxSalary).getD "") ++ ")"))
  let totalAllowanceAmount := (body.allowances.map fun a => a.value body.basicSalary).sum
  let totalDeductionAmount := (body.deductions.map fun d => d.value body.basicSalary).sum
  let estimatedGross := body.basicSalary + totalAllowanceAmount
  Proc.require (totalDeductionAmount ≤ estimatedGross)
    (.http 400 "Total deductions cannot exceed gross pay")
  let structure_ ← create .employeeSalaryStructure
    { institutionId := auth.institutionId, employeeId := body.employeeId,
      payGroupId := body.payGroupId, salaryGradeId := body.salaryGradeId,
      basicSalary := ofNumber body.basicSalary, effectiveDate := body.effectiveDate,
      createdById := auth.userId,
      allowances := body.allowances.map fun a =>
        { earningCodeId := a.codeId, amount := ofNumber a.amount,
          isPercentageOfBasic := a.isPercentageOfBasic },
      deductions := body.deductions.map fun d =>
        { deductionCodeId := d.codeId, amount := ofNumber d.amount,
          isPercentageOfBasic := d.isPercentageOfBasic } }
  let _ ← create .auditLog
    { institutionId := auth.institutionId, userId := some auth.userId,
      action := "salary_structure.create", resource := "employee_salary_structure",
      resourceId := some structure_ }
  return structure_

/-! ## Processing -/

/-- What a run is worked out with. -/
structure PayrollRates where
  bands : List TaxBandInput
  ssnitEmployee : StatutoryContributionRate
  ssnitEmployer : StatutoryContributionRate
  tier2 : StatutoryContributionRate
  taxable : Id → Bool

/-- What one employee is paid, before it is stored. -/
structure PayrollLine where
  employeeId : Id
  basicSalary : ℚ
  grossPay : ℚ
  taxableIncome : ℚ
  paye : ℚ
  ssnitEmployee : ℚ
  ssnitEmployerTier1 : ℚ
  tier2Employer : ℚ
  otherDeductions : ℚ
  netPay : ℚ

def StatutoryContributionRate.contribution (r : StatutoryContributionRate) (basicSalary : ℚ) : ℚ :=
  calculateStatutoryContribution basicSalary r.rate (r.ceiling.map toNumber)
    (r.minimum.map toNumber)

/-- A flat amount, or the percentage of the basic salary in whole cents. -/
def salaryItemAmount (basicSalary : ℚ) (amount : Cents) (isPercentageOfBasic : Bool) : ℚ :=
  if isPercentageOfBasic then round2 (basicSalary * (toNumber amount / 100)) else toNumber amount

def PayrollRates.line (rates : PayrollRates) (e : EmployeeSalaryStructure) : PayrollLine :=
  let basicSalary := toNumber e.basicSalary
  let amount := fun a : EmployeeAllowance =>
    salaryItemAmount basicSalary a.amount a.isPercentageOfBasic
  let totalAllowances := (e.allowances.map amount).sum
  let taxableAllowances := ((e.allowances.filter fun a => rates.taxable a.earningCodeId).map
    amount).sum
  let otherDeductions := ((e.deductions.filter EmployeeDeduction.active).map fun d =>
    salaryItemAmount basicSalary d.amount d.isPercentageOfBasic).sum
  let grossPay := round2 (basicSalary + totalAllowances)
  let taxableIncome := round2 (basicSalary + taxableAllowances)
  let paye := calculatePAYE taxableIncome rates.bands
  let ssnitEmployee := rates.ssnitEmployee.contribution basicSalary
  { employeeId := e.employeeId, basicSalary, grossPay, taxableIncome, paye, ssnitEmployee,
    ssnitEmployerTier1 := rates.ssnitEmployer.contribution basicSalary,
    tier2Employer := rates.tier2.contribution basicSalary, otherDeductions,
    netPay := round2 (max 0 (grossPay - paye - ssnitEmployee - otherDeductions)) }

/-- A line as the entry of a run. -/
def PayrollLine.entry (payrollRunId : Id) (l : PayrollLine) : PayrollEntry :=
  { payrollRunId, employeeId := l.employeeId, basicSalary := ofNumber l.basicSalary,
    grossPay := ofNumber l.grossPay, taxableIncome := ofNumber l.taxableIncome,
    paye := ofNumber l.paye, ssnitEmployee := ofNumber l.ssnitEmployee,
    ssnitEmployerTier1 := ofNumber l.ssnitEmployerTier1,
    tier2Employer := ofNumber l.tier2Employer,
    otherDeductions := ofNumber (round2 l.otherDeductions), netPay := ofNumber l.netPay }

/-- `payrollRun.create` with its entries.  A period has one run. -/
def createPayrollRun (run : PayrollRun) (lines : List PayrollLine) : Handler Id :=
  Proc.attempt
    { processes := some ⟨run.institutionId, run.payrollPeriodId, lines.map PayrollLine.employeeId⟩ }
    fun s =>
    if run.payrollPeriodId ∈ (s.table .payrollRun).values.map PayrollRun.payrollPeriodId then
      (.error uniqueViolation, s)
    else
      (.ok (s.nextId .payrollRun), lines.foldl
        (fun t l => t.insert .payrollEntry (l.entry (s.nextId .payrollRun)))
        (s.insert .payrollRun run))

def statutoryRateNamed (rates : List (Id × StatutoryContributionRate)) (name : String) :
    Option StatutoryContributionRate :=
  (rates.find? fun r => r.2.name = name).map Prod.snd

/-- `POST /periods/:periodId/process`. -/
def processPayroll (auth : Auth) (now : DateTime) (periodId : Id) : Handler Id := do
  let found ← findById .payrollPeriod periodId fun p => p.institutionId = auth.institutionId
  let _ ← Proc.orFail found (.http 404 "Payroll period not found")
  let existingRun ← findFirst .payrollRun fun _ r => r.payrollPeriodId = periodId
  Proc.require (existingRun.isNone = true) (.http 400
    "This period has already been processed — duplicate processing is not allowed")
  let foundTable ← findFirst .taxTable fun _ t => t.institutionId = auth.institutionId && t.active
  let taxTable ← Proc.orFail foundTable
    (.http 400 "No active tax table — activate one before processing payroll")
  let statutoryRates ← findMany .statutoryContributionRate fun _ r =>
    r.institutionId = auth.institutionId && r.active
  let (ssnitEmployee, ssnitEmployer, tier2) ← Proc.orFail
    (both (statutoryRateNamed statutoryRates "SSNIT Employee")
      (both (statutoryRateNamed statutoryRates "SSNIT Employer Tier 1")
        (statutoryRateNamed statutoryRates "Tier 2 Employer")))
    (.http 400 "Active 'SSNIT Employee', 'SSNIT Employer Tier 1', and 'Tier 2 Employer' rates are all required before processing payroll")
  let activeStructures ← findMany .employeeSalaryStructure fun _ e =>
    e.institutionId = auth.institutionId ∧ e.status = .active
  let earningCodes ← findMany .earningCode fun _ e => e.institutionId = auth.institutionId
  let bands := (taxTable.2.bands.insertionSort fun a b => a.sequence ≤ b.sequence).map fun b =>
    { lowerBound := toNumber b.lowerBound, upperBound := b.upperBound, rate := b.rate : TaxBandInput }
  let rates : PayrollRates :=
    { bands, ssnitEmployee, ssnitEmployer, tier2,
      taxable := fun codeId => earningCodes.any fun c => c.1 = codeId && c.2.taxable }
  let lines := activeStructures.map fun e => rates.line e.2
  let run ← createPayrollRun
    { institutionId := auth.institutionId, payrollPeriodId := periodId, status := .processed,
      totalGross := ofNumber (round2 (lines.map PayrollLine.grossPay).sum),
      totalDeductions := ofNumber (round2 (lines.map fun l =>
        l.paye + l.ssnitEmployee + l.otherDeductions).sum),
      totalNet := ofNumber (round2 (lines.map PayrollLine.netPay).sum),
      processedById := some auth.userId, processedAt := some now } lines
  let _ ← update .payrollPeriod periodId fun p => { p with status := .processing }
  let _ ← create .auditLog
    { institutionId := auth.institutionId, userId := some auth.userId,
      action := "payroll_run.process", resource := "payroll_run", resourceId := some run }
  return run

end NexusEfos
