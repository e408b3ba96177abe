/-
What a payroll run owes, and whether its accrual balances.

The net pay of an entry is what tax, social security and the other deductions leave of the gross pay,
but never less than nothing.  While the deductions of every entry fit into its gross pay, the
accrual of a run balances by its construction, and its approval posts it; an entry whose deductions
do not fit breaks both.
-/
import NexusEfos.Approvals.DraftPostings
import NexusEfos.Operations.PayrollPeriods
import NexusEfos.Operations.PayrollReversals

namespace NexusEfos

/-! ## The figures of a line -/

theorem wholeCent_calculatePAYE (income : ℚ) (bands : List TaxBandInput) :
    WholeCent (calculatePAYE income bands) := by
  unfold calculatePAYE
  split
  · exact .zero
  · exact wholeCent_round2 _

theorem wholeCent_salaryItemAmount (basicSalary : ℚ) (amount : Cents) (isPercentageOfBasic : Bool) :
    WholeCent (salaryItemAmount basicSalary amount isPercentageOfBasic) := by
  unfold salaryItemAmount
  split
  · exact wholeCent_round2 _
  · exact wholeCent_toNumber _

namespace PayrollLine

/-- The figures of a line are whole cents, and the net pay is what the deductions leave of the gross
pay, if anything. -/
structure Sound (l : PayrollLine) : Prop where
  grossPay : WholeCent l.grossPay
  paye : WholeCent l.paye
  ssnitEmployee : WholeCent l.ssnitEmployee
  ssnitEmployerTier1 : WholeCent l.ssnitEmployerTier1
  tier2Employer : WholeCent l.tier2Employer
  otherDeductions : WholeCent l.otherDeductions
  netPay : l.netPay = max 0 (l.grossPay - l.paye - l.ssnitEmployee - l.otherDeductions)

/-- The deductions do not exceed the gross pay. -/
def Fits (l : PayrollLine) : Prop := l.paye + l.ssnitEmployee + l.otherDeductions ≤ l.grossPay

instance (l : PayrollLine) : Decidable l.Fits := inferInstanceAs (Decidable (_ ≤ _))

/-- None of the figures that are booked is negative. -/
structure Nonneg (l : PayrollLine) : Prop where
  grossPay : 0 ≤ l.grossPay
  paye : 0 ≤ l.paye
  ssnitEmployee : 0 ≤ l.ssnitEmployee
  ssnitEmployerTier1 : 0 ≤ l.ssnitEmployerTier1
  tier2Employer : 0 ≤ l.tier2Employer
  otherDeductions : 0 ≤ l.otherDeductions

theorem Sound.wholeCent_netPay {l : PayrollLine} (h : l.Sound) : WholeCent l.netPay := by
  rw [h.netPay]
  exact WholeCent.zero.max (((h.grossPay.sub h.paye).sub h.ssnitEmployee).sub h.otherDeductions)

theorem Sound.fits_iff {l : PayrollLine} (h : l.Sound) :
    l.Fits ↔ l.grossPay = l.netPay + l.paye + l.ssnitEmployee + l.otherDeductions := by
  unfold Fits
  rw [h.netPay]
  rcases le_total 0 (l.grossPay - l.paye - l.ssnitEmployee - l.otherDeductions) with hle | hle
  · rw [max_eq_right hle]
    exact iff_of_true (by linarith) (by ring)
  · rw [max_eq_left hle]
    constructor
    · intro hfits
      linarith
    · intro heq
      linarith

end PayrollLine

theorem PayrollRates.line_sound (rates : PayrollRates) (e : EmployeeSalaryStructure) :
    (rates.line e).Sound := by
  have hother : WholeCent (rates.line e).otherDeductions := by
    apply WholeCent.sum
    rw [List.forall_mem_map]
    exact fun d _ => wholeCent_salaryItemAmount ..
  have hgross : WholeCent (rates.line e).grossPay := wholeCent_round2 _
  have hpaye : WholeCent (rates.line e).paye := wholeCent_calculatePAYE ..
  have hssnit : WholeCent (rates.line e).ssnitEmployee := wholeCent_round2 _
  refine ⟨hgross, hpaye, hssnit, wholeCent_round2 _, wholeCent_round2 _, hother, ?_⟩
  exact (WholeCent.zero.max (((hgross.sub hpaye).sub hssnit).sub hother)).round2_eq

/-! ## What the figures are worked out from -/

namespace PayrollRates

/-- The deductions from a salary fit into it. -/
def DeductionsFit (rates : PayrollRates) (e : EmployeeSalaryStructure) : Prop :=
  let basicSalary := toNumber e.basicSalary
  let amount := fun a : EmployeeAllowance =>
    salaryItemAmount basicSalary a.amount a.isPercentageOfBasic
  let taxable := (e.allowances.filter fun a => rates.taxable a.earningCodeId).map amount
  let deductions := (e.deductions.filter EmployeeDeduction.active).map fun d =>
    salaryItemAmount basicSalary d.amount d.isPercentageOfBasic
  calculatePAYE (round2 (basicSalary + taxable.sum)) rates.bands +
      rates.ssnitEmployee.contribution basicSalary + deductions.sum ≤
    round2 (basicSalary + (e.allowances.map amount).sum)

instance (rates : PayrollRates) (e : EmployeeSalaryStructure) : Decidable (rates.DeductionsFit e) :=
  inferInstanceAs (Decidable (_ ≤ _))

/-- A salary costs the employer anything. -/
def Costs (rates : PayrollRates) (e : EmployeeSalaryStructure) : Prop :=
  let basicSalary := toNumber e.basicSalary
  0 < round2 (basicSalary + (e.allowances.map fun a =>
      salaryItemAmount basicSalary a.amount a.isPercentageOfBasic).sum) +
    rates.ssnitEmployer.contribution basicSalary + rates.tier2.contribution basicSalary

instance (rates : PayrollRates) (e : EmployeeSalaryStructure) : Decidable (rates.Costs e) :=
  inferInstanceAs (Decidable (_ < _))

end PayrollRates

/-- No amount of a salary is negative. -/
structure EmployeeSalaryStructure.Nonneg (e : EmployeeSalaryStructure) : Prop where
  basicSalary : 0 ≤ e.basicSalary
  allowances : ∀ a ∈ e.allowances, 0 ≤ a.amount
  deductions : ∀ d ∈ e.deductions, 0 ≤ d.amount

/-- Neither the rate nor the bounds of a contribution are negative. -/
structure StatutoryContributionRate.Nonneg (r : StatutoryContributionRate) : Prop where
  rate : 0 ≤ r.rate
  ceiling : ∀ x ∈ r.ceiling, 0 ≤ x
  minimum : ∀ x ∈ r.minimum, 0 ≤ x

/-- The figures of payroll are what the endpoints admit: none is negative. -/
structure Db.PayrollFigures (s : Db) : Prop where
  structures : ∀ e ∈ (s.table .employeeSalaryStructure).values, e.Nonneg
  bands : ∀ t ∈ (s.table .taxTable).values, ∀ b ∈ t.bands, 0 ≤ b.rate
  rates : ∀ r ∈ (s.table .statutoryContributionRate).values, r.Nonneg

theorem salaryItemAmount_nonneg {basicSalary : ℚ} (hbasic : 0 ≤ basicSalary) {amount : Cents}
    (hamount : 0 ≤ amount) (isPercentageOfBasic : Bool) :
    0 ≤ salaryItemAmount basicSalary amount isPercentageOfBasic := by
  have hnumber := toNumber_nonneg.mpr hamount
  unfold salaryItemAmount
  split
  · exact round2_nonneg (by positivity)
  · exact hnumber

theorem TaxBandInput.tax_nonneg {band : TaxBandInput} (h : 0 ≤ band.rate) (income : ℚ) :
    0 ≤ band.tax income := by
  unfold tax
  split
  · exact le_rfl
  · dsimp only
    positivity

theorem calculatePAYE_nonneg {bands : List TaxBandInput} (h : ∀ band ∈ bands, 0 ≤ band.rate)
    (income : ℚ) : 0 ≤ calculatePAYE income bands := by
  unfold calculatePAYE
  split
  · exact le_rfl
  · apply round2_nonneg
    apply List.sum_nonneg
    rw [List.forall_mem_map]
    exact fun band hband => TaxBandInput.tax_nonneg (h band hband) income

/-- The salary counts from the minimum on and up to the ceiling. -/
theorem calculateStatutoryContribution_eq (basicSalary rate : ℚ) (ceiling minimum : Option ℚ) :
    calculateStatutoryContribution basicSalary rate ceiling minimum =
      round2 (ceiling.elim (minimum.elim basicSalary (max basicSalary))
        (min (minimum.elim basicSalary (max basicSalary))) * (rate / 100)) := by
  have hmax : ∀ x y : ℚ, (if x < y then y else x) = max x y := fun x y => (max_def_lt x y).symm
  have hmin : ∀ x y : ℚ, (if y < x then y else x) = min x y := by
    intro x y
    rw [min_comm, min_def_lt]
  cases minimum <;> cases ceiling <;>
    simp only [calculateStatutoryContribution, Option.elim, hmax, hmin]

theorem StatutoryContributionRate.Nonneg.contribution {r : StatutoryContributionRate}
    (h : r.Nonneg) {basicSalary : ℚ} (hbasic : 0 ≤ basicSalary) : 0 ≤ r.contribution basicSalary := by
  have hrate := h.rate
  unfold StatutoryContributionRate.contribution
  rw [calculateStatutoryContribution_eq]
  apply round2_nonneg
  apply mul_nonneg _ (by positivity)
  have hbase : 0 ≤ (r.minimum.map toNumber).elim basicSalary (max basicSalary) := by
    cases r.minimum with
    | none => exact hbasic
    | some x => exact le_max_of_le_left hbasic
  cases hceiling : r.ceiling with
  | none => exact hbase
  | some x => exact le_min hbase (toNumber_nonneg.mpr (h.ceiling x hceiling))

/-- What a run is worked out with comes from figures that are not negative. -/
structure PayrollRates.Nonneg (rates : PayrollRates) : Prop where
  bands : ∀ band ∈ rates.bands, 0 ≤ band.rate
  ssnitEmployee : rates.ssnitEmployee.Nonneg
  ssnitEmployer : rates.ssnitEmployer.Nonneg
  tier2 : rates.tier2.Nonneg

theorem PayrollRates.Nonneg.line {rates : PayrollRates} (h : rates.Nonneg)
    {e : EmployeeSalaryStructure} (he : e.Nonneg) : (rates.line e).Nonneg := by
  have hbasic := toNumber_nonneg.mpr he.basicSalary
  have hallowances : 0 ≤ (e.allowances.map fun a =>
      salaryItemAmount (toNumber e.basicSalary) a.amount a.isPercentageOfBasic).sum := by
    apply List.sum_nonneg
    rw [List.forall_mem_map]
    exact fun a ha => salaryItemAmount_nonneg hbasic (he.allowances a ha) _
  have hdeductions : 0 ≤ ((e.deductions.filter EmployeeDeduction.active).map fun d =>
      salaryItemAmount (toNumber e.basicSalary) d.amount d.isPercentageOfBasic).sum := by
    apply List.sum_nonneg
    rw [List.forall_mem_map]
    exact fun d hd => salaryItemAmount_nonneg hbasic (he.deductions d (List.mem_filter.mp hd).1) _
  exact ⟨round2_nonneg (add_nonneg hbasic hallowances), calculatePAYE_nonneg h.bands _,
    h.ssnitEmployee.contribution hbasic, h.ssnitEmployer.contribution hbasic,
    h.tier2.contribution hbasic, hdeductions⟩

/-! ## The lines of an accrual -/

section Lines

/-- The totals of a run, as its accrual needs them. -/
structure PayrollAccrualInputs.Sound (inputs : PayrollAccrualInputs) : Prop where
  totalGross : 0 ≤ inputs.totalGross
  totalPaye : 0 ≤ inputs.totalPaye
  totalSsnitEmployee : 0 ≤ inputs.totalSsnitEmployee ∧ WholeCent inputs.totalSsnitEmployee
  totalSsnitEmployerTier1 :
    0 ≤ inputs.totalSsnitEmployerTier1 ∧ WholeCent inputs.totalSsnitEmployerTier1
  totalTier2Employer : 0 ≤ inputs.totalTier2Employer
  totalOtherDeductions : 0 ≤ inputs.totalOtherDeductions
  totalNet : 0 ≤ inputs.totalNet

/-- The lines of an accrual, with those that have no amount. -/
def allAccrualLines (inputs : PayrollAccrualInputs) (accountIds : String → Option Id) :
    List DraftLine :=
  let totalSsnitPayable := round2 (inputs.totalSsnitEmployee + inputs.totalSsnitEmployerTier1)
  [{ accountId := accountIds "Salary Expense", debit := inputs.totalGross, credit := 0 },
    { accountId := accountIds "Employer SSNIT Expense", debit := inputs.totalSsnitEmployerTier1,
      credit := 0 },
    { accountId := accountIds "Employer Tier 2 Expense", debit := inputs.totalTier2Employer,
      credit := 0 },
    { accountId := accountIds "PAYE Payable", debit := 0, credit := inputs.totalPaye },
    { accountId := accountIds "SSNIT Payable", debit := 0, credit := totalSsnitPayable },
    { accountId := accountIds "Tier 2 Payable", debit := 0, credit := inputs.totalTier2Employer },
    { accountId := accountIds "Other Deductions Payable", debit := 0,
      credit := inputs.totalOtherDeductions },
    { accountId := accountIds "Salaries Payable", debit := 0, credit := inputs.totalNet }]

theorem buildPayrollAccrualLines_eq (inputs : PayrollAccrualInputs)
    (accountIds : String → Option Id) :
    buildPayrollAccrualLines inputs accountIds =
      (allAccrualLines inputs accountIds).filter DraftLine.hasAmount := rfl

/-- What the debits and the credits of an accrual add up to. -/
theorem sum_buildPayrollAccrualLines {inputs : PayrollAccrualInputs} (h : inputs.Sound)
    (accountIds : String → Option Id) :
    ((buildPayrollAccrualLines inputs accountIds).map DraftLine.debit).sum =
        inputs.totalGross + inputs.totalSsnitEmployerTier1 + inputs.totalTier2Employer ∧
      ((buildPayrollAccrualLines inputs accountIds).map DraftLine.credit).sum =
        inputs.totalNet + inputs.totalPaye + inputs.totalSsnitEmployee +
          inputs.totalOtherDeductions + inputs.totalSsnitEmployerTier1 +
            inputs.totalTier2Employer := by
  have hssnit : round2 (inputs.totalSsnitEmployee + inputs.totalSsnitEmployerTier1) =
      inputs.totalSsnitEmployee + inputs.totalSsnitEmployerTier1 :=
    (h.totalSsnitEmployee.2.add h.totalSsnitEmployerTier1.2).round2_eq
  have hnonneg : ∀ d ∈ allAccrualLines inputs accountIds, 0 ≤ d.debit ∧ 0 ≤ d.credit := by
    intro d hd
    simp only [allAccrualLines, List.mem_cons, List.not_mem_nil, or_false] at hd
    rcases hd with rfl | rfl | rfl | rfl | rfl | rfl | rfl | rfl
    · exact ⟨h.totalGross, le_rfl⟩
    · exact ⟨h.totalSsnitEmployerTier1.1, le_rfl⟩
    · exact ⟨h.totalTier2Employer, le_rfl⟩
    · exact ⟨le_rfl, h.totalPaye⟩
    · exact ⟨le_rfl, round2_nonneg (add_nonneg h.totalSsnitEmployee.1 h.totalSsnitEmployerTier1.1)⟩
    · exact ⟨le_rfl, h.totalTier2Employer⟩
    · exact ⟨le_rfl, h.totalOtherDeductions⟩
    · exact ⟨le_rfl, h.totalNet⟩
  obtain ⟨hdebits, hcredits⟩ := sum_filter_hasAmount hnonneg
  rw [buildPayrollAccrualLines_eq, hdebits, hcredits]
  simp only [allAccrualLines, hssnit, List.map_cons, List.map_nil, List.sum_cons, List.sum_nil]
  constructor <;> ring

end Lines

/-! ## The entries of a run -/

/-- The entries of a payroll run. -/
def Db.entriesOf (s : Db) (runId : Id) : List PayrollEntry :=
  (s.table .payrollEntry).values.filter fun e => e.payrollRunId = runId

/-- What the entries of a run add up to, with the totals of the run. -/
def accrualInputs (run : PayrollRun) (entries : List PayrollEntry) : PayrollAccrualInputs :=
  let total := fun f : PayrollEntry → Cents => (entries.map fun e => toNumber (f e)).sum
  { totalGross := toNumber run.totalGross, totalPaye := total PayrollEntry.paye,
    totalSsnitEmployee := total PayrollEntry.ssnitEmployee,
    totalSsnitEmployerTier1 := total PayrollEntry.ssnitEmployerTier1,
    totalTier2Employer := total PayrollEntry.tier2Employer,
    totalOtherDeductions := total PayrollEntry.otherDeductions,
    totalNet := toNumber run.totalNet }

/-- An entry pays out its gross pay, as net pay or as a deduction. -/
def PayrollEntry.Adds (e : PayrollEntry) : Prop :=
  e.grossPay = e.netPay + e.paye + e.ssnitEmployee + e.otherDeductions

instance (e : PayrollEntry) : Decidable e.Adds := inferInstanceAs (Decidable (_ = _))

section Entries

variable {l : PayrollLine} {lines : List PayrollLine} {runId : Id}

theorem PayrollLine.Sound.adds_iff (h : l.Sound) : (l.entry runId).Adds ↔ l.Fits := by
  rw [h.fits_iff, PayrollEntry.Adds, ← toNumber_inj, toNumber_add, toNumber_add, toNumber_add]
  have hother : toNumber (ofNumber (round2 l.otherDeductions)) = l.otherDeductions := by
    rw [h.otherDeductions.round2_eq, h.otherDeductions.toNumber_ofNumber]
  unfold PayrollLine.entry
  dsimp only
  rw [h.grossPay.toNumber_ofNumber, h.wholeCent_netPay.toNumber_ofNumber,
    h.paye.toNumber_ofNumber, h.ssnitEmployee.toNumber_ofNumber, hother]

/-- The run as processing stores it. -/
def processedRun (institutionId periodId userId : Id) (now : DateTime) (lines : List PayrollLine) :
    PayrollRun :=
  { institutionId, payrollPeriodId := periodId, status := .processed,
    totalGross := ofNumber (round2 (lines.map PayrollLine.grossPay).sum),
    totalDeductions := ofNumber (round2 (lines.map fun l =>
      l.paye + l.ssnitEmployee + l.otherDeductions).sum),
    totalNet := ofNumber (round2 (lines.map PayrollLine.netPay).sum),
    processedById := some userId, processedAt := some now }

/-- What is booked of the lines. -/
theorem accrualInputs_entries (hlines : ∀ l ∈ lines, l.Sound) {run : PayrollRun}
    (hgross : run.totalGross = ofNumber (round2 (lines.map PayrollLine.grossPay).sum))
    (hnet : run.totalNet = ofNumber (round2 (lines.map PayrollLine.netPay).sum)) :
    accrualInputs run (lines.map (PayrollLine.entry runId)) =
      { totalGross := (lines.map PayrollLine.grossPay).sum,
        totalPaye := (lines.map PayrollLine.paye).sum,
        totalSsnitEmployee := (lines.map PayrollLine.ssnitEmployee).sum,
        totalSsnitEmployerTier1 := (lines.map PayrollLine.ssnitEmployerTier1).sum,
        totalTier2Employer := (lines.map PayrollLine.tier2Employer).sum,
        totalOtherDeductions := (lines.map PayrollLine.otherDeductions).sum,
        totalNet := (lines.map PayrollLine.netPay).sum } := by
  have htotal : ∀ (f : PayrollEntry → Cents) (g : PayrollLine → ℚ),
      (∀ l ∈ lines, toNumber (f (l.entry runId)) = g l) →
        ((lines.map (PayrollLine.entry runId)).map fun e => toNumber (f e)).sum =
          (lines.map g).sum := by
    intro f g h
    rw [List.map_map]
    exact congrArg List.sum (List.map_congr_left h)
  have hwhole : ∀ g : PayrollLine → ℚ, (∀ l ∈ lines, WholeCent (g l)) →
      toNumber (ofNumber (round2 (lines.map g).sum)) = (lines.map g).sum := by
    intro g h
    have hsum : WholeCent (lines.map g).sum := WholeCent.sum (List.forall_mem_map.mpr h)
    rw [hsum.round2_eq, hsum.toNumber_ofNumber]
  unfold accrualInputs
  dsimp only
  rw [hgross, hnet, hwhole _ fun l hl => (hlines l hl).grossPay,
    hwhole _ fun l hl => (hlines l hl).wholeCent_netPay,
    htotal _ PayrollLine.paye fun l hl => (hlines l hl).paye.toNumber_ofNumber,
    htotal _ PayrollLine.ssnitEmployee fun l hl => (hlines l hl).ssnitEmployee.toNumber_ofNumber,
    htotal _ PayrollLine.ssnitEmployerTier1 fun l hl =>
      (hlines l hl).ssnitEmployerTier1.toNumber_ofNumber,
    htotal _ PayrollLine.tier2Employer fun l hl => (hlines l hl).tier2Employer.toNumber_ofNumber,
    htotal _ PayrollLine.otherDeductions]
  intro l hl
  have hother := (hlines l hl).otherDeductions
  show toNumber (ofNumber (round2 l.otherDeductions)) = _
  rw [hother.round2_eq, hother.toNumber_ofNumber]

/-- The accrual of lines that fit balances, if there is anything to book, and only then. -/
theorem isBalanced_accrual (hlines : ∀ l ∈ lines, l.Sound) (hnonneg : ∀ l ∈ lines, l.Nonneg)
    (hfit : ∀ l ∈ lines, l.Fits) {run : PayrollRun}
    (hgross : run.totalGross = ofNumber (round2 (lines.map PayrollLine.grossPay).sum))
    (hnet : run.totalNet = ofNumber (round2 (lines.map PayrollLine.netPay).sum))
    (accountIds : String → Option Id) :
    isBalanced ((buildPayrollAccrualLines (accrualInputs run (lines.map (PayrollLine.entry runId)))
        accountIds).map DraftLine.amounts) = true ↔
      ∃ l ∈ lines, 0 < l.grossPay + l.ssnitEmployerTier1 + l.tier2Employer := by
  have hsum : ∀ g : PayrollLine → ℚ, (∀ l ∈ lines, 0 ≤ g l) → 0 ≤ (lines.map g).sum :=
    fun g h => List.sum_nonneg (List.forall_mem_map.mpr h)
  have hcents : ∀ g : PayrollLine → ℚ, (∀ l ∈ lines, WholeCent (g l)) →
      WholeCent (lines.map g).sum := fun g h => WholeCent.sum (List.forall_mem_map.mpr h)
  have hadds : (lines.map PayrollLine.grossPay).sum =
      (lines.map PayrollLine.netPay).sum + (lines.map PayrollLine.paye).sum +
        (lines.map PayrollLine.ssnitEmployee).sum + (lines.map PayrollLine.otherDeductions).sum := by
    rw [← List.sum_map_add, ← List.sum_map_add, ← List.sum_map_add]
    exact congrArg List.sum (List.map_congr_left fun l hl => (hlines l hl).fits_iff.mp (hfit l hl))
  have hinputs : accrualInputs run (lines.map (PayrollLine.entry runId)) = _ :=
    accrualInputs_entries hlines hgross hnet
  have hsound : (accrualInputs run (lines.map (PayrollLine.entry runId))).Sound := by
    rw [hinputs]
    refine ⟨hsum _ fun l hl => (hnonneg l hl).grossPay, hsum _ fun l hl => (hnonneg l hl).paye,
      ⟨hsum _ fun l hl => (hnonneg l hl).ssnitEmployee,
        hcents _ fun l hl => (hlines l hl).ssnitEmployee⟩,
      ⟨hsum _ fun l hl => (hnonneg l hl).ssnitEmployerTier1,
        hcents _ fun l hl => (hlines l hl).ssnitEmployerTier1⟩,
      hsum _ fun l hl => (hnonneg l hl).tier2Employer,
      hsum _ fun l hl => (hnonneg l hl).otherDeductions, hsum _ fun l hl => ?_⟩
    rw [(hlines l hl).netPay]
    exact le_max_left ..
  have hbooked : WholeCent ((lines.map PayrollLine.grossPay).sum +
      (lines.map PayrollLine.ssnitEmployerTier1).sum + (lines.map PayrollLine.tier2Employer).sum) :=
    ((hcents _ fun l hl => (hlines l hl).grossPay).add
      (hcents _ fun l hl => (hlines l hl).ssnitEmployerTier1)).add
        (hcents _ fun l hl => (hlines l hl).tier2Employer)
  have hall : ∀ l ∈ lines, 0 ≤ l.grossPay + l.ssnitEmployerTier1 + l.tier2Employer := by
    intro l hl
    have h := hnonneg l hl
    exact add_nonneg (add_nonneg h.grossPay h.ssnitEmployerTier1) h.tier2Employer
  obtain ⟨hdebits, hcredits⟩ := sum_buildPayrollAccrualLines hsound accountIds
  rw [isBalanced_amounts, hdebits, hcredits, hinputs]
  dsimp only
  rw [← hadds, hbooked.round2_eq, ← List.sum_map_add, ← List.sum_map_add]
  constructor
  · rintro ⟨-, hpos⟩
    by_contra hnone
    have hzero : (lines.map fun l => l.grossPay + l.ssnitEmployerTier1 + l.tier2Employer).sum = 0 := by
      apply List.sum_eq_zero
      rw [List.forall_mem_map]
      intro l hl
      exact le_antisymm (not_lt.mp fun hl' => hnone ⟨l, hl, hl'⟩) (hall l hl)
    rw [hzero] at hpos
    exact lt_irrefl 0 hpos
  · rintro ⟨l, hl, hpos⟩
    refine ⟨rfl, ?_⟩
    exact hpos.trans_le (List.single_le_sum (List.forall_mem_map.mpr hall) _
      (List.mem_map_of_mem hl))

end Entries

/-! ## Processing -/

namespace Db

/-- What a run is worked out with, if all of it is active. -/
def payrollRates? (s : Db) (institutionId : Id) : Option PayrollRates :=
  let statutoryRates := (s.table .statutoryContributionRate).entries.filter fun r =>
    r.2.institutionId = institutionId && r.2.active
  let earningCodes := (s.table .earningCode).entries.filter fun e =>
    e.2.institutionId = institutionId
  (both ((s.table .taxTable).entries.find? fun t => t.2.institutionId = institutionId && t.2.active)
    (both (statutoryRateNamed statutoryRates "SSNIT Employee")
      (both (statutoryRateNamed statutoryRates "SSNIT Employer Tier 1")
        (statutoryRateNamed statutoryRates "Tier 2 Employer")))).map fun found =>
    { bands := (found.1.2.bands.insertionSort fun a b => a.sequence ≤ b.sequence).map fun b =>
        { lowerBound := toNumber b.lowerBound, upperBound := b.upperBound, rate := b.rate },
      ssnitEmployee := found.2.1, ssnitEmployer := found.2.2.1, tier2 := found.2.2.2,
      taxable := fun codeId => earningCodes.any fun c => c.1 = codeId && c.2.taxable }

/-- The salaries that are in force. -/
def activeSalaries (s : Db) (institutionId : Id) : List EmployeeSalaryStructure :=
  ((s.table .employeeSalaryStructure).entries.filter fun e =>
    e.2.institutionId = institutionId ∧ e.2.status = .active).map Prod.snd

/-- What the salaries in force come to. -/
def payrollLines (s : Db) (institutionId : Id) (rates : PayrollRates) : List PayrollLine :=
  ((s.table .employeeSalaryStructure).entries.filter fun e =>
    e.2.institutionId = institutionId ∧ e.2.status = .active).map fun e => rates.line e.2

theorem payrollLines_eq (s : Db) (institutionId : Id) (rates : PayrollRates) :
    s.payrollLines institutionId rates = (s.activeSalaries institutionId).map rates.line := by
  unfold payrollLines activeSalaries
  rw [List.map_map]
  rfl

/-- Every entry belongs to a run that is there. -/
def EntriesHaveRuns (s : Db) : Prop :=
  ∀ e ∈ (s.table .payrollEntry).values, (s.find? .payrollRun e.payrollRunId).isSome

end Db

section Processing

variable {s t : Db} {institutionId : Id}

theorem Db.PayrollFigures.rates_nonneg (h : s.PayrollFigures) {rates : PayrollRates}
    (hrates : s.payrollRates? institutionId = some rates) : rates.Nonneg := by
  obtain ⟨found, hfound, rfl⟩ := Option.map_eq_some_iff.mp hrates
  obtain ⟨htable, hothers⟩ := both_eq_some hfound
  obtain ⟨hemployee, hemployers⟩ := both_eq_some hothers
  obtain ⟨hemployer, htier2⟩ := both_eq_some hemployers
  have hrate : ∀ {name : String} {r : StatutoryContributionRate},
      statutoryRateNamed ((s.table .statutoryContributionRate).entries.filter fun r =>
        r.2.institutionId = institutionId && r.2.active) name = some r → r.Nonneg := by
    intro name r hnamed
    obtain ⟨e, he, rfl⟩ := Option.map_eq_some_iff.mp hnamed
    exact h.rates e.2 (List.mem_map_of_mem (List.mem_filter.mp (List.mem_of_find?_eq_some he)).1)
  refine ⟨?_, hrate hemployee, hrate hemployer, hrate htier2⟩
  dsimp only
  rw [List.forall_mem_map]
  intro b hb
  exact h.bands found.1.2 (List.mem_map_of_mem (List.mem_of_find?_eq_some htable)) b
    ((List.perm_insertionSort _ _).mem_iff.mp hb)

theorem Db.PayrollFigures.salaries_nonneg (h : s.PayrollFigures) :
    ∀ e ∈ s.activeSalaries institutionId, e.Nonneg := by
  intro e he
  obtain ⟨entry, hentry, rfl⟩ := List.mem_map.mp he
  exact h.structures entry.2 (List.mem_map_of_mem (List.mem_filter.mp hentry).1)

theorem values_insertEntries (runId : Id) (lines : List PayrollLine) (s : Db) :
    ((lines.foldl (fun t l => t.insert .payrollEntry (l.entry runId)) s).table
        .payrollEntry).values =
      (s.table .payrollEntry).values ++ lines.map (PayrollLine.entry runId) := by
  induction lines generalizing s with
  | nil => exact (List.append_nil _).symm
  | cons l ls ih =>
    have hfirst : ((s.insert .payrollEntry (l.entry runId)).table .payrollEntry).values =
        (s.table .payrollEntry).values ++ [l.entry runId] := by
      rw [Db.table_insert_self, OrderedMap.values_create]
    rw [List.foldl_cons, ih, hfirst, List.append_assoc, List.map_cons]
    rfl

theorem run_createPayrollRun_eq_ok {run : PayrollRun} {lines : List PayrollLine} {id : Id}
    (h : (createPayrollRun run lines).run s = (.ok id, t)) :
    id = s.nextId .payrollRun ∧ t = lines.foldl
      (fun t l => t.insert .payrollEntry (l.entry (s.nextId .payrollRun)))
      (s.insert .payrollRun run) := by
  unfold createPayrollRun at h
  rw [Proc.run_attempt] at h
  split at h
  · exact absurd (congrArg Prod.fst h) nofun
  · obtain ⟨hid, ht⟩ := Prod.mk.inj h
    exact ⟨(Except.ok.inj hid).symm, ht.symm⟩

/-- What the processing of a period stores. -/
theorem run_processPayroll_eq_ok {auth : Auth} {now : DateTime} {periodId runId : Id}
    (h : (processPayroll auth now periodId).run s = (.ok runId, t)) :
    ∃ rates, s.payrollRates? auth.institutionId = some rates ∧ runId = s.nextId .payrollRun ∧
      (∀ id, t.find? .payrollRun id = if id = runId then
        some (processedRun auth.institutionId periodId auth.userId now
          (s.payrollLines auth.institutionId rates)) else s.find? .payrollRun id) ∧
      (t.table .payrollEntry).values = (s.table .payrollEntry).values ++
        (s.payrollLines auth.institutionId rates).map (PayrollLine.entry runId) := by
  obtain ⟨period, -, h₁⟩ := run_orFail_bind_eq_ok (run_query_bind h)
  obtain ⟨-, h₂⟩ := run_require_bind_eq_ok (run_query_bind h₁)
  obtain ⟨taxTable, htable, h₃⟩ := run_orFail_bind_eq_ok (run_query_bind h₂)
  obtain ⟨⟨ssnitEmployee, ssnitEmployer, tier2⟩, hfound, h₄⟩ :=
    run_orFail_bind_eq_ok (run_query_bind h₃)
  have h₅ := run_query_bind h₄
  have h₆ := run_query_bind h₅
  dsimp only at h₆
  have hrates : s.payrollRates? auth.institutionId = some
      { bands := (taxTable.2.bands.insertionSort fun a b => a.sequence ≤ b.sequence).map fun b =>
          { lowerBound := toNumber b.lowerBound, upperBound := b.upperBound, rate := b.rate },
        ssnitEmployee, ssnitEmployer, tier2,
        taxable := fun codeId => ((s.table .earningCode).entries.filter fun e =>
          e.2.institutionId = auth.institutionId).any fun c => c.1 = codeId && c.2.taxable } := by
    unfold Db.payrollRates?
    dsimp only at htable hfound ⊢
    rw [htable, hfound]
    rfl
  obtain ⟨id, s₁, hcreate, h₇⟩ := Proc.run_bind_eq_ok h₆
  obtain ⟨hid, hs₁⟩ := run_createPayrollRun_eq_ok hcreate
  obtain ⟨row, -, h₈⟩ := run_updateAs_bind_eq_ok h₇
  obtain ⟨hrun, ht⟩ := Prod.mk.inj h₈
  have hrunId : id = runId := Except.ok.inj hrun
  refine ⟨_, hrates, hrunId ▸ hid, ?_, ?_⟩
  · intro id'
    have hkept : t.find? .payrollRun id' = s₁.find? .payrollRun id' := by
      rw [← ht]
      exact (Db.find?_insert_of_ne (by decide) _ _ _).trans
        (Db.find?_modify_of_ne (by decide) _ _ _ _)
    rw [hkept, hs₁, find?_insertEntries (by decide), Db.find?_insert, ← hid, hrunId]
    rfl
  · have hkept : t.table .payrollEntry = s₁.table .payrollEntry := by
      rw [← ht]
      exact (Db.table_insert_of_ne (by decide) _ _).trans
        (Db.table_modify_of_ne (by decide) _ _ _)
    rw [hkept, hs₁, values_insertEntries, Db.table_insert_of_ne (by decide), ← hid, hrunId]
    rfl

/-- The entries of the run that is processed. -/
theorem run_processPayroll_entriesOf {auth : Auth} {now : DateTime} {periodId runId : Id}
    (hentries : s.EntriesHaveRuns)
    (h : (processPayroll auth now periodId).run s = (.ok runId, t)) {rates : PayrollRates}
    (hrates : s.payrollRates? auth.institutionId = some rates) :
    t.entriesOf runId =
      (s.payrollLines auth.institutionId rates).map (PayrollLine.entry runId) := by
  obtain ⟨rates', hrates', hid, -, hvalues⟩ := run_processPayroll_eq_ok h
  rw [hrates] at hrates'
  obtain rfl := Option.some.inj hrates'
  have hnone : (s.table .payrollEntry).values.filter (fun e => e.payrollRunId = runId) = [] := by
    rw [List.filter_eq_nil_iff]
    intro e he hrun
    have hthere := hentries e he
    have hfresh : s.find? .payrollRun (s.nextId .payrollRun) = none := OrderedMap.get?_nextKey _
    rw [of_decide_eq_true hrun, hid, hfresh] at hthere
    exact absurd hthere nofun
  have hall : ((s.payrollLines auth.institutionId rates).map (PayrollLine.entry runId)).filter
      (fun e => e.payrollRunId = runId) =
        (s.payrollLines auth.institutionId rates).map (PayrollLine.entry runId) := by
    rw [List.filter_eq_self]
    intro e he
    obtain ⟨l, -, rfl⟩ := List.mem_map.mp he
    exact decide_eq_true rfl
  rw [Db.entriesOf, hvalues, List.filter_append, hnone, hall, List.nil_append]

end Processing

end NexusEfos
