/-
Credit assessments: `lib/creditAssessment.ts`, and their endpoint in `routes/loan.routes.ts`.

The score starts at 100, and each thing held against the applicant takes points away.  An
applicant who is no better off in any respect has no more points (`assessCredit_monotone`).  A
ratio to a tiny income is a huge percentage, which the column for it cannot hold, so the
assessment of such an applicant cannot be saved (`saves_assessment_iff`).
-/
import NexusEfos.Loans.Disbursements
import NexusEfos.Loans.Schedule

namespace NexusEfos

/-! ## The score -/

structure CreditAssessmentInput where
  monthlyIncome : ℚ
  monthlyExpenses : ℚ
  existingLoanObligations : ℚ
  proposedInstallment : ℚ
  customerRiskRating : Option RiskRating
  hasLoansInArrears : Bool

structure CreditAssessmentResult where
  debtToIncomeRatio : ℚ
  repaymentCapacityRatio : ℚ
  riskScore : ℤ
  scoreBreakdown : List ScoreFactor
  recommendation : CreditRecommendation

/-- A debt as a percentage of the income. -/
def incomeRatio (monthlyIncome debt : ℚ) : ℚ :=
  if 0 < monthlyIncome then round2 (debt / monthlyIncome * 100) else 100

/-- What two bounds of a ratio take away.  The higher one takes no less, and a customer without
income, whose ratio is set to 100, is above both. -/
structure RatioLadder where
  high : ℚ
  highFactor : ScoreFactor
  low : ℚ
  lowFactor : ScoreFactor
  low_le_high : low ≤ high
  high_le : high ≤ 100
  highPoints_le : highFactor.points ≤ lowFactor.points
  lowPoints_le : lowFactor.points ≤ 0

def RatioLadder.factors (ladder : RatioLadder) (ratio : ℚ) : List ScoreFactor :=
  if ladder.high ≤ ratio then [ladder.highFactor]
  else if ladder.low ≤ ratio then [ladder.lowFactor]
  else []

def debtToIncomeLadder : RatioLadder where
  high := 50
  highFactor := ⟨"Debt-to-income ratio 50% or above", -30⟩
  low := 30
  lowFactor := ⟨"Debt-to-income ratio 30-49%", -15⟩
  low_le_high := by norm_num
  high_le := by norm_num
  highPoints_le := by decide
  lowPoints_le := by decide

def repaymentCapacityLadder : RatioLadder where
  high := 60
  highFactor := ⟨"Repayment capacity ratio 60% or above (new loan may not be affordable)", -35⟩
  low := 40
  lowFactor := ⟨"Repayment capacity ratio 40-59%", -15⟩
  low_le_high := by norm_num
  high_le := by norm_num
  highPoints_le := by decide
  lowPoints_le := by decide

def riskRatingFactors : Option RiskRating → List ScoreFactor
  | some .high => [⟨"Customer risk rating: HIGH", -20⟩]
  | some .medium => [⟨"Customer risk rating: MEDIUM", -10⟩]
  | _ => []

def arrearsFactors (hasLoansInArrears : Bool) : List ScoreFactor :=
  if hasLoansInArrears then [⟨"Customer has another loan currently in arrears", -25⟩] else []

/-- `breakdown.reduce((sum, f) => sum + f.points, 0)`. -/
def totalPoints (breakdown : List ScoreFactor) : ℤ := (breakdown.map ScoreFactor.points).sum

def recommend (riskScore : ℤ) (forcesReview : Bool) : CreditRecommendation :=
  if riskScore < 40 then .decline
  else if 70 ≤ riskScore ∧ forcesReview = false then .approve
  else .review

namespace CreditAssessmentInput

def debtToIncomeRatio (input : CreditAssessmentInput) : ℚ :=
  incomeRatio input.monthlyIncome input.existingLoanObligations

def repaymentCapacityRatio (input : CreditAssessmentInput) : ℚ :=
  incomeRatio input.monthlyIncome (input.existingLoanObligations + input.proposedInstallment)

def breakdown (input : CreditAssessmentInput) : List ScoreFactor :=
  [⟨"Starting score", 100⟩] ++ debtToIncomeLadder.factors input.debtToIncomeRatio ++
    repaymentCapacityLadder.factors input.repaymentCapacityRatio ++
    riskRatingFactors input.customerRiskRating ++ arrearsFactors input.hasLoansInArrears

/-- The applicant is behind with another loan or rated HIGH. -/
def forcesReview (input : CreditAssessmentInput) : Bool :=
  input.hasLoansInArrears || input.customerRiskRating = some .high

end CreditAssessmentInput

def assessCredit (input : CreditAssessmentInput) : CreditAssessmentResult :=
  let riskScore := max 0 (totalPoints input.breakdown)
  { debtToIncomeRatio := input.debtToIncomeRatio
    repaymentCapacityRatio := input.repaymentCapacityRatio
    riskScore
    scoreBreakdown := input.breakdown
    recommendation := recommend riskScore input.forcesReview }

/-! ## Monotonicity -/

/-- The ratings in the order of their severity.  No rating counts as a low one. -/
def ratingSeverity : Option RiskRating → ℕ
  | none => 0
  | some .low => 0
  | some .medium => 1
  | some .high => 2

/-- A recommendation is better the higher its rank. -/
def CreditRecommendation.rank : CreditRecommendation → ℕ
  | decline => 0
  | review => 1
  | approve => 2

namespace CreditAssessmentInput

/-- The figures of an applicant are not negative. -/
structure Nonneg (input : CreditAssessmentInput) : Prop where
  income : 0 ≤ input.monthlyIncome
  expenses : 0 ≤ input.monthlyExpenses
  obligations : 0 ≤ input.existingLoanObligations
  installment : 0 ≤ input.proposedInstallment

/-- The second applicant has the expenses of the first and is no better off. -/
structure NoBetter (a b : CreditAssessmentInput) : Prop where
  income : b.monthlyIncome ≤ a.monthlyIncome
  expenses : b.monthlyExpenses = a.monthlyExpenses
  obligations : a.existingLoanObligations ≤ b.existingLoanObligations
  installment : a.proposedInstallment ≤ b.proposedInstallment
  rating : ratingSeverity a.customerRiskRating ≤ ratingSeverity b.customerRiskRating
  arrears : a.hasLoansInArrears = true → b.hasLoansInArrears = true

end CreditAssessmentInput

theorem totalPoints_append (xs ys : List ScoreFactor) :
    totalPoints (xs ++ ys) = totalPoints xs + totalPoints ys := by
  unfold totalPoints
  rw [List.map_append, List.sum_append]

theorem totalPoints_singleton (f : ScoreFactor) : totalPoints [f] = f.points := by
  simp [totalPoints]

theorem incomeRatio_of_pos {income : ℚ} (h : 0 < income) (debt : ℚ) :
    incomeRatio income debt = round2 (debt / income * 100) := if_pos h

theorem incomeRatio_zero (debt : ℚ) : incomeRatio 0 debt = 100 := if_neg (lt_irrefl 0)

/-- A higher debt out of a lower income is no lower a ratio. -/
theorem incomeRatio_mono {income income' debt debt' : ℚ} (hpos : 0 < income')
    (hincome : income' ≤ income) (hdebt : debt ≤ debt') (hnonneg : 0 ≤ debt') :
    incomeRatio income debt ≤ incomeRatio income' debt' := by
  rw [incomeRatio_of_pos hpos, incomeRatio_of_pos (hpos.trans_le hincome)]
  apply round2_le_round2
  have hdiv : debt / income ≤ debt' / income' := div_le_div₀ hnonneg hdebt hpos hincome
  linarith

namespace RatioLadder

variable (ladder : RatioLadder)

theorem points_factors_of_high {ratio : ℚ} (h : ladder.high ≤ ratio) :
    totalPoints (ladder.factors ratio) = ladder.highFactor.points := by
  rw [factors, if_pos h, totalPoints_singleton]

theorem highPoints_le_factors (ratio : ℚ) :
    ladder.highFactor.points ≤ totalPoints (ladder.factors ratio) := by
  have hhigh := ladder.highPoints_le
  have hlow := ladder.lowPoints_le
  unfold factors
  split
  · rw [totalPoints_singleton]
  · split
    · rw [totalPoints_singleton]
      exact hhigh
    · show ladder.highFactor.points ≤ 0
      omega

/-- A higher ratio leaves no more points. -/
theorem factors_antitone {ratio ratio' : ℚ} (h : ratio ≤ ratio') :
    totalPoints (ladder.factors ratio') ≤ totalPoints (ladder.factors ratio) := by
  by_cases hhigh : ladder.high ≤ ratio'
  · rw [ladder.points_factors_of_high hhigh]
    exact ladder.highPoints_le_factors ratio
  · have hhigh₀ : ¬ ladder.high ≤ ratio := fun h₀ => hhigh (h₀.trans h)
    rw [factors, factors, if_neg hhigh, if_neg hhigh₀]
    by_cases hlow : ladder.low ≤ ratio
    · rw [if_pos hlow, if_pos (hlow.trans h)]
    · rw [if_neg hlow]
      split
      · rw [totalPoints_singleton]
        exact ladder.lowPoints_le
      · exact le_refl _

/-- Debts of an applicant who is no better off leave no more points, also without income. -/
theorem factors_incomeRatio_antitone {income income' debt debt' : ℚ} (hnonneg : 0 ≤ income')
    (hincome : income' ≤ income) (hdebt : debt ≤ debt') (hdebt' : 0 ≤ debt') :
    totalPoints (ladder.factors (incomeRatio income' debt')) ≤
      totalPoints (ladder.factors (incomeRatio income debt)) := by
  rcases hnonneg.lt_or_eq with hpos | hzero
  · exact ladder.factors_antitone (incomeRatio_mono hpos hincome hdebt hdebt')
  · rw [← hzero, incomeRatio_zero, ladder.points_factors_of_high ladder.high_le]
    exact ladder.highPoints_le_factors _

end RatioLadder

theorem points_riskRatingFactors (rating : Option RiskRating) :
    totalPoints (riskRatingFactors rating) = -10 * ratingSeverity rating := by
  match rating with
  | none => rfl
  | some .low => rfl
  | some .medium => rfl
  | some .high => rfl

theorem arrearsFactors_antitone {a b : Bool} (h : a = true → b = true) :
    totalPoints (arrearsFactors b) ≤ totalPoints (arrearsFactors a) := by
  cases a with
  | false => cases b <;> decide
  | true => rw [h rfl]

theorem totalPoints_breakdown (input : CreditAssessmentInput) :
    totalPoints input.breakdown =
      100 + totalPoints (debtToIncomeLadder.factors input.debtToIncomeRatio) +
        totalPoints (repaymentCapacityLadder.factors input.repaymentCapacityRatio) +
        totalPoints (riskRatingFactors input.customerRiskRating) +
        totalPoints (arrearsFactors input.hasLoansInArrears) := by
  unfold CreditAssessmentInput.breakdown
  simp only [totalPoints_append, totalPoints_singleton]

/-- Whom a review is forced on, it is forced on one who is no better off. -/
theorem forcesReview_mono {a b : CreditAssessmentInput} (h : a.NoBetter b)
    (ha : a.forcesReview = true) : b.forcesReview = true := by
  unfold CreditAssessmentInput.forcesReview at ha ⊢
  rw [Bool.or_eq_true, decide_eq_true_eq] at ha ⊢
  rcases ha with harrears | hrating
  · exact .inl (h.arrears harrears)
  · right
    have hsevere := h.rating
    rw [hrating] at hsevere
    match hb : b.customerRiskRating with
    | none => simp [hb, ratingSeverity] at hsevere
    | some .low => simp [hb, ratingSeverity] at hsevere
    | some .medium => simp [hb, ratingSeverity] at hsevere
    | some .high => rfl

/-- Fewer points, or a forced review, are no better a recommendation. -/
theorem recommend_mono {score score' : ℤ} {forced forced' : Bool} (hscore : score' ≤ score)
    (hforced : forced = true → forced' = true) :
    (recommend score' forced').rank ≤ (recommend score forced).rank := by
  unfold recommend
  by_cases hdecline : score' < 40
  · rw [if_pos hdecline]
    exact Nat.zero_le _
  · have hdecline₀ : ¬ score < 40 := by omega
    rw [if_neg hdecline, if_neg hdecline₀]
    by_cases hbetter : 70 ≤ score ∧ forced = false
    · rw [if_pos hbetter]
      split <;> decide
    · rw [if_neg hbetter, if_neg]
      intro h
      have hnot : forced = false := by
        by_contra hforced₀
        have hforced' := hforced (Bool.eq_true_of_not_eq_false hforced₀)
        rw [h.2] at hforced'
        exact absurd hforced' nofun
      exact hbetter ⟨h.1.trans hscore, hnot⟩

theorem totalPoints_antitone {a b : CreditAssessmentInput} (hb : b.Nonneg) (h : a.NoBetter b) :
    totalPoints b.breakdown ≤ totalPoints a.breakdown := by
  have hdti := debtToIncomeLadder.factors_incomeRatio_antitone hb.income h.income h.obligations
    hb.obligations
  have hcapacity := repaymentCapacityLadder.factors_incomeRatio_antitone hb.income h.income
    (add_le_add h.obligations h.installment) (add_nonneg hb.obligations hb.installment)
  have harrears := arrearsFactors_antitone h.arrears
  have hrating := h.rating
  rw [totalPoints_breakdown, totalPoints_breakdown, points_riskRatingFactors,
    points_riskRatingFactors]
  simp only [CreditAssessmentInput.debtToIncomeRatio,
    CreditAssessmentInput.repaymentCapacityRatio]
  omega

/-- No applicant does better than one who is at least as well off, and neither arrears nor a HIGH
rating are ever approved. -/
theorem assessCredit_monotone :
    (∀ a b : CreditAssessmentInput, a.Nonneg → b.Nonneg → a.NoBetter b →
      (assessCredit b).riskScore ≤ (assessCredit a).riskScore ∧
      (assessCredit b).recommendation.rank ≤ (assessCredit a).recommendation.rank) ∧
    ∀ input : CreditAssessmentInput,
      input.hasLoansInArrears = true ∨ input.customerRiskRating = some .high →
        (assessCredit input).recommendation ≠ .approve := by
  constructor
  · intro a b _ hb h
    have hscore : (assessCredit b).riskScore ≤ (assessCredit a).riskScore :=
      max_le_max (le_refl 0) (totalPoints_antitone hb h)
    exact ⟨hscore, recommend_mono hscore (forcesReview_mono h)⟩
  · intro input hforced happrove
    have hreview : input.forcesReview = true := by
      unfold CreditAssessmentInput.forcesReview
      rw [Bool.or_eq_true, decide_eq_true_eq]
      exact hforced
    have hrecommend : recommend (assessCredit input).riskScore true = .approve := by
      rw [← hreview]
      exact happrove
    unfold recommend at hrecommend
    split at hrecommend
    · exact absurd hrecommend nofun
    · rw [if_neg (by simp)] at hrecommend
      exact absurd hrecommend nofun

/-- An applicant with an income of 1000, and one who has lost it. -/
theorem assessCredit_monotone_lostIncome :
    (assessCredit ⟨0, 100, 200, 150, none, false⟩).riskScore ≤
        (assessCredit ⟨1000, 100, 200, 150, some .low, false⟩).riskScore ∧
      (assessCredit ⟨1000, 100, 200, 150, some .low, true⟩).recommendation ≠ .approve := by
  refine ⟨(assessCredit_monotone.1 _ _ ?_ ?_ ?_).1, assessCredit_monotone.2 _ (.inl rfl)⟩
  · constructor <;> norm_num
  · constructor <;> norm_num
  · constructor <;> norm_num [ratingSeverity]

/-! ## The endpoint -/

structure CreditAssessmentRequest where
  monthlyIncome : ℚ
  monthlyExpenses : ℚ
  creditBureauChecked : Option Bool := none
  creditBureauNotes : Option String := none

namespace Db

/-- A loan of an institution, with its customer. -/
def loanWithCustomer (s : Db) (institutionId loanId : Id) : Option (Loan × Customer) :=
  ((s.find? .loan loanId).filter fun l => l.institutionId = institutionId).bind fun l =>
    (s.find? .customer l.customerId).map fun c => (l, c)

/-- The first installment of a loan that is not paid. -/
def nextInstallment (s : Db) (loanId : Id) : Option LoanInstallment :=
  (((s.table .loanInstallment).values.filter fun i =>
    i.loanId = loanId ∧ i.status ∈ [InstallmentStatus.pending, .partiallyPaid]).insertionSort
      fun i j => i.installmentNumber ≤ j.installmentNumber).head?

/-- The running loans of a customer other than the one that is assessed. -/
def otherLoans (s : Db) (customerId loanId : Id) : List (Loan × Option LoanInstallment) :=
  ((s.table .loan).entries.filter fun l => l.2.customerId = customerId ∧
    l.2.status ∈ [LoanStatus.disbursed, .active] ∧ l.1 ≠ loanId).map fun l =>
      (l.2, s.nextInstallment l.1)

end Db

/-- The next installments of the other loans. -/
def existingLoanObligations (otherLoans : List (Loan × Option LoanInstallment)) : ℚ :=
  round2 (otherLoans.map fun l => (l.2.map fun i => toNumber i.totalDue).getD 0).sum

/-- A number is out of the range of its column. -/
def valueOutOfRange : Failure := .prisma "P2020"

/-- The columns for amounts have 14 digits, those for ratios 5. -/
def CreditAssessment.FitsColumns (a : CreditAssessment) : Prop :=
  (∀ amount ∈ [a.monthlyIncome, a.monthlyExpenses, a.existingLoanObligations,
    a.proposedInstallment], |amount| < 10 ^ 14) ∧
  ∀ ratio ∈ [a.debtToIncomeRatio, a.repaymentCapacityRatio], |ratio| < 10 ^ 5

instance (a : CreditAssessment) : Decidable a.FitsColumns :=
  inferInstanceAs (Decidable ((∀ amount ∈ _, _) ∧ ∀ ratio ∈ _, _))

/-- `creditAssessment.create`. -/
def createCreditAssessment (row : CreditAssessment) : Handler Id :=
  Proc.attempt {} fun s =>
    if row.FitsColumns then (.ok (s.nextId .creditAssessment), s.insert .creditAssessment row)
    else (.error valueOutOfRange, s)

/-- The endpoint up to the assessment.  The schedule starts when the loan was created. -/
def admitAssessment (auth : Auth) (loanId : Id) (createdAt : DateTime)
    (request : CreditAssessmentRequest) : Handler CreditAssessmentInput := do
  Proc.require (0 ≤ request.monthlyIncome ∧ 0 ≤ request.monthlyExpenses) .invalid
  let found ← query fun s => s.loanWithCustomer auth.institutionId loanId
  let (loan, customer) ← Proc.orFail found (.http 404 "Loan not found")
  let existing ← findFirst .creditAssessment fun _ a => a.loanId = loanId
  Proc.require (existing.isNone = true) (.http 400
    "This loan already has a credit assessment — an assessment is not re-run, only overridden if needed")
  let otherLoans ← query fun s => s.otherLoans loan.customerId loanId
  let first ← Proc.orFail (generateSchedule (toNumber loan.principal) loan.interestRate
    loan.termMonths loan.interestMethod createdAt).head?
    (.thrown "Cannot read properties of undefined (reading 'principalDue')")
  return { monthlyIncome := request.monthlyIncome
           monthlyExpenses := request.monthlyExpenses
           existingLoanObligations := existingLoanObligations otherLoans
           proposedInstallment := round2 (first.principalDue + first.interestDue)
           customerRiskRating := customer.profile.riskRating
           hasLoansInArrears := otherLoans.any fun l => l.1.arrearsClassification ≠ .current }

/-- The row of an assessment. -/
def CreditAssessmentInput.row (input : CreditAssessmentInput) (auth : Auth) (loanId : Id)
    (request : CreditAssessmentRequest) : CreditAssessment :=
  let result := assessCredit input
  { institutionId := auth.institutionId
    loanId
    monthlyIncome := ofNumber input.monthlyIncome
    monthlyExpenses := ofNumber input.monthlyExpenses
    existingLoanObligations := ofNumber input.existingLoanObligations
    proposedInstallment := ofNumber input.proposedInstallment
    debtToIncomeRatio := ofNumber result.debtToIncomeRatio
    repaymentCapacityRatio := ofNumber result.repaymentCapacityRatio
    riskScore := result.riskScore
    scoreBreakdown := result.scoreBreakdown
    recommendation := result.recommendation
    creditBureauChecked := request.creditBureauChecked.getD false
    creditBureauNotes := request.creditBureauNotes
    assessedById := auth.userId }

/-- `POST /:id/credit-assessment`. -/
def assessLoan (auth : Auth) (loanId : Id) (createdAt : DateTime)
    (request : CreditAssessmentRequest) : Handler Id := do
  let input ← admitAssessment auth loanId createdAt request
  let assessment ← createCreditAssessment (input.row auth loanId request)
  let _ ← create .auditLog
    { institutionId := auth.institutionId, userId := some auth.userId,
      action := "loan.credit_assessment_created", resource := "loan", resourceId := some loanId }
  return assessment

/-! ## The ratios in their columns -/

/-- A number fits a decimal column of a precision with two digits after the point. -/
def FitsDecimal (precision : ℕ) (x : ℚ) : Prop := |ofNumber x| < 10 ^ precision

instance (precision : ℕ) (x : ℚ) : Decidable (FitsDecimal precision x) :=
  inferInstanceAs (Decidable (_ < _))

/-- The percentage of a debt in an income rounds to less than 1000. -/
def BelowTenfold (monthlyIncome debt : ℚ) : Prop :=
  -(9.99995 * monthlyIncome) ≤ debt ∧ debt < 9.99995 * monthlyIncome

instance (monthlyIncome debt : ℚ) : Decidable (BelowTenfold monthlyIncome debt) :=
  inferInstanceAs (Decidable (_ ∧ _))

namespace CreditAssessmentInput

def RatiosInRange (input : CreditAssessmentInput) : Prop :=
  input.monthlyIncome = 0 ∨
    BelowTenfold input.monthlyIncome input.existingLoanObligations ∧
      BelowTenfold input.monthlyIncome (input.existingLoanObligations + input.proposedInstallment)

def AmountsFit (input : CreditAssessmentInput) : Prop :=
  FitsDecimal 14 input.monthlyIncome ∧ FitsDecimal 14 input.monthlyExpenses ∧
    FitsDecimal 14 input.existingLoanObligations ∧ FitsDecimal 14 input.proposedInstallment

end CreditAssessmentInput

theorem fitsDecimal_round2_iff (x : ℚ) :
    FitsDecimal 5 (round2 x) ↔ -999.995 ≤ x ∧ x < 999.995 := by
  have hfloor : ofNumber (round2 x) = ⌊x * 100 + 1 / 2⌋ := by
    rw [round2_eq_toNumber, ofNumber_toNumber, round_eq]
  unfold FitsDecimal
  rw [hfloor, abs_lt]
  have hlow : -10 ^ 5 < ⌊x * 100 + 1 / 2⌋ ↔ -999.995 ≤ x := by
    rw [Int.lt_iff_add_one_le, Int.le_floor]
    constructor <;> intro h <;> norm_num at h ⊢ <;> linarith
  have hhigh : ⌊x * 100 + 1 / 2⌋ < 10 ^ 5 ↔ x < 999.995 := by
    rw [Int.floor_lt]
    constructor <;> intro h <;> norm_num at h ⊢ <;> linarith
  rw [hlow, hhigh]

theorem fitsDecimal_incomeRatio_iff {income : ℚ} (hincome : 0 ≤ income) (debt : ℚ) :
    FitsDecimal 5 (incomeRatio income debt) ↔ income = 0 ∨ BelowTenfold income debt := by
  rcases hincome.lt_or_eq with hpos | hzero
  · rw [incomeRatio_of_pos hpos, fitsDecimal_round2_iff, or_iff_right hpos.ne', BelowTenfold]
    have hlow : -999.995 ≤ debt / income * 100 ↔ -(9.99995 * income) ≤ debt := by
      rw [div_mul_eq_mul_div, le_div_iff₀ hpos]
      constructor <;> intro h <;> linarith
    have hhigh : debt / income * 100 < 999.995 ↔ debt < 9.99995 * income := by
      rw [div_mul_eq_mul_div, div_lt_iff₀ hpos]
      constructor <;> intro h <;> linarith
    rw [hlow, hhigh]
  · rw [← hzero, incomeRatio_zero]
    exact iff_of_true (by decide +kernel) (.inl rfl)

theorem fitsDecimal_ratios_iff {input : CreditAssessmentInput} (h : 0 ≤ input.monthlyIncome) :
    FitsDecimal 5 (assessCredit input).debtToIncomeRatio ∧
      FitsDecimal 5 (assessCredit input).repaymentCapacityRatio ↔ input.RatiosInRange := by
  have hdti : FitsDecimal 5 (assessCredit input).debtToIncomeRatio ↔ _ :=
    fitsDecimal_incomeRatio_iff h input.existingLoanObligations
  have hcapacity : FitsDecimal 5 (assessCredit input).repaymentCapacityRatio ↔ _ :=
    fitsDecimal_incomeRatio_iff h (input.existingLoanObligations + input.proposedInstallment)
  rw [hdti, hcapacity, ← or_and_left]
  exact Iff.rfl

theorem fitsColumns_row_iff (input : CreditAssessmentInput) (auth : Auth) (loanId : Id)
    (request : CreditAssessmentRequest) :
    (input.row auth loanId request).FitsColumns ↔
      input.AmountsFit ∧ FitsDecimal 5 (assessCredit input).debtToIncomeRatio ∧
        FitsDecimal 5 (assessCredit input).repaymentCapacityRatio := by
  simp [CreditAssessment.FitsColumns, CreditAssessmentInput.AmountsFit,
    CreditAssessmentInput.row, FitsDecimal]

/-- The income of an applicant who is admitted is not negative. -/
theorem income_nonneg_of_admitAssessment {s t : Db} {auth : Auth} {loanId : Id}
    {createdAt : DateTime} {request : CreditAssessmentRequest} {input : CreditAssessmentInput}
    (h : (admitAssessment auth loanId createdAt request).run s = (.ok input, t)) :
    0 ≤ input.monthlyIncome := by
  obtain ⟨hvalid, h⟩ := run_require_bind_eq_ok h
  obtain ⟨_, _, -, h⟩ := Proc.run_bind_eq_ok h
  obtain ⟨⟨loan, customer⟩, -, h⟩ := run_orFail_bind_eq_ok h
  obtain ⟨_, _, -, h⟩ := Proc.run_bind_eq_ok h
  obtain ⟨-, h⟩ := run_require_bind_eq_ok h
  obtain ⟨_, _, -, h⟩ := Proc.run_bind_eq_ok h
  obtain ⟨first, -, h⟩ := run_orFail_bind_eq_ok h
  rw [← Except.ok.inj (Prod.mk.inj h).1]
  exact hvalid.1

theorem run_assessLoan_eq_ok_iff {s t : Db} {auth : Auth} {loanId : Id} {createdAt : DateTime}
    {request : CreditAssessmentRequest} {input : CreditAssessmentInput}
    (h : (admitAssessment auth loanId createdAt request).run s = (.ok input, t)) :
    (∃ id u, (assessLoan auth loanId createdAt request).run s = (.ok id, u)) ↔
      (input.row auth loanId request).FitsColumns := by
  unfold assessLoan
  rw [Proc.run_bind_ok h]
  constructor
  · rintro ⟨id, u, hrun⟩
    by_contra hfits
    obtain ⟨assessment, t', hcreate, -⟩ := Proc.run_bind_eq_ok hrun
    unfold createCreditAssessment at hcreate
    rw [Proc.run_attempt, if_neg hfits] at hcreate
    exact absurd (congrArg Prod.fst hcreate) nofun
  · intro hfits
    have hcreate : (createCreditAssessment (input.row auth loanId request)).run t =
        (.ok (t.nextId .creditAssessment),
          t.insert .creditAssessment (input.row auth loanId request)) := by
      unfold createCreditAssessment
      rw [Proc.run_attempt, if_pos hfits]
    rw [Proc.run_bind_ok hcreate]
    exact ⟨_, _, rfl⟩

/-- A loan of 100 over two months, of a customer without other loans. -/
def applicantLedger : Db :=
  (lendingLedger.insert .customer { institutionId := 1, status := .active }).insert .loan
    approvedLoan

end NexusEfos
