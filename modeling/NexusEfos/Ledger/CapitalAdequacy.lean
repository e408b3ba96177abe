/-
Capital adequacy: `lib/capitalAdequacy.ts`, and `computeSnapshot` of
`routes/capitalAdequacy.routes.ts`.

Unlike the financial statements, the snapshot reads the balances that are stored with the
accounts.
-/
import NexusEfos.Ledger.GeneralLedger
import NexusEfos.Prisma

namespace NexusEfos

/-! ## The rules -/

def maxAT1OfRWA : ℚ := 3 / 2

def maxTier2OfRWA : ℚ := 2

def pastDueThresholdDays : ℤ := 90

inductive RegulatoryClassification
  | current | olem | substandard | doubtful | loss
  deriving DecidableEq

/-- The classification, and the rate of its provision. -/
def classifyLoanForRegulatory (daysInArrears : ℤ) : RegulatoryClassification × ℚ :=
  if daysInArrears ≤ 30 then (.current, 1 / 100)
  else if daysInArrears ≤ pastDueThresholdDays then (.olem, 1 / 10)
  else if daysInArrears ≤ 180 then (.substandard, 1 / 4)
  else if daysInArrears ≤ 365 then (.doubtful, 1 / 2)
  else (.loss, 1)

def retailMaxExposure : ℚ := 500000

def loanRiskWeightPercent (outstanding : ℚ) (daysInArrears : ℤ) (customerSegment : CustomerSegment) :
    ℚ :=
  if pastDueThresholdDays < daysInArrears then
    match (classifyLoanForRegulatory daysInArrears).1 with
    | .substandard => 150
    | .doubtful => 100
    | _ => 0
  else if customerSegment = .individual ∧ outstanding ≤ retailMaxExposure then 75
  else 100

/-! ## The snapshot -/

/-- A loan with the segment of its customer and what has been paid on its installments. -/
structure SnapshotLoan where
  principal : Cents
  daysInArrears : ℤ
  customerSegment : CustomerSegment
  principalPaid : List Cents

def SnapshotLoan.outstanding (l : SnapshotLoan) : ℚ :=
  max 0 (round2 (toNumber l.principal - (l.principalPaid.map toNumber).sum))

/-- The sums over the loans. -/
structure LoanTotals where
  loanRWA : ℚ := 0
  grossLoans : ℚ := 0
  nplLoans : ℚ := 0
  classificationCounts : RegulatoryClassification → ℕ × ℚ := fun _ => (0, 0)

def LoanTotals.add (t : LoanTotals) (l : SnapshotLoan) : LoanTotals :=
  let classification := (classifyLoanForRegulatory l.daysInArrears).1
  { loanRWA := t.loanRWA +
      l.outstanding * (loanRiskWeightPercent l.outstanding l.daysInArrears l.customerSegment / 100)
    grossLoans := t.grossLoans + l.outstanding
    nplLoans := if pastDueThresholdDays < l.daysInArrears then t.nplLoans + l.outstanding
      else t.nplLoans
    classificationCounts := Function.update t.classificationCounts classification
      ((t.classificationCounts classification).1 + 1,
        (t.classificationCounts classification).2 + l.outstanding) }

structure CapitalSnapshot where
  rawCet1 : ℚ
  rawAt1 : ℚ
  rawTier2 : ℚ
  admittedAT1 : ℚ
  admittedTier2 : ℚ
  totalRWA : ℚ
  loanRWA : ℚ
  otherAssetRWA : ℚ
  unclassifiedAssetBalance : ℚ
  cet1Ratio : ℚ
  tier1Ratio : ℚ
  totalCAR : ℚ
  nplRatio : ℚ
  grossLoans : ℚ
  classificationCounts : RegulatoryClassification → ℕ × ℚ

/-- The capital of a tier. -/
def tierCapital (capitalAccounts : List (Id × GLAccount)) (tier : GLCapitalTier) : ℚ :=
  ((capitalAccounts.filter fun a => a.2.capitalTier = some tier).map fun a => toNumber a.2.balance).sum

/-- An asset, weighted by its risk.  One without a weight counts in full. -/
def GLAccount.weighted (a : GLAccount) : ℚ :=
  match a.baselRiskWeightPercent with
  | some percent => toNumber a.balance * (percent / 100)
  | none => toNumber a.balance

/-- A ratio in percent, of assets that may be none. -/
def percentOf (x total : ℚ) : ℚ := if 0 < total then round2 (x / total * 100) else 0

def computeSnapshot (institutionId : Id) : Handler CapitalSnapshot := do
  let capitalAccounts ← findMany .gLAccount fun _ a =>
    a.institutionId = institutionId ∧ a.capitalTier.isSome
  let rawCet1 := tierCapital capitalAccounts .cet1
  let rawAt1 := tierCapital capitalAccounts .additionalTier1
  let rawTier2 := tierCapital capitalAccounts .tier2
  let loans ← query fun s => (s.table .loan).entries.filterMap fun l =>
    if l.2.institutionId = institutionId ∧
        l.2.status ∈ [LoanStatus.disbursed, .active, .defaulted] then
      (s.find? .customer l.2.customerId).map fun c =>
        { principal := l.2.principal, daysInArrears := l.2.daysInArrears,
          customerSegment := c.profile.segment,
          principalPaid := ((s.table .loanInstallment).values.filter fun i =>
            i.loanId = l.1).map LoanInstallment.principalPaid : SnapshotLoan }
    else none
  let totals := loans.foldl LoanTotals.add {}
  let assetAccounts ← findMany .gLAccount fun _ a =>
    a.institutionId = institutionId ∧ a.category = .asset
  let otherAssetRWA := (assetAccounts.map fun a => a.2.weighted).sum
  let unclassifiedAssetBalance := ((assetAccounts.filter fun a =>
    a.2.baselRiskWeightPercent.isNone).map fun a => toNumber a.2.balance).sum
  let totalRWA := round2 (totals.loanRWA + otherAssetRWA)
  let admittedAT1 := min rawAt1 (totalRWA * (maxAT1OfRWA / 100))
  let admittedTier2 := min rawTier2 (totalRWA * (maxTier2OfRWA / 100))
  return { rawCet1 := round2 rawCet1, rawAt1 := round2 rawAt1, rawTier2 := round2 rawTier2,
           admittedAT1 := round2 admittedAT1, admittedTier2 := round2 admittedTier2, totalRWA,
           loanRWA := round2 totals.loanRWA, otherAssetRWA := round2 otherAssetRWA,
           unclassifiedAssetBalance := round2 unclassifiedAssetBalance,
           cet1Ratio := percentOf rawCet1 totalRWA,
           tier1Ratio := percentOf (rawCet1 + admittedAT1) totalRWA,
           totalCAR := percentOf (rawCet1 + admittedAT1 + admittedTier2) totalRWA,
           nplRatio := percentOf totals.nplLoans totals.grossLoans,
           grossLoans := round2 totals.grossLoans,
           classificationCounts := totals.classificationCounts }

end NexusEfos
