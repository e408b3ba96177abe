/-
Fixed assets: `lib/assetAccounting.ts`, `lib/assetDepreciation.ts`, and the
endpoints of `routes/asset.routes.ts` for depreciation and disposal.
-/
import NexusEfos.Operations.Payroll

namespace NexusEfos

/-! ## Depreciation -/

structure DepreciationInput where
  acquisitionCost : ℚ
  residualValue : ℚ
  usefulLifeMonths : ℕ
  method : DepreciationMethod
  annualRate : Option ℚ
  accumulatedDepreciationSoFar : ℚ
  monthsElapsed : ℕ

def calculateMonthlyDepreciation (input : DepreciationInput) : ℚ :=
  let depreciableBase := input.acquisitionCost - input.residualValue
  let currentNetBookValue := input.acquisitionCost - input.accumulatedDepreciationSoFar
  let remainingDepreciable := currentNetBookValue - input.residualValue
  if remainingDepreciable ≤ 0 then 0
  else if input.usefulLifeMonths ≤ input.monthsElapsed + 1 then round2 remainingDepreciable
  else
    let amount :=
      match input.method with
      | .straightLine => depreciableBase / input.usefulLifeMonths
      | .reducingBalance => currentNetBookValue * (input.annualRate.getD 0 / 100 / 12)
    round2 (min amount remainingDepreciable)

theorem wholeCent_calculateMonthlyDepreciation (input : DepreciationInput) :
    WholeCent (calculateMonthlyDepreciation input) := by
  unfold calculateMonthlyDepreciation
  dsimp only
  split
  · exact WholeCent.zero
  · split
    · exact wholeCent_round2 _
    · exact wholeCent_round2 _

def buildAssetDepreciationLines (amount : ℚ)
    (expenseAccountId accumulatedDepreciationAccountId : Id) : List LineInput :=
  twoLines expenseAccountId accumulatedDepreciationAccountId amount

/-- The depreciation journal, if the accounts are mapped and the period is open. -/
def postDepreciation (auth : Auth) (now : DateTime) (asset : Asset) (periodLabel : String)
    (amount : ℚ) : Handler (Option Id) := do
  let mappings ← findMany .assetGLAccountMapping fun _ m =>
    m.institutionId = auth.institutionId ∧
      m.purpose ∈ ["Depreciation Expense", "Accumulated Depreciation"]
  match both (firstAccountByPurpose mappings "Depreciation Expense")
      (firstAccountByPurpose mappings "Accumulated Depreciation") with
  | none => return none
  | some (expenseId, accumId) =>
    let glPeriod ← findPostablePeriod auth.institutionId now
    if glPeriod.any fun p => p.2.status = .opened then
      let lines := buildAssetDepreciationLines amount expenseId accumId
      let accountById ← query fun s => s.find? .gLAccount
      let journal ← createJournalAs
        { posts := lines,
          posting := some ⟨auth.institutionId, now, lines.map LineInput.accountId⟩ }
        { institutionId := auth.institutionId, type := .automatic,
          description := "Depreciation — " ++ asset.assetCode ++ " — " ++ periodLabel,
          status := .posted, postingDate := now, postedAt := some now,
          postedById := some auth.userId, createdById := auth.userId,
          lines := lines.map LineInput.stored }
      applyLinesById accountById lines
      return some journal
    else return none

/-- `POST /assets/:id/process-depreciation`. -/
def processDepreciation (auth : Auth) (now : DateTime) (assetId : Id) (periodLabel : String) :
    Handler Id := do
  Proc.require (periodLabel ≠ "") (.http 400 "periodLabel is required (e.g. 'January 2026')")
  let found ← findById .asset assetId fun a => a.institutionId = auth.institutionId
  let asset ← Proc.orFail found (.http 404 "Asset not found")
  Proc.require (asset.status ≠ .disposed)
    (.http 400 "A disposed asset cannot be depreciated further")
  let existing ← findFirst .assetDepreciationEntry fun _ e =>
    e.assetId = assetId ∧ e.periodLabel = periodLabel
  Proc.require (existing.isNone = true)
    (.http 400 ("Depreciation for " ++ periodLabel ++ " has already been posted for this asset"))
  let monthsElapsed ← count .assetDepreciationEntry fun _ e => e.assetId = assetId
  let amount := calculateMonthlyDepreciation
    { acquisitionCost := toNumber asset.acquisitionCost,
      residualValue := toNumber asset.residualValue, usefulLifeMonths := asset.usefulLifeMonths,
      method := asset.depreciationMethod, annualRate := asset.depreciationRate,
      accumulatedDepreciationSoFar := toNumber asset.accumulatedDepreciation, monthsElapsed }
  Proc.require (0 < amount) (.http 400 "This asset is already fully depreciated")
  let newAccumulated := round2 (toNumber asset.accumulatedDepreciation + amount)
  let newNetBookValue := round2 (toNumber asset.acquisitionCost - newAccumulated)
  let journalId ← postDepreciation auth now asset periodLabel amount
  let entry ← create .assetDepreciationEntry
    { institutionId := auth.institutionId, assetId, periodLabel,
      depreciationAmount := ofNumber amount, accumulatedDepreciation := ofNumber newAccumulated,
      netBookValue := ofNumber newNetBookValue, journalId, postedById := auth.userId }
  let _ ← update .asset assetId fun a =>
    { a with accumulatedDepreciation := ofNumber newAccumulated }
  let _ ← create .auditLog
    { institutionId := auth.institutionId, userId := some auth.userId,
      action := "asset.depreciation_posted", resource := "asset", resourceId := some assetId }
  return entry

/-! ## Allocation and verification -/

/-- Who has an asset. -/
structure AssetHolder where
  employeeId : Option Id := none
  departmentId : Option Id := none
  branchId : Option Id := none
  deriving DecidableEq

/-- The asset with another holder. -/
def Asset.setHolder (holder : AssetHolder) (a : Asset) : Asset :=
  { a with currentEmployeeId := holder.employeeId, currentDepartmentId := holder.departmentId,
           currentBranchId := holder.branchId }

/-- `POST /allocations`. -/
def allocateAsset (auth : Auth) (assetId : Id) (holder : AssetHolder) (notes : Option String) :
    Handler Id := do
  Proc.require (holder.employeeId.isSome ∨ holder.departmentId.isSome ∨ holder.branchId.isSome)
    (.http 400 "At least one of employeeId, departmentId, or branchId is required")
  let found ← findById .asset assetId fun a => a.institutionId = auth.institutionId
  let asset ← Proc.orFail found (.http 404 "Asset not found")
  Proc.require (asset.status ≠ .disposed) (.http 400 "A disposed asset cannot be reassigned")
  let existingAllocation ← findFirst .assetAllocation fun _ a =>
    a.assetId = assetId ∧ a.returnedAt = none
  Proc.require (existingAllocation.isNone = true)
    (.http 400 "This asset is already allocated — return it first before reallocating")
  let allocation ← create .assetAllocation
    { institutionId := auth.institutionId, assetId, employeeId := holder.employeeId,
      departmentId := holder.departmentId, branchId := holder.branchId,
      allocatedById := auth.userId, notes }
  let _ ← updateAs { moves := some (.asset assetId) } .asset assetId (Asset.setHolder holder)
  let _ ← create .auditLog
    { institutionId := auth.institutionId, userId := some auth.userId, action := "asset.allocate",
      resource := "asset", resourceId := some assetId }
  return allocation

/-- `POST /allocations/:id/return`. -/
def returnAsset (auth : Auth) (now : DateTime) (allocationId : Id) (returnCondition : String) :
    Handler AssetAllocation := do
  Proc.require (returnCondition ≠ "") (.http 400 "A return condition note is required")
  let found ← findById .assetAllocation allocationId fun a =>
    a.institutionId = auth.institutionId ∧ a.returnedAt = none
  let allocation ← Proc.orFail found (.http 404 "Active allocation not found")
  let updated ← update .assetAllocation allocationId fun a =>
    { a with returnedAt := some now, returnCondition := some returnCondition }
  let _ ← updateAs { moves := some (.asset allocation.assetId) } .asset allocation.assetId
    (Asset.setHolder {})
  let _ ← create .auditLog
    { institutionId := auth.institutionId, userId := some auth.userId, action := "asset.return",
      resource := "asset", resourceId := some allocation.assetId }
  return updated

/-- `POST /verifications`. -/
def verifyAsset (auth : Auth) (assetId : Id) (locationConfirmed custodianConfirmed : Bool)
    (condition : AssetCondition) : Handler Id := do
  let found ← findById .asset assetId fun a => a.institutionId = auth.institutionId
  let _ ← Proc.orFail found (.http 404 "Asset not found")
  let record ← create .assetVerificationRecord
    { institutionId := auth.institutionId, assetId, verifiedById := auth.userId,
      locationConfirmed, custodianConfirmed, condition,
      variance := !locationConfirmed || !custodianConfirmed || decide (condition = .missing) ||
        decide (condition = .damaged) }
  if condition = .missing then
    let _ ← updateAs { moves := some (.asset assetId) } .asset assetId fun a =>
      { a with status := .lost }
  let _ ← create .auditLog
    { institutionId := auth.institutionId, userId := some auth.userId, action := "asset.verified",
      resource := "asset", resourceId := some assetId }
  return record

/-! ## Disposal -/

def buildAssetDisposalLines (acquisitionCost accumulatedDepreciation saleProceeds : ℚ)
    (accountIds : String → Option Id) : List DraftLine :=
  let netBookValue := round2 (acquisitionCost - accumulatedDepreciation)
  let gainLoss := round2 (saleProceeds - netBookValue)
  let removed : List DraftLine :=
    [{ accountId := accountIds "Accumulated Depreciation", debit := accumulatedDepreciation,
       credit := 0 },
      { accountId := accountIds "Fixed Asset", debit := 0, credit := acquisitionCost }]
  let proceeds : List DraftLine :=
    if 0 < saleProceeds then
      [{ accountId := accountIds "Cash/Bank (Disposal Proceeds)", debit := saleProceeds,
         credit := 0 }]
    else []
  let result : List DraftLine :=
    if 0 < gainLoss then
      [{ accountId := accountIds "Gain on Disposal", debit := 0, credit := gainLoss }]
    else if gainLoss < 0 then
      [{ accountId := accountIds "Loss on Disposal", debit := -gainLoss, credit := 0 }]
    else []
  (removed ++ proceeds ++ result).filter DraftLine.hasAmount

/-- `disposalSchema`. -/
structure DisposalBody where
  assetId : Id
  disposalType : AssetDisposalType
  disposalDate : DateTime
  saleProceeds : Option ℚ
  reason : String

/-- `POST /disposals`. -/
def requestDisposal (auth : Auth) (body : DisposalBody) : Handler Id := do
  Proc.require (0 ≤ body.saleProceeds.getD 0 ∧ 2 ≤ jsLength body.reason) .invalid
  Proc.require (body.disposalType = .sale → body.saleProceeds.getD 0 ≠ 0)
    (.http 400 "saleProceeds is required for a SALE disposal")
  let found ← findById .asset body.assetId fun a => a.institutionId = auth.institutionId
  let asset ← Proc.orFail found (.http 404 "Asset not found")
  Proc.require (asset.status ≠ .disposed) (.http 400 "This asset has already been disposed")
  let netBookValueAtDisposal :=
    round2 (toNumber asset.acquisitionCost - toNumber asset.accumulatedDepreciation)
  let saleProceeds := body.saleProceeds.getD 0
  let gainLoss := round2 (saleProceeds - netBookValueAtDisposal)
  let disposal ← create .assetDisposal
    { institutionId := auth.institutionId, assetId := body.assetId,
      disposalType := body.disposalType, disposalDate := body.disposalDate,
      saleProceeds := body.saleProceeds.map ofNumber,
      netBookValueAtDisposal := ofNumber netBookValueAtDisposal, gainLoss := ofNumber gainLoss,
      reason := body.reason, requestedById := auth.userId }
  let _ ← create .approvalRequest
    { institutionId := auth.institutionId, type := .assetDisposal, targetType := "AssetDisposal",
      targetId := disposal, reason := some body.reason, requestedById := auth.userId }
  let _ ← create .auditLog
    { institutionId := auth.institutionId, userId := some auth.userId,
      action := "asset_disposal.requested", resource := "asset_disposal",
      resourceId := some disposal }
  return disposal

end NexusEfos
