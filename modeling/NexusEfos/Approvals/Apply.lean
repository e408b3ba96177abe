/-
The effect of an approval: `applyApproval` of `routes/approvals.routes.ts`, and
`lib/customerMerge.ts`.

The effect runs inside the transaction that resolves the request.  Each type of
request has its own, and the larger ones are functions of their own here.
-/
import NexusEfos.Loans.Schedule
import NexusEfos.Operations.Assets
import NexusEfos.Savings.Transactions

namespace NexusEfos

/-! ## Customers -/

/-- `{ ...profile, ...patch }`. -/
def CustomerProfilePatch.apply (patch : CustomerProfilePatch) (p : CustomerProfile) :
    CustomerProfile :=
  { fullName := patch.fullName.getD p.fullName
    phone := patch.phone.getD p.phone
    email := patch.email.getD p.email
    idType := patch.idType.getD p.idType
    idNumber := patch.idNumber.getD p.idNumber
    branchId := patch.branchId.getD p.branchId
    address := patch.address.getD p.address
    segment := patch.segment.getD p.segment
    riskRating := patch.riskRating.getD p.riskRating
    preferredChannel := patch.preferredChannel.getD p.preferredChannel
    preferredLanguage := patch.preferredLanguage.getD p.preferredLanguage
    smsEnabled := patch.smsEnabled.getD p.smsEnabled
    emailEnabled := patch.emailEnabled.getD p.emailEnabled
    whatsappEnabled := patch.whatsappEnabled.getD p.whatsappEnabled
    marketingEnabled := patch.marketingEnabled.getD p.marketingEnabled
    transactionAlertsEnabled := patch.transactionAlertsEnabled.getD p.transactionAlertsEnabled
    statementDeliveryEnabled := patch.statementDeliveryEnabled.getD p.statementDeliveryEnabled }

/-- The database client refuses a call that lacks a required field. -/
def validationError : Failure := .thrown "PrismaClientValidationError"

def addAccountHolder (request : ApprovalRequest) : Handler Unit := do
  let customerId ← Proc.orFail request.payload.customerId validationError
  let role ← Proc.orFail request.payload.role validationError
  let _ ← create .accountHolder
    { institutionId := request.institutionId, customerId, role, loanId := request.payload.loanId,
      savingsAccountId := request.payload.savingsAccountId,
      addedById := some request.requestedById }

/-- One model of a merge: the keys of the rows of the merged customer, which move
to the primary one. -/
def reassign (m : Model) (customerId : Row m → Id) (setCustomerId : Id → Row m → Row m)
    (primaryCustomerId mergedCustomerId : Id) : Handler (List (Model × Id)) := do
  let records ← findMany m fun _ row => customerId row = mergedCustomerId
  if records.isEmpty then return []
  else
    let _ ← updateMany m (fun _ row => customerId row = mergedCustomerId)
      (setCustomerId primaryCustomerId)
    return records.map fun r => (m, r.1)

/-- The models that refer to a customer, in the order of the source. -/
def executeCustomerMerge (primaryCustomerId mergedCustomerId : Id) :
    Handler (List (Model × Id)) := do
  let nextOfKin ← reassign .nextOfKin CustomerReference.customerId
    (fun id _ => ⟨id⟩) primaryCustomerId mergedCustomerId
  let customerNote ← reassign .customerNote CustomerReference.customerId
    (fun id _ => ⟨id⟩) primaryCustomerId mergedCustomerId
  let beneficiary ← reassign .beneficiary Beneficiary.customerId
    (fun id b => { b with customerId := id }) primaryCustomerId mergedCustomerId
  let beneficialOwner ← reassign .beneficialOwner CustomerReference.customerId
    (fun id _ => ⟨id⟩) primaryCustomerId mergedCustomerId
  let loan ← reassign .loan Loan.customerId
    (fun id l => { l with customerId := id }) primaryCustomerId mergedCustomerId
  let savingsAccount ← reassign .savingsAccount SavingsAccount.customerId
    (fun id a => { a with customerId := id }) primaryCustomerId mergedCustomerId
  let accountHolder ← reassign .accountHolder AccountHolder.customerId
    (fun id h => { h with customerId := id }) primaryCustomerId mergedCustomerId
  let document ← reassign .document CustomerReference.customerId
    (fun id _ => ⟨id⟩) primaryCustomerId mergedCustomerId
  let collectionRouteCustomer ← reassign .collectionRouteCustomer
    CollectionRouteCustomer.customerId
    (fun id c => { c with customerId := id }) primaryCustomerId mergedCustomerId
  let collectionTransaction ← reassign .collectionTransaction CollectionTransaction.customerId
    (fun id c => { c with customerId := id }) primaryCustomerId mergedCustomerId
  let _ ← update .customer mergedCustomerId fun c =>
    { c with mergeStatus := .merged, mergedIntoCustomerId := some primaryCustomerId }
  return nextOfKin ++ customerNote ++ beneficiary ++ beneficialOwner ++ loan ++ savingsAccount ++
    accountHolder ++ document ++ collectionRouteCustomer ++ collectionTransaction

def mergeCustomers (now : DateTime) (approvedById targetId : Id) : Handler Unit := do
  let mergeRecord ← findUniqueOrThrow .customerMergeRecord targetId
  let reassignedRecords ←
    executeCustomerMerge mergeRecord.primaryCustomerId mergeRecord.mergedCustomerId
  let _ ← update .customerMergeRecord targetId fun r =>
    { r with status := .approved, approvedById := some approvedById, mergedAt := some now,
             reassignedRecords := some reassignedRecords }

/-! ## Loans -/

/-- An installment that is not yet paid in full, as the two changes of a loan's
schedule select it. -/
def LoanInstallment.isOpen (loanId : Id) (i : LoanInstallment) : Bool :=
  decide (i.loanId = loanId) && decide (i.status = .pending ∨ i.status = .partiallyPaid)

/-- `loanInstallment.createMany`.  The number of an installment is unique within
its loan. -/
def createInstallments (loanId : Id) (schedule : List ScheduleRow) : Handler Unit :=
  Proc.attempt {} fun s =>
    let taken := ((s.table .loanInstallment).values.filter fun i => i.loanId = loanId).map
      LoanInstallment.installmentNumber
    if (taken ++ schedule.map ScheduleRow.installmentNumber).Nodup then
      (.ok (), schedule.foldl (fun s row => s.insert .loanInstallment (row.installment loanId)) s)
    else (.error uniqueViolation, s)

def restructureLoan (now : DateTime) (targetId : Id) : Handler Unit := do
  let restructure ← findUniqueOrThrow .loanRestructure targetId
  let _ ← updateMany .loanInstallment (fun _ i => i.isOpen restructure.loanId)
    fun i => { i with deletedAt := some now }
  let schedule := generateSchedule (toNumber restructure.newPrincipal) restructure.newRate
    restructure.newTermMonths "FLAT" now
  createInstallments restructure.loanId schedule
  let _ ← update .loan restructure.loanId fun l =>
    { l with principal := restructure.newPrincipal, interestRate := restructure.newRate,
             termMonths := restructure.newTermMonths }
  let _ ← update .loanRestructure targetId fun r => { r with appliedAt := some now }

def rescheduleLoan (now : DateTime) (targetId : Id) : Handler Unit := do
  let reschedule ← findUniqueOrThrow .loanReschedule targetId
  let installments ← findMany .loanInstallment fun _ i => i.isOpen reschedule.loanId
  Proc.forEach installments fun inst => do
    let newDate := addDays inst.2.dueDate reschedule.shiftDays
    let _ ← update .loanInstallment inst.1 fun i => { i with dueDate := newDate }
  let _ ← update .loanReschedule targetId fun r => { r with appliedAt := some now }

def writeOffLoan (now : DateTime) (targetId : Id) : Handler Unit := do
  let writeOff ← findUniqueOrThrow .loanWriteOff targetId
  let _ ← update .loan writeOff.loanId fun l => { l with status := .writtenOff }
  let _ ← update .loanWriteOff targetId fun w => { w with appliedAt := some now }

/-! ## Cash -/

def currentBalance (type : CashHolderType) (id : Id) : Handler Cents := do
  match type with
  | .vault =>
    let vault ← findUniqueOrThrow .vault id
    return vault.balance
  | .teller =>
    let teller ← findUniqueOrThrow .teller id
    return teller.currentHolding

def applyDelta (type : CashHolderType) (id : Id) (delta : ℚ) : Handler Cents := do
  match type with
  | .vault =>
    let vault ← update .vault id fun v => { v with balance := increment v.balance delta }
    return vault.balance
  | .teller =>
    let teller ← update .teller id fun t =>
      { t with currentHolding := increment t.currentHolding delta }
    return teller.currentHolding

def transferCash (now : DateTime) (approvedById targetId : Id) : Handler Unit := do
  let transfer ← findUniqueOrThrow .cashTransfer targetId
  let amount := toNumber transfer.amount
  let sourceBalance ← currentBalance transfer.fromType transfer.fromId
  if toNumber sourceBalance < amount then
    let _ ← update .cashTransfer targetId fun t => { t with status := .rejected }
  else
    let newSourceBalance ← applyDelta transfer.fromType transfer.fromId (-amount)
    let newDestBalance ← applyDelta transfer.toType transfer.toId amount
    let _ ← create .cashLedgerEntry
      { institutionId := transfer.institutionId, holderType := transfer.fromType,
        holderId := transfer.fromId, type := .transferOut, amount := transfer.amount,
        balanceAfter := newSourceBalance, notes := some transfer.reason,
        recordedById := approvedById }
    let _ ← create .cashLedgerEntry
      { institutionId := transfer.institutionId, holderType := transfer.toType,
        holderId := transfer.toId, type := .transferIn, amount := transfer.amount,
        balanceAfter := newDestBalance, notes := some transfer.reason,
        recordedById := approvedById }
    let _ ← update .cashTransfer targetId fun t =>
      { t with status := .completed, approvedById := some approvedById, completedAt := some now }

/-! ## Postings -/

/-- The lines of a journal, each with its account: `include: { account: true }`. -/
def Db.withAccounts (s : Db) (lines : List JournalLine) : Option (List (JournalLine × GLAccount)) :=
  lines.mapM fun l => (s.find? .gLAccount l.accountId).map fun a => (l, a)

/-- A journal with its lines and their accounts. -/
def findJournalWithLines (journalId : Id) :
    Handler (Journal × List (JournalLine × GLAccount)) := do
  let found ← query fun s => (s.find? .journal journalId).bind fun j =>
    (s.withAccounts j.lines).map fun lines => (j, lines)
  Proc.orFail found recordNotFound

/-- Why a journal is rejected when its posting has been approved. -/
def rejectionReasons (stillBalanced allActive : Bool) (period : Option (Id × FinancialPeriod)) :
    List String :=
  (if stillBalanced then [] else ["debits no longer equal credits"]) ++
    (if allActive then [] else ["one or more accounts became inactive"]) ++
    match period with
    | some (_, p) =>
      if p.status = .opened then [] else ["the financial period is now " ++ p.status.text]
    | none => ["no financial period covers this posting date"]

def postApprovedJournal (now : DateTime) (approvedById journalId : Id) : Handler Unit := do
  let (journal, lines) ← findJournalWithLines journalId
  let stillBalanced := isBalanced (lines.map fun l => l.1.amounts)
  let allActive := lines.all fun l => l.2.status = .active
  let period ← findPostablePeriod journal.institutionId journal.postingDate
  let reasons := rejectionReasons stillBalanced allActive period
  if reasons = [] then
    applyLines (lines.map fun l => l.1.input l.2.category)
    let _ ← update .journal journalId fun j =>
      { j with status := .posted, postedById := some approvedById, postedAt := some now }
  else
    let _ ← update .journal journalId fun j =>
      { j with status := .rejected, rejectionReason := some ("; ".intercalate reasons) }

/-- The settlement account of a branch, with the ledger account it stands for. -/
def findSettlementAccount (branchId : Id) : Handler (BranchSettlementAccount × GLAccount) := do
  let found ← query fun s =>
    ((s.table .branchSettlementAccount).entries.find? fun e => e.2.branchId = branchId).bind
      fun e => (s.find? .gLAccount e.2.glAccountId).map fun a => (e.2, a)
  Proc.orFail found recordNotFound

/-- The four lines of a transfer between branches. -/
def interBranchLines (transfer : InterBranchTransfer)
    (fromSettlement toSettlement : BranchSettlementAccount × GLAccount)
    (fromAccount toAccount : GLAccount) : List JournalLineInput :=
  let amount := toNumber transfer.amount
  doubleEntry (fromSettlement.1.glAccountId, fromSettlement.2)
      (transfer.fromGLAccountId, fromAccount) amount ++
    doubleEntry (transfer.toGLAccountId, toAccount)
      (toSettlement.1.glAccountId, toSettlement.2) amount

def transferBetweenBranches (now : DateTime) (approvedById targetId : Id) : Handler Unit := do
  let transfer ← findUniqueOrThrow .interBranchTransfer targetId
  let fromSettlement ← findSettlementAccount transfer.fromBranchId
  let toSettlement ← findSettlementAccount transfer.toBranchId
  let fromAccount ← findUniqueOrThrow .gLAccount transfer.fromGLAccountId
  let toAccount ← findUniqueOrThrow .gLAccount transfer.toGLAccountId
  let lines := interBranchLines transfer fromSettlement toSettlement fromAccount toAccount
  if isBalanced (lines.map JournalLineInput.toLineInput) then
    let journal ← createJournal
      { institutionId := transfer.institutionId, type := .automatic,
        description := "Inter-branch transfer: " ++ transfer.description, status := .posted,
        postingDate := now, postedAt := some now, createdById := transfer.requestedById,
        postedById := some approvedById, lines := lines.map fun l => l.stored }
    applyLines lines
    let _ ← update .interBranchTransfer targetId fun t =>
      { t with status := .posted, journalId := some journal }
  else
    let _ ← update .interBranchTransfer targetId fun t => { t with status := .rejected }

/-- Write a posted journal over lines under construction and apply them, if they
balance.  The accounts are read into a map first. -/
def postDraftLines (institutionId approvedById : Id) (now postingDate : DateTime)
    (description : String) (drafts : List DraftLine) : Handler (Option Id) := do
  if isBalanced (drafts.map DraftLine.amounts) then
    let lines ← Proc.orFail (drafts.mapM DraftLine.line?) validationError
    let accountById ← query fun s => s.find? .gLAccount
    let journal ← createJournal
      { institutionId, type := .automatic, description, status := .posted, postingDate,
        postedAt := some now, postedById := some approvedById, createdById := approvedById,
        lines := lines.map LineInput.stored }
    applyLinesById accountById lines
    return some journal
  else return none

/-- The accrual journal of a run, if the accounts are mapped and the period is
open. -/
def postAccrual (now : DateTime) (approvedById runId : Id) (run : PayrollRun) :
    Handler (Option Id) := do
  let mappings ← findMany .payrollGLAccountMapping fun _ m => m.institutionId = run.institutionId
  if requiredAccrualPurposes.all fun p => (accountIdByPurpose mappings p).isSome then
    let period ← findUnique .payrollPeriod run.payrollPeriodId
    let postingDate := (period.map PayrollPeriod.endDate).getD now
    let glPeriod ← findPostablePeriod run.institutionId postingDate
    if glPeriod.any fun p => p.2.status = .opened then
      let entries ← findMany .payrollEntry fun _ e => e.payrollRunId = runId
      let total := fun (f : PayrollEntry → Cents) => (entries.map fun e => toNumber (f e.2)).sum
      let realLines := buildPayrollAccrualLines
        { totalGross := toNumber run.totalGross, totalPaye := total PayrollEntry.paye,
          totalSsnitEmployee := total PayrollEntry.ssnitEmployee,
          totalSsnitEmployerTier1 := total PayrollEntry.ssnitEmployerTier1,
          totalTier2Employer := total PayrollEntry.tier2Employer,
          totalOtherDeductions := total PayrollEntry.otherDeductions,
          totalNet := toNumber run.totalNet }
        (accountIdByPurpose mappings)
      postDraftLines run.institutionId approvedById now postingDate
        ("Payroll accrual — " ++ (period.map PayrollPeriod.name).getD "period") realLines
    else return none
  else return none

def approvePayrollRun (now : DateTime) (approvedById targetId : Id) : Handler Unit := do
  let run ← findUniqueOrThrow .payrollRun targetId
  let accrualJournalId ← postAccrual now approvedById targetId run
  let _ ← update .payrollRun targetId fun r =>
    { r with status := .approved, approvedById := some approvedById, approvedAt := some now,
             accrualJournalId }

def disposalPurposes : List String :=
  ["Fixed Asset", "Accumulated Depreciation", "Cash/Bank (Disposal Proceeds)", "Gain on Disposal",
    "Loss on Disposal"]

def AssetDisposalType.text : AssetDisposalType → String
  | .sale => "SALE"
  | .donation => "DONATION"
  | .writeOff => "WRITE_OFF"
  | .scrap => "SCRAP"

/-- The disposal journal, if the accounts are mapped and the period is open. -/
def postDisposal (now : DateTime) (approvedById : Id) (disposal : AssetDisposal) (asset : Asset) :
    Handler (Option Id) := do
  let mappings ← findMany .assetGLAccountMapping fun _ m =>
    m.institutionId = disposal.institutionId ∧ m.purpose ∈ disposalPurposes
  let accountIds := accountIdByPurpose mappings
  if (accountIds "Fixed Asset").isSome && (accountIds "Accumulated Depreciation").isSome then
    let glPeriod ← findPostablePeriod disposal.institutionId now
    if glPeriod.any fun p => p.2.status = .opened then
      let lines := buildAssetDisposalLines (toNumber asset.acquisitionCost)
        (toNumber asset.accumulatedDepreciation) (toNumber (disposal.saleProceeds.getD 0))
        accountIds
      postDraftLines disposal.institutionId approvedById now now
        ("Asset disposal — " ++ asset.assetCode ++ " — " ++ disposal.disposalType.text) lines
    else return none
  else return none

def disposeAsset (now : DateTime) (approvedById targetId : Id) : Handler Unit := do
  let disposal ← findUniqueOrThrow .assetDisposal targetId
  let asset ← findUniqueOrThrow .asset disposal.assetId
  let journalId ← postDisposal now approvedById disposal asset
  let _ ← update .assetDisposal targetId fun d =>
    { d with status := .approved, approvedById := some approvedById, journalId }
  let _ ← update .asset disposal.assetId fun a =>
    { a with status := .disposed, disposedAt := some disposal.disposalDate,
             disposalReason := some disposal.reason }

/-! ## The remaining effects -/

def changeSalaryStructure (approvedById targetId : Id) : Handler Unit := do
  let structure_ ← findUniqueOrThrow .employeeSalaryStructure targetId
  let _ ← updateMany .employeeSalaryStructure
    (fun _ e => decide (e.employeeId = structure_.employeeId) &&
      decide (e.institutionId = structure_.institutionId) && decide (e.status = .active))
    fun e => { e with status := .superseded }
  let _ ← update .employeeSalaryStructure targetId fun e =>
    { e with status := .active, approvedById := some approvedById }

def correctAttendance (targetId : Id) : Handler Unit := do
  let record ← findUniqueOrThrow .attendanceRecord targetId
  let _ ← update .attendanceRecord targetId fun r =>
    { r with clockInAt := record.proposedClockInAt.getD record.clockInAt,
             clockOutAt := record.proposedClockOutAt <|> record.clockOutAt,
             correctionPending := false }

def transferAsset (now : DateTime) (targetId : Id) : Handler Unit := do
  let transfer ← findUniqueOrThrow .assetTransfer targetId
  let _ ← update .asset transfer.assetId fun a =>
    { a with currentEmployeeId := transfer.toEmployeeId,
             currentDepartmentId := transfer.toDepartmentId,
             currentBranchId := transfer.toBranchId }
  let _ ← update .assetTransfer targetId fun t =>
    { t with status := .approved, transferredAt := some now }

/-- Applies the payload of an approved request against its target. -/
def applyApproval (now : DateTime) (request : ApprovalRequest) (approvedById : Id) :
    Handler Unit := do
  match request.type with
  | .customerStatusChange =>
    let _ ← update .customer request.targetId fun c =>
      { c with status := request.payload.status.getD c.status }
  | .customerProfileUpdate =>
    let _ ← update .customer request.targetId fun c =>
      { c with profile := request.payload.profile.apply c.profile, status := .active }
  | .accountHolderAdd => addAccountHolder request
  | .productActivation =>
    let _ ← update .product request.targetId fun p => { p with status := .active }
  | .businessRuleActivation =>
    let _ ← update .businessRule request.targetId fun r => { r with status := .active }
  | .loanRestructure => restructureLoan now request.targetId
  | .loanReschedule => rescheduleLoan now request.targetId
  | .loanWriteOff => writeOffLoan now request.targetId
  | .collectionVarianceAdjustment =>
    let _ ← update .collectionSettlement request.targetId fun c =>
      { c with status := .reconciled, reconciledById := some approvedById,
               reconciledAt := some now }
  | .commissionPayment =>
    let _ ← update .commissionRecord request.targetId fun c =>
      { c with status := .paid, paidAt := some now }
  | .cashTransfer => transferCash now approvedById request.targetId
  | .cashBalancingVariance =>
    let _ ← update .cashBalancing request.targetId fun c =>
      { c with status := .reconciled, reconciledById := some approvedById,
               reconciledAt := some now }
  | .journalPosting => postApprovedJournal now approvedById request.targetId
  | .financialPeriodReopen =>
    let _ ← update .financialPeriod request.targetId fun p =>
      { p with status := .opened, reopenedById := some approvedById, reopenedAt := some now }
  | .recurringJournalActivation =>
    let _ ← update .recurringJournal request.targetId fun r => { r with status := .active }
  | .interBranchTransfer => transferBetweenBranches now approvedById request.targetId
  | .salaryStructureChange => changeSalaryStructure approvedById request.targetId
  | .payrollRunApproval => approvePayrollRun now approvedById request.targetId
  | .attendanceCorrection => correctAttendance request.targetId
  | .auditEngagementApproval =>
    let _ ← update .auditEngagement request.targetId fun a => { a with status := .inProgress }
  | .assetTransfer => transferAsset now request.targetId
  | .assetDisposal => disposeAsset now approvedById request.targetId
  | .customerMerge => mergeCustomers now approvedById request.targetId
  | .savingsRestrictionCreate =>
    let _ ← update .savingsRestriction request.targetId fun r =>
      { r with status := .active, approvedById := some approvedById, activatedAt := some now }
  | .savingsRestrictionRemove =>
    let _ ← update .savingsRestriction request.targetId fun r =>
      { r with status := .removed, removedById := some approvedById, removedAt := some now }
  -- A pure gate, which disbursement looks at: there is nothing to apply.
  | .businessRuleTriggered => pure ()
  | .amlAdjudication =>
    let _ ← update .customer request.targetId fun c =>
      { c with status := request.payload.previousStatus.getD .registered, watchlistFlag := false }

end NexusEfos
