/-
The accounting of payroll: `lib/payrollAccounting.ts`, and the endpoints of
`routes/payroll.routes.ts` around a run's approval.

A run posts two journals: the accrual when it is approved, the settlement when it
is marked as paid.  Its reversal posts none.
-/
import NexusEfos.Ledger.Posting

namespace NexusEfos

/-! ## The lines -/

/-- A line of a journal under construction.  Its account is absent when no mapping
names one. -/
structure DraftLine where
  accountId : Option Id
  debit : ℚ
  credit : ℚ

/-- The amounts of a line, as the balance check reads them. -/
def DraftLine.amounts (line : DraftLine) : LineInput :=
  { accountId := line.accountId.getD 0, debit := line.debit, credit := line.credit }

/-- The line, once its account is known. -/
def DraftLine.line? (line : DraftLine) : Option LineInput :=
  line.accountId.map fun accountId => { accountId, debit := line.debit, credit := line.credit }

def DraftLine.hasAmount (line : DraftLine) : Bool := decide (0 < line.debit) || decide (0 < line.credit)

structure PayrollAccrualInputs where
  totalGross : ℚ
  totalPaye : ℚ
  totalSsnitEmployee : ℚ
  totalSsnitEmployerTier1 : ℚ
  totalTier2Employer : ℚ
  totalOtherDeductions : ℚ
  totalNet : ℚ

def requiredAccrualPurposes : List String :=
  ["Salary Expense", "Employer SSNIT Expense", "Employer Tier 2 Expense", "PAYE Payable",
    "SSNIT Payable", "Tier 2 Payable", "Other Deductions Payable", "Salaries Payable"]

def buildPayrollAccrualLines (inputs : PayrollAccrualInputs) (accountIds : String → Option Id) :
    List DraftLine :=
  let totalSsnitPayable := round2 (inputs.totalSsnitEmployee + inputs.totalSsnitEmployerTier1)
  [{ accountId := accountIds "Salary Expense", debit := inputs.totalGross, credit := 0 },
    { accountId := accountIds "Employer SSNIT Expense", debit := inputs.totalSsnitEmployerTier1,
      credit := 0 },
    { accountId := accountIds "Employer Tier 2 Expense", debit := inputs.totalTier2Employer,
      credit := 0 },
    { accountId := accountIds "PAYE Payable", debit := 0, credit := inputs.totalPaye },
    { accountId := accountIds "SSNIT Payable", debit := 0, credit := totalSsnitPayable },
    { accountId := accountIds "Tier 2 Payable", debit := 0, credit := inputs.totalTier2Employer },
    { accountId := accountIds "Other Deductions Payable", debit := 0,
      credit := inputs.totalOtherDeductions },
    { accountId := accountIds "Salaries Payable", debit := 0, credit := inputs.totalNet }].filter
      DraftLine.hasAmount

/-- A debit and a credit over one amount: the settlement of a payroll and the
depreciation of an asset. -/
def twoLines (debitedId creditedId : Id) (amount : ℚ) : List LineInput :=
  [{ accountId := debitedId, debit := amount, credit := 0 },
    { accountId := creditedId, debit := 0, credit := amount }]

def buildPayrollSettlementLines (totalNet : ℚ) (salariesPayableAccountId cashAccountId : Id) :
    List LineInput := twoLines salariesPayableAccountId cashAccountId totalNet

/-! ## The endpoints -/

def PayrollRunStatus.text : PayrollRunStatus → String
  | .draft => "DRAFT"
  | .processing => "PROCESSING"
  | .processed => "PROCESSED"
  | .pendingApproval => "PENDING_APPROVAL"
  | .approved => "APPROVED"
  | .paid => "PAID"
  | .reversed => "REVERSED"

/-- `POST /runs/:id/request-approval`. -/
def requestPayrollApproval (auth : Auth) (runId : Id) : Handler Unit := do
  let found ← findById .payrollRun runId fun r => r.institutionId = auth.institutionId
  let run ← Proc.orFail found (.http 404 "Payroll run not found")
  Proc.require (run.status = .processed)
    (.http 400 ("Only a PROCESSED run can request approval (currently " ++ run.status.text ++ ")"))
  let _ ← create .approvalRequest
    { institutionId := auth.institutionId, type := .payrollRunApproval, targetType := "PayrollRun",
      targetId := runId, requestedById := auth.userId }
  let _ ← update .payrollRun runId fun r => { r with status := .pendingApproval }

/-- `mappings.find((m) => m.purpose === purpose)?.glAccountId`: the first entry
counts. -/
def firstAccountByPurpose (mappings : List (Id × GLAccountMapping)) (purpose : String) :
    Option Id :=
  (mappings.find? fun m => m.2.purpose = purpose).map fun m => m.2.glAccountId

/-- The settlement journal of a run, if the accounts are mapped and the period is
open. -/
def postSettlement (auth : Auth) (now : DateTime) (runId : Id) (run : PayrollRun) :
    Handler (Option Id) := do
  let mappings ← findMany .payrollGLAccountMapping fun _ m =>
    m.institutionId = auth.institutionId ∧
      m.purpose ∈ ["Salaries Payable", "Cash/Bank Disbursement"]
  match both (firstAccountByPurpose mappings "Salaries Payable")
      (firstAccountByPurpose mappings "Cash/Bank Disbursement") with
  | none => return none
  | some (salariesPayableId, cashId) =>
    let lines := buildPayrollSettlementLines (toNumber run.totalNet) salariesPayableId cashId
    let accountById ← query fun s => s.find? .gLAccount
    let period ← findUnique .payrollPeriod run.payrollPeriodId
    let glPeriod ← findPostablePeriod auth.institutionId now
    if glPeriod.any fun p => p.2.status = .opened then
      let journal ← createJournalAs
        { posts := lines,
          posting := some ⟨auth.institutionId, now, lines.map LineInput.accountId⟩,
          payroll := some (.settle runId) }
        { institutionId := auth.institutionId, type := .automatic,
          description := "Payroll settlement — " ++ (period.map PayrollPeriod.name).getD "period",
          status := .posted, postingDate := now, postedAt := some now,
          postedById := some auth.userId, createdById := auth.userId,
          lines := lines.map LineInput.stored }
      applyLinesById accountById lines
      return some journal
    else return none

/-- `POST /runs/:id/mark-paid`. -/
def markPayrollPaid (auth : Auth) (now : DateTime) (runId : Id) : Handler PayrollRun := do
  let found ← findById .payrollRun runId fun r => r.institutionId = auth.institutionId
  let run ← Proc.orFail found (.http 404 "Payroll run not found")
  Proc.require (run.status = .approved)
    (.http 400 ("Only an APPROVED run can be marked paid (currently " ++ run.status.text ++ ")"))
  let settlementJournalId ←
    if run.accrualJournalId.isSome then postSettlement auth now runId run else pure none
  let updated ← updateAs { payroll := some (.pay runId settlementJournalId) } .payrollRun runId
    fun r =>
    { r with status := .paid, paidById := some auth.userId, paidAt := some now,
             settlementJournalId }
  let _ ← create .auditLog
    { institutionId := auth.institutionId, userId := some auth.userId,
      action := "payroll_run.mark_paid", resource := "payroll_run", resourceId := some runId }
  return updated

/-- `POST /runs/:id/reverse`. -/
def reversePayroll (auth : Auth) (now : DateTime) (runId : Id) (reason : String) :
    Handler PayrollRun := do
  Proc.require (reason ≠ "") (.http 400 "A reason is required to reverse a payroll run")
  let found ← findById .payrollRun runId fun r => r.institutionId = auth.institutionId
  let run ← Proc.orFail found (.http 404 "Payroll run not found")
  Proc.require (run.status = .approved ∨ run.status = .paid)
    (.http 400 ("Only an APPROVED or PAID run can be reversed (currently " ++ run.status.text ++
      ")"))
  let updated ← update .payrollRun runId fun r =>
    { r with status := .reversed, reversedById := some auth.userId, reversedAt := some now,
             reversalReason := some reason }
  let _ ← create .auditLog
    { institutionId := auth.institutionId, userId := some auth.userId,
      action := "payroll_run.reverse", resource := "payroll_run", resourceId := some runId }
  return updated

end NexusEfos
