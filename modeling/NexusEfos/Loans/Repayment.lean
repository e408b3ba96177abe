/-
Recording a repayment on a loan: `lib/loanRepayment.ts`, and its endpoint in
`routes/loan.routes.ts`.
-/
import NexusEfos.Ledger.Posting
import NexusEfos.Loans.Schedule
import Mathlib.Data.List.Sort

namespace NexusEfos

/-- The installments of a loan in the order of their numbers. -/
def Db.installmentsOf (s : Db) (loanId : Id) : List (Id × LoanInstallment) :=
  ((s.table .loanInstallment).entries.filter fun i => i.2.loanId = loanId).insertionSort
    fun i j => i.2.installmentNumber ≤ j.2.installmentNumber

/-- An installment as the allocation reads it. -/
def installmentState (i : Id × LoanInstallment) : InstallmentState :=
  { id := i.1, interestDue := toNumber i.2.interestDue, principalDue := toNumber i.2.principalDue,
    interestPaid := toNumber i.2.interestPaid, principalPaid := toNumber i.2.principalPaid,
    status := i.2.status }

/-- Store an update of the allocation. -/
def AllocationUpdate.apply (u : AllocationUpdate) (i : LoanInstallment) : LoanInstallment :=
  { i with interestPaid := ofNumber u.newInterestPaid,
           principalPaid := ofNumber u.newPrincipalPaid, status := u.newStatus }

/-- The loan's status after an allocation: closed when every installment is paid,
and active once anything has been. -/
def updateLoanStatus (loanId : Id) (loan : Loan) : Handler Bool := do
  let allInstallments ← findMany .loanInstallment fun _ i => i.loanId = loanId
  let loanClosed := !allInstallments.isEmpty && allInstallments.all fun i => i.2.status = .paid
  if loanClosed then
    let _ ← update .loan loanId fun l => { l with status := .closed }
    return loanClosed
  else if loan.status = .disbursed then
    let _ ← update .loan loanId fun l => { l with status := .active }
    return loanClosed
  else return loanClosed

/-- `applyLoanRepaymentInTx`: it answers with the repayment and whether the loan
is closed. -/
def applyLoanRepaymentInTx (loanId : Id) (amount : ℚ) (recordedById : Id) :
    Handler (Id × Bool) := do
  let found ← query fun s => (s.find? .loan loanId).map fun loan => (loan, s.installmentsOf loanId)
  let (loan, installments) ← Proc.orFail found recordNotFound
  let repayment ← create .loanRepayment
    { loanId, amount := ofNumber amount, recordedById := some recordedById }
  let updates := allocateRepayment (installments.map installmentState) amount
  Proc.forEach updates fun u => do
    let _ ← update .loanInstallment u.id u.apply
  let loanClosed ← updateLoanStatus loanId loan
  return (repayment, loanClosed)

/-- The transaction of a repayment: the allocation and the journal. -/
def repayInTx (auth : Auth) (now : DateTime) (loanId : Id) (amount : ℚ) (description : String)
    (journalLines : List JournalLineInput) : Handler (Id × Bool) := do
  let result ← applyLoanRepaymentInTx loanId amount auth.userId
  let _ ← postJournal auth now description journalLines
  return result

/-- `POST /:id/repayments`. -/
def recordRepayment (auth : Auth) (now : DateTime) (loanId : Id) (amount : ℚ) :
    Handler (Id × Bool) := do
  Proc.require (0 < amount) .invalid
  let loanExists ← findById .loan loanId fun l => l.institutionId = auth.institutionId
  let _ ← Proc.orFail loanExists (.http 404 "Loan not found")
  let mappings ← findMany .loanGLAccountMapping fun _ m => m.institutionId = auth.institutionId
  let (receivableAccountId, cashAccountId) ← Proc.orFail
    (both (accountIdByPurpose mappings "Loan Receivable")
      (accountIdByPurpose mappings "Cash/Bank (Disbursement)"))
    (.http 400 "Loan disbursement GL account mapping is not configured (\"Loan Receivable\" and \"Cash/Bank (Disbursement)\" both required) — configure this before recording repayments, real cash cannot move without a real accounting effect.")
  requirePostablePeriod auth.institutionId now
  let receivableAccount ← findUniqueOrThrow .gLAccount receivableAccountId
  let cashAccount ← findUniqueOrThrow .gLAccount cashAccountId
  let journalLines := doubleEntry (cashAccountId, cashAccount)
    (receivableAccountId, receivableAccount) amount
  Proc.require (isBalanced (journalLines.map JournalLineInput.toLineInput) = true)
    (.http 400 "Repayment journal would not balance — check the repayment amount")
  let result ← Proc.transaction
    { loanMove := some (loanId, .repay amount),
      posting := some ⟨auth.institutionId, now, journalLines.map fun l => l.accountId⟩ }
    (repayInTx auth now loanId amount ("Loan repayment — loan " ++ toString loanId) journalLines)
  let _ ← create .auditLog
    { institutionId := auth.institutionId, userId := some auth.userId,
      action := "loan.repayment_recorded", resource := "loan", resourceId := some loanId }
  return result

end NexusEfos
