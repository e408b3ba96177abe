/-
The import of loans that another system has granted: `routes/migration.routes.ts`.

The opening balances lay down a schedule for what is left of a loan.  The full history lays
down the whole schedule and replays the repayments on it.  The cells of a sheet are read
already: a number that is none, and a date that is none, is `none`.
-/
import NexusEfos.Approvals.Apply
import NexusEfos.Loans.Repayment

namespace NexusEfos

/-! ## Rows of a sheet -/

structure LoanOBRow where
  rowNumber : ℕ
  customerPhone : String
  productCode : String
  originalPrincipal : Option ℚ
  interestRate : Option ℚ
  interestMethod : String
  termMonths : Option ℚ
  disbursedDate : Option DateTime
  outstandingPrincipal : Option ℚ
  outstandingInterest : Option ℚ
  remainingInstallments : Option ℚ
  nextDueDate : Option DateTime

structure LoanHeaderRow where
  rowNumber : ℕ
  externalRef : String
  customerPhone : String
  productCode : String
  principal : Option ℚ
  interestRate : Option ℚ
  interestMethod : String
  termMonths : Option ℚ
  disbursedDate : Option DateTime

structure RepaymentRow where
  rowNumber : ℕ
  externalRef : String
  paymentDate : Option DateTime
  amount : Option ℚ

/-- What the validation of a row comes to. -/
structure ImportResult (α : Type) where
  data : α
  errors : List String
  customerId : Option Id := none

/-! ## Validation -/

def interestMethods : List String := ["FLAT", "REDUCING_BALANCE"]

def phoneError (phone : String) : Option String :=
  let cs := phone.toList
  if cs.length = 9 ∧ cs.all Char.isDigit ∧ cs.head? ≠ some '0' then
    some ("\"" ++ phone ++ "\" is 9 digits and doesn't start with 0 — this looks like Excel stripped the leading zero when it treated the cell as a number. Re-enter this cell as Text (right-click the column → Format Cells → Text), starting with 0.")
  else if ¬ (cs.length = 10 ∧ cs.all Char.isDigit ∧ cs.head? = some '0') then
    some "Phone must be exactly 10 digits starting with 0 (e.g. 0244111222)"
  else none

/-- An error if a condition does not hold. -/
def errorUnless (p : Prop) [Decidable p] (error : String) : List String := if p then [] else [error]

def phoneErrors (phone : String) : List String :=
  if phone = "" then ["Customer Phone is required"]
  else ((phoneError phone).map fun pe => "Customer Phone: " ++ pe).toList

def positive (x : Option ℚ) : Prop := 0 < x.getD 0

def nonNegative (x : Option ℚ) : Prop := 0 ≤ x.getD (-1)

/-- `Number.isInteger(x) && x > 0`. -/
def positiveInteger (x : Option ℚ) : Prop := (x.getD 0).den = 1 ∧ 0 < x.getD 0

instance (x : Option ℚ) : Decidable (positive x) := inferInstanceAs (Decidable (_ < _))
instance (x : Option ℚ) : Decidable (nonNegative x) := inferInstanceAs (Decidable (_ ≤ _))
instance (x : Option ℚ) : Decidable (positiveInteger x) := inferInstanceAs (Decidable (_ ∧ _))

/-- The customer a row names by its phone number, and what is wrong with it. -/
def findImportCustomer (institutionId : Id) (phone : String) : Handler (Option Id × List String) :=
  if phone ≠ "" ∧ phoneError phone = none then do
    let customer ← findFirst .customer fun _ c =>
      c.institutionId = institutionId ∧ c.profile.phone = phone
    return (customer.map Prod.fst, errorUnless (customer.isSome = true)
      ("No customer found with phone \"" ++ phone ++ "\" — import customers first"))
  else return (none, [])

/-- What is wrong with the product a row names by its code. -/
def importProductErrors (institutionId : Id) (code : String) : Handler (List String) :=
  if code ≠ "" then do
    let product ← findFirst .product fun _ p =>
      p.institutionId = institutionId ∧ p.code = code ∧ p.type = .loan
    return match product with
      | none => ["No Loan product found with code \"" ++ code ++ "\""]
      | some p =>
        errorUnless (p.2.status = .active) ("Product \"" ++ code ++ "\" is not currently active")
  else return []

def validateLoanOBRow (institutionId : Id) (row : LoanOBRow) : Handler (ImportResult LoanOBRow) := do
  let errors :=
    phoneErrors row.customerPhone ++
    errorUnless (row.productCode ≠ "") "Product Code is required" ++
    errorUnless (positive row.originalPrincipal) "Original Principal must be a positive number" ++
    errorUnless (nonNegative row.interestRate) "Interest Rate must be a number ≥ 0" ++
    errorUnless (row.interestMethod ∈ interestMethods)
      "Interest Method must be one of: FLAT, REDUCING_BALANCE" ++
    errorUnless (positiveInteger row.termMonths) "Term Months must be a positive whole number" ++
    errorUnless (row.disbursedDate.isSome = true) "Disbursed Date is not a valid date" ++
    errorUnless (nonNegative row.outstandingPrincipal) "Outstanding Principal must be a number ≥ 0" ++
    errorUnless (nonNegative row.outstandingInterest) "Outstanding Interest must be a number ≥ 0" ++
    errorUnless (positiveInteger row.remainingInstallments)
      "Remaining Installments must be a positive whole number" ++
    errorUnless (row.nextDueDate.isSome = true) "Next Due Date is not a valid date"
  let (customerId, customerErrors) ← findImportCustomer institutionId row.customerPhone
  let productErrors ← importProductErrors institutionId row.productCode
  return { data := row, errors := errors ++ customerErrors ++ productErrors, customerId }

/-- The rows before this one have taken `seenRefs`. -/
def validateLoanHeaderRow (institutionId : Id) (seenRefs : List String) (row : LoanHeaderRow) :
    Handler (ImportResult LoanHeaderRow) := do
  let errors :=
    (if row.externalRef = "" then ["External Loan Reference is required"]
      else errorUnless (row.externalRef ∉ seenRefs)
        "Duplicate External Loan Reference within this file") ++
    phoneErrors row.customerPhone ++
    errorUnless (row.productCode ≠ "") "Product Code is required" ++
    errorUnless (positive row.principal) "Principal must be a positive number" ++
    errorUnless (nonNegative row.interestRate) "Interest Rate must be a number ≥ 0" ++
    errorUnless (row.interestMethod ∈ interestMethods)
      "Interest Method must be one of: FLAT, REDUCING_BALANCE" ++
    errorUnless (positiveInteger row.termMonths) "Term Months must be a positive whole number" ++
    errorUnless (row.disbursedDate.isSome = true) "Disbursed Date is not a valid date"
  let (customerId, customerErrors) ← findImportCustomer institutionId row.customerPhone
  let productErrors ← importProductErrors institutionId row.productCode
  return { data := row, errors := errors ++ customerErrors ++ productErrors, customerId }

def validateRepaymentRow (knownRefs : List String) (row : RepaymentRow) : ImportResult RepaymentRow :=
  { data := row,
    errors :=
      (if row.externalRef = "" then ["External Loan Reference is required"]
        else errorUnless (row.externalRef ∈ knownRefs) ("External Loan Reference \"" ++
          row.externalRef ++ "\" does not match any row in Loan Headers")) ++
      errorUnless (row.paymentDate.isSome = true) "Payment Date is not a valid date" ++
      errorUnless (positive row.amount) "Amount must be a positive number" }

/-- Header by header, with the references of those before. -/
def validateLoanHeaders (institutionId : Id) :
    List String → List LoanHeaderRow → Handler (List (ImportResult LoanHeaderRow))
  | _, [] => return []
  | seenRefs, row :: rows => do
    let result ← validateLoanHeaderRow institutionId seenRefs row
    let results ← validateLoanHeaders institutionId (row.externalRef :: seenRefs) rows
    return result :: results

/-- Stop if a row has an error. -/
def requireNoErrors (errors : List (List String)) : Handler Unit :=
  Proc.require (∀ es ∈ errors, es = [])
    (.http 400 "This file still has unresolved errors — fix them and re-run a dry-run before committing")

/-! ## Opening balances -/

/-- The loan of a row of opening balances: its terms are the original ones. -/
def LoanOBRow.loan (row : LoanOBRow) (institutionId customerId : Id) : Loan :=
  { institutionId, customerId, principal := ofNumber (round2 (row.originalPrincipal.getD 0)),
    interestRate := round2 (row.interestRate.getD 0), interestMethod := row.interestMethod,
    termMonths := (row.termMonths.getD 0).num.toNat, status := .disbursed,
    disbursedAt := row.disbursedDate }

def LoanOBRow.schedule (row : LoanOBRow) : List ScheduleRow :=
  generateRemainingSchedule (round2 (row.outstandingPrincipal.getD 0))
    (round2 (row.outstandingInterest.getD 0)) (row.remainingInstallments.getD 0).num.toNat
    (row.nextDueDate.getD 0)

/-- The transaction for one row. -/
def importOpeningBalanceInTx (auth : Auth) (row : LoanOBRow) (customerId : Id) : Handler Unit := do
  let loan ← create .loan (row.loan auth.institutionId customerId)
  createInstallments loan row.schedule

def importOpeningBalance (auth : Auth) (row : LoanOBRow) (customerId : Id) : Handler Unit :=
  Proc.transaction
    { imports := some
        { principal := (row.loan auth.institutionId customerId).principal,
          principalDue := row.schedule.map fun r => ofNumber r.principalDue } }
    (importOpeningBalanceInTx auth row customerId)

/-- The rows that were imported, and those that were not with the reason. -/
structure ImportOutcome where
  successRows : ℕ
  rowErrors : List (ℕ × Failure)

/-- Import one row; a failure is caught and reported with the number of the row. -/
def importRowOf {α : Type} (rowNumber : α → ℕ) (importRow : α → Id → Handler Unit)
    (r : ImportResult α) : Handler (Option (ℕ × Failure)) := do
  let customer : Handler Id := Proc.orFail r.customerId (.thrown "Argument customerId is missing.")
  let outcome ← (customer >>= importRow r.data).outcome
  return match outcome with
    | .ok () => none
    | .error e => some (rowNumber r.data, e)

/-- One row after the other. -/
def importRows {α : Type} (rowNumber : α → ℕ) (importRow : α → Id → Handler Unit)
    (results : List (ImportResult α)) : Handler ImportOutcome := do
  let outcomes ← Proc.mapEach results (importRowOf rowNumber importRow)
  return { successRows := (outcomes.filter Option.isNone).length,
           rowErrors := outcomes.filterMap id }

/-- `POST /loans/opening-balance/commit`. -/
def commitOpeningBalances (auth : Auth) (rows : List LoanOBRow) : Handler ImportOutcome := do
  let results ← Proc.mapEach rows (validateLoanOBRow auth.institutionId)
  requireNoErrors (results.map ImportResult.errors)
  let outcome ← importRows LoanOBRow.rowNumber (importOpeningBalance auth) results
  let _ ← create .auditLog
    { institutionId := auth.institutionId, userId := some auth.userId,
      action := "migration.loans_opening_balance_commit", resource := "import_batch" }
  return outcome

/-! ## Full history -/

def LoanHeaderRow.loan (h : LoanHeaderRow) (institutionId customerId : Id) : Loan :=
  { institutionId, customerId, principal := ofNumber (round2 (h.principal.getD 0)),
    interestRate := round2 (h.interestRate.getD 0), interestMethod := h.interestMethod,
    termMonths := (h.termMonths.getD 0).num.toNat, status := .disbursed,
    disbursedAt := h.disbursedDate }

def LoanHeaderRow.schedule (h : LoanHeaderRow) : List ScheduleRow :=
  generateSchedule (round2 (h.principal.getD 0)) (round2 (h.interestRate.getD 0))
    (h.termMonths.getD 0).num.toNat h.interestMethod (h.disbursedDate.getD 0)

/-- The repayments of a loan in the order of their dates, and of the file on one date. -/
def LoanHeaderRow.repaymentsForLoan (h : LoanHeaderRow) (repayments : List RepaymentRow) :
    List RepaymentRow :=
  (repayments.filter fun r => r.externalRef = h.externalRef).insertionSort
    fun a b => a.paymentDate.getD 0 ≤ b.paymentDate.getD 0

/-- What `allocateRepayment` does to the installments it is given, in place. -/
def AllocationUpdate.applyInPlace (u : AllocationUpdate) (inst : InstallmentState) :
    InstallmentState :=
  if inst.id = u.id then
    { inst with interestPaid := u.newInterestPaid, principalPaid := u.newPrincipalPaid,
                status := u.newStatus }
  else inst

/-- Replay repayments on the installments of a loan, which are kept at hand. -/
def replayRepayments (auth : Auth) (loanId : Id) :
    List RepaymentRow → List InstallmentState → Handler (List InstallmentState)
  | [], installmentStates => return installmentStates
  | rep :: reps, installmentStates => do
    let amount := round2 (rep.amount.getD 0)
    let _ ← create .loanRepayment
      { loanId, amount := ofNumber amount, recordedById := some auth.userId }
    let updates := allocateRepayment installmentStates amount
    Proc.forEach updates fun u => do
      let _ ← update .loanInstallment u.id u.apply
    replayRepayments auth loanId reps
      (updates.foldl (fun states u => states.map u.applyInPlace) installmentStates)

/-- The transaction for one loan.  The loan is new and the numbers of a schedule are distinct,
so that none of them is taken. -/
def importFullHistoryInTx (auth : Auth) (h : LoanHeaderRow) (repaymentsForLoan : List RepaymentRow)
    (customerId : Id) : Handler Unit := do
  let loan ← create .loan (h.loan auth.institutionId customerId)
  let installments ← Proc.mapEach h.schedule fun row => do
    let id ← create .loanInstallment (row.installment loan)
    return (id, row.installment loan)
  let installmentStates ← replayRepayments auth loan repaymentsForLoan
    (installments.map installmentState)
  let allPaid := !installmentStates.isEmpty && installmentStates.all fun i => i.status = .paid
  if allPaid then
    let _ ← update .loan loan fun l => { l with status := .closed }
  else if repaymentsForLoan ≠ [] then
    let _ ← update .loan loan fun l => { l with status := .active }
  else return ()

def importFullHistory (auth : Auth) (repayments : List RepaymentRow) (h : LoanHeaderRow)
    (customerId : Id) : Handler Unit :=
  Proc.transaction
    { imports := some
        { principal := (h.loan auth.institutionId customerId).principal,
          principalDue := h.schedule.map fun r => ofNumber r.principalDue } }
    (importFullHistoryInTx auth h (h.repaymentsForLoan repayments) customerId)

/-- `POST /loans/full-history/commit`. -/
def commitFullHistory (auth : Auth) (headers : List LoanHeaderRow)
    (repayments : List RepaymentRow) : Handler ImportOutcome := do
  let headerResults ← validateLoanHeaders auth.institutionId [] headers
  let repaymentResults := repayments.map
    (validateRepaymentRow (headers.map LoanHeaderRow.externalRef))
  requireNoErrors (headerResults.map ImportResult.errors ++
    repaymentResults.map ImportResult.errors)
  let outcome ← importRows LoanHeaderRow.rowNumber (importFullHistory auth repayments) headerResults
  let _ ← create .auditLog
    { institutionId := auth.institutionId, userId := some auth.userId,
      action := "migration.loans_full_history_commit", resource := "import_batch" }
  return outcome

end NexusEfos
