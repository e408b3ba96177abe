/-
The life of a loan: `routes/loan.routes.ts`.

A loan is initiated, approved or rejected, and disbursed; a write-off or a change of
its terms is requested here and takes effect when the request is approved.
-/
import NexusEfos.Approvals.Apply
import NexusEfos.Loans.BusinessRules

namespace NexusEfos

/-- `createSchema`. -/
structure LoanApplication where
  customerId : Id
  productVersionId : Id
  principal : ℚ
  termMonths : ℕ

def AccountStatus.text : AccountStatus → String
  | .registered => "REGISTERED"
  | .pendingVerification => "PENDING_VERIFICATION"
  | .pendingApproval => "PENDING_APPROVAL"
  | .verified => "VERIFIED"
  | .active => "ACTIVE"
  | .dormant => "DORMANT"
  | .restricted => "RESTRICTED"
  | .suspended => "SUSPENDED"
  | .blacklisted => "BLACKLISTED"
  | .closed => "CLOSED"
  | .archived => "ARCHIVED"

/-- A product version with its product. -/
def findProductVersion (id : Id) : Handler (Option (ProductVersion × Product)) :=
  query fun s => (s.find? .productVersion id).bind fun v =>
    (s.find? .product v.productId).map fun p => (v, p)

/-- The bounds a product version sets. -/
def checkProductBounds (js : Js) (v : ProductVersion) (body : LoanApplication) :
    Handler Unit := do
  Proc.require (∀ x, v.minLoanAmount = some x → toNumber x ≤ body.principal)
    (.http 400 ("Principal must be at least GHS " ++
      js.toLocaleString (toNumber (v.minLoanAmount.getD 0)) ++ " for this product"))
  Proc.require (∀ x, v.maxLoanAmount = some x → body.principal ≤ toNumber x)
    (.http 400 ("Principal cannot exceed GHS " ++
      js.toLocaleString (toNumber (v.maxLoanAmount.getD 0)) ++ " for this product"))
  Proc.require (∀ n, v.minTenureMonths = some n → n ≤ body.termMonths)
    (.http 400 ("Term must be at least " ++ toString (v.minTenureMonths.getD 0) ++
      " months for this product"))
  Proc.require (∀ n, v.maxTenureMonths = some n → body.termMonths ≤ n)
    (.http 400 ("Term cannot exceed " ++ toString (v.maxTenureMonths.getD 0) ++
      " months for this product"))

/-- What the rules are evaluated against. -/
def Loan.ruleContext (loan : Loan) (customer : Option Customer) : RuleContext :=
  { principal := toNumber loan.principal, termMonths := loan.termMonths,
    interestRate := loan.interestRate, customer }

/-- `POST /`.  A rule that rejects marks the loan, which has been created by then. -/
def initiateLoan (js : Js) (auth : Auth) (now : DateTime) (body : LoanApplication) :
    Handler Id := do
  Proc.require (0 < body.principal ∧ 0 < body.termMonths) .invalid
  let foundCustomer ← findById .customer body.customerId fun c =>
    c.institutionId = auth.institutionId
  let customer ← Proc.orFail foundCustomer (.http 404 "Customer not found")
  Proc.require (customer.status = .active)
    (.http 400 ("Customer must be ACTIVE to receive a loan (currently " ++ customer.status.text ++
      ")"))
  let foundVersion ← findProductVersion body.productVersionId
  let (productVersion, product) ← Proc.orFail foundVersion (.http 404 "Loan product not found")
  Proc.require (product.institutionId = auth.institutionId ∧ product.type = .loan)
    (.http 404 "Loan product not found")
  Proc.require (product.status = .active)
    (.http 400 "This loan product is not currently active")
  checkProductBounds js productVersion body
  let row : Loan :=
    { institutionId := auth.institutionId, initiatedById := some auth.userId,
      customerId := body.customerId, principal := ofNumber body.principal,
      termMonths := body.termMonths, interestRate := productVersion.interestRate,
      interestMethod := productVersion.interestMethod }
  let loan ← create .loan row
  let _ ← create .auditLog
    { institutionId := auth.institutionId, userId := some auth.userId, action := "loan.initiate",
      resource := "loan", resourceId := some loan }
  let matched ← matchRules js now auth.institutionId .loanInitiation
    (row.ruleContext (some customer))
  if matched.any MatchedRule.hasReject then
    let _ ← updateAs { loanMove := some (loan, .reject none) } .loan loan fun l =>
      { l with status := .rejected }
  let _ ← executeMatchedRules auth.institutionId auth.userId "Loan" loan matched
  return loan

/-- Stop at a rule that rejects. -/
def requireUnblocked (what : String) (matched : List MatchedRule) : Handler Unit :=
  match matched.find? MatchedRule.hasReject with
  | some blocking => Proc.fail (.http 400 (what ++ " blocked by business rule " ++
      blocking.rule.2.ruleCode ++ ": " ++ blocking.rule.2.name))
  | none => pure ()

/-- `POST /:id/approve`. -/
def approveLoan (js : Js) (auth : Auth) (now : DateTime) (loanId : Id) : Handler Loan := do
  let found ← findById .loan loanId fun l => l.institutionId = auth.institutionId
  let loan ← Proc.orFail found (.http 404 "Loan not found")
  Proc.require (loan.initiatedById ≠ some auth.userId)
    (.http 403 "Segregation of duties: cannot approve a loan you initiated")
  let customer ← findUnique .customer loan.customerId
  let matched ← matchRules js now auth.institutionId .loanApproval (loan.ruleContext customer)
  requireUnblocked "Approval" matched
  let updated ← updateAs { loanMove := some (loanId, .approve) } .loan loanId fun l =>
    { l with status := .approved, approvedById := some auth.userId }
  let _ ← create .auditLog
    { institutionId := auth.institutionId, userId := some auth.userId, action := "loan.approve",
      resource := "loan", resourceId := some loanId }
  let _ ← executeMatchedRules auth.institutionId auth.userId "Loan" loanId matched
  return updated

/-- `POST /:id/reject`. -/
def rejectLoan (auth : Auth) (loanId : Id) : Handler Unit := do
  let found ← updateGuardedAs { loanMove := some (loanId, .reject (some auth.institutionId)) }
    .loan loanId (fun l => l.institutionId = auth.institutionId) fun l => { l with status := .rejected }
  Proc.require (found = true) (.http 404 "Loan not found")
  let _ ← create .auditLog
    { institutionId := auth.institutionId, userId := some auth.userId, action := "loan.reject",
      resource := "loan", resourceId := some loanId }

/-! ## Disbursement -/

/-- The transaction of a disbursement: the cash, the journal, the loan and its
schedule. -/
def disburseInTx (auth : Auth) (now : DateTime) (loanId vaultId : Id) (principal : Cents)
    (journalLines : List JournalLineInput) (schedule : List ScheduleRow) : Handler Loan := do
  let guardedVault ← updateGuarded .vault vaultId (fun v => principal ≤ v.balance) fun v =>
    { v with balance := increment v.balance (-toNumber principal) }
  Proc.require (guardedVault = true)
    (.http 400 "Vault has insufficient balance for this disbursement")
  let freshVault ← findUniqueOrThrow .vault vaultId
  let _ ← create .cashLedgerEntry
    { institutionId := auth.institutionId, holderType := .vault, holderId := vaultId,
      type := .transferOut, amount := principal, balanceAfter := freshVault.balance,
      notes := some ("Loan disbursement — " ++ toString loanId), recordedById := auth.userId }
  let _ ← postJournal auth now ("Loan disbursement — loan " ++ toString loanId) journalLines
  let updated ← update .loan loanId fun l =>
    { l with status := .disbursed, disbursedAt := some now }
  createInstallments loanId schedule
  return updated

/-- `POST /:id/disburse`. -/
def disburseLoan (js : Js) (auth : Auth) (now : DateTime) (loanId : Id) (vaultId : Option Id) :
    Handler Loan := do
  let vaultId ← Proc.orFail vaultId (.http 400
    "vaultId is required — disbursement must draw from a real, identified cash source")
  let found ← findById .loan loanId fun l => l.institutionId = auth.institutionId
  let loan ← Proc.orFail found (.http 404 "Loan not found")
  Proc.require (loan.status = .approved) (.http 400 "Loan must be APPROVED before disbursement")
  let foundVault ← findById .vault vaultId fun v => v.institutionId = auth.institutionId
  let vault ← Proc.orFail foundVault (.http 404 "Vault not found")
  Proc.require (vault.status = .opened) (.http 400 "Vault must be open to disburse cash from it")
  let pendingRuleApproval ← findFirst .approvalRequest fun _ r =>
    r.targetType = "Loan" ∧ r.targetId = loanId ∧ r.type = .businessRuleTriggered ∧
      r.status = .pending
  Proc.require (pendingRuleApproval.isNone = true)
    (.http 400 ("Disbursement blocked: \"" ++
      ((pendingRuleApproval.bind fun r => r.2.reason).getD "null") ++
      "\" is still pending approval"))
  let disburseCustomer ← findUnique .customer loan.customerId
  let matched ← matchRules js now auth.institutionId .loanDisbursement
    (loan.ruleContext disburseCustomer)
  requireUnblocked "Disbursement" matched
  let mappings ← findMany .loanGLAccountMapping fun _ m => m.institutionId = auth.institutionId
  let (receivableAccountId, cashAccountId) ← Proc.orFail
    (both (accountIdByPurpose mappings "Loan Receivable")
      (accountIdByPurpose mappings "Cash/Bank (Disbursement)"))
    (.http 400 "Loan disbursement GL account mapping is not configured (\"Loan Receivable\" and \"Cash/Bank (Disbursement)\" both required) — configure this before disbursing, real cash cannot move without a real accounting effect.")
  requirePostablePeriod auth.institutionId now
  let receivableAccount ← findUniqueOrThrow .gLAccount receivableAccountId
  let cashAccount ← findUniqueOrThrow .gLAccount cashAccountId
  let principal := toNumber loan.principal
  let journalLines := doubleEntry (receivableAccountId, receivableAccount)
    (cashAccountId, cashAccount) principal
  Proc.require (isBalanced (journalLines.map JournalLineInput.toLineInput) = true)
    (.http 400 "Disbursement journal would not balance — check the loan principal")
  let schedule := generateSchedule principal loan.interestRate loan.termMonths loan.interestMethod
    now
  let updated ← Proc.transaction
    { loanMove := some (loanId, .disburse),
      posting := some ⟨auth.institutionId, now, journalLines.map fun l => l.accountId⟩,
      movesCash := some (vaultId, -toNumber loan.principal) }
    (disburseInTx auth now loanId vaultId loan.principal journalLines schedule)
  let _ ← create .auditLog
    { institutionId := auth.institutionId, userId := some auth.userId, action := "loan.disburse",
      resource := "loan", resourceId := some loanId }
  let _ ← executeMatchedRules auth.institutionId auth.userId "Loan" loanId matched
  return updated

/-! ## Requests for a change -/

/-- The loan, if its state admits a change of its terms or a write-off. -/
def findChangeable (auth : Auth) (loanId : Id) (what : String) : Handler Loan := do
  let found ← findById .loan loanId fun l => l.institutionId = auth.institutionId
  let loan ← Proc.orFail found (.http 404 "Loan not found")
  Proc.require (loan.status = .disbursed ∨ loan.status = .active)
    (.http 400 ("Only a disbursed/active loan can be " ++ what))
  return loan

/-- The request and the evidence that follow the creation of its target. -/
def requestChange (auth : Auth) (loanId : Id) (type : ApprovalRequestType) (targetType : String)
    (targetId : Id) (reason action : String) : Handler Id := do
  let approval ← create .approvalRequest
    { institutionId := auth.institutionId, type, targetType, targetId,
      payload := { loanId := some loanId }, reason := some reason, requestedById := auth.userId }
  let _ ← create .auditLog
    { institutionId := auth.institutionId, userId := some auth.userId, action, resource := "loan",
      resourceId := some loanId }
  return approval

/-- The value of a `Decimal(6, 3)` column after a number is stored in it. -/
def toRateColumn (x : ℚ) : ℚ := roundHalfAway (x * 1000) / 1000

/-- `POST /:id/restructure`. -/
def requestRestructure (auth : Auth) (loanId : Id) (newPrincipal newRate : ℚ)
    (newTermMonths : ℕ) (reason : String) : Handler Id := do
  Proc.require (0 < newPrincipal ∧ 0 ≤ newRate ∧ 0 < newTermMonths ∧ 2 ≤ jsLength reason) .invalid
  let loan ← findChangeable auth loanId "restructured"
  let restructure ← create .loanRestructure
    { loanId, originalPrincipal := loan.principal, originalRate := loan.interestRate,
      originalTermMonths := loan.termMonths, newPrincipal := ofNumber newPrincipal,
      newRate := toRateColumn newRate, newTermMonths, reason, requestedById := some auth.userId }
  requestChange auth loanId .loanRestructure "LoanRestructure" restructure reason
    "loan.restructure_requested"

/-- `POST /:id/write-off`. -/
def requestWriteOff (auth : Auth) (loanId : Id) (amount : ℚ) (reason : String) : Handler Id := do
  Proc.require (0 < amount ∧ 2 ≤ jsLength reason) .invalid
  let _ ← findChangeable auth loanId "written off"
  let writeOff ← create .loanWriteOff
    { loanId, amount := ofNumber amount, reason, requestedById := some auth.userId }
  requestChange auth loanId .loanWriteOff "LoanWriteOff" writeOff reason
    "loan.write_off_requested"

end NexusEfos
