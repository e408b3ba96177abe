/-
Savings accounts and their restrictions: `routes/savings.routes.ts`.

An account is opened with a balance of zero, closed when its balance is zero, and
reactivated.  A restriction is requested, takes effect when the request is approved, and
is removed in the same way.
-/
import NexusEfos.Approvals.Resolve
import NexusEfos.Loans.Lifecycle
import NexusEfos.Savings.Operations

namespace NexusEfos

/-! ## Accounts -/

/-- What the rules for the opening of an account are evaluated against. -/
structure OpeningContext where
  productCode : String
  customer : Customer

/-- `openSchema`. -/
structure OpenAccount where
  customerId : Id
  productVersionId : Id

/-- The promotional rate of an account opened now, and the end of its window. -/
def promoFields (version : ProductVersion) (now : DateTime) : Option ℚ × Option DateTime :=
  match version.promoInterestRate, version.promoDurationDays with
  | some rate, some days =>
    if version.interestRateType = "PROMOTIONAL" ∧ days ≠ 0 then
      (some rate, some (now + days * 24 * 60 * 60 * 1000))
    else (none, none)
  | _, _ => (none, none)

/-- `POST /`, with the number that is drawn for the account. -/
def openAccount (js : Js OpeningContext) (auth : Auth) (now : DateTime) (accountNumber : String)
    (body : OpenAccount) : Handler Id := do
  let foundCustomer ← findById .customer body.customerId fun c =>
    c.institutionId = auth.institutionId
  let customer ← Proc.orFail foundCustomer (.http 404 "Customer not found")
  Proc.require (customer.status = .active)
    (.http 400 ("Customer must be ACTIVE to open a savings account (currently " ++
      customer.status.text ++ ")"))
  let foundVersion ← findProductVersion body.productVersionId
  let (version, product) ← Proc.orFail foundVersion (.http 404 "Savings product not found")
  Proc.require (product.institutionId = auth.institutionId ∧ product.type = .savings)
    (.http 404 "Savings product not found")
  Proc.require (product.status = .active)
    (.http 400 "This savings product is not currently active")
  let matched ← matchRules js now auth.institutionId .savingsAccountOpening
    ⟨product.code, customer⟩
  requireUnblocked "Account opening" matched
  let account ← create .savingsAccount
    { institutionId := auth.institutionId, accountNumber, customerId := body.customerId,
      productVersionId := some body.productVersionId,
      promoInterestRate := (promoFields version now).1,
      promoExpiresAt := (promoFields version now).2 }
  let _ ← create .auditLog
    { institutionId := auth.institutionId, userId := some auth.userId,
      action := "savings.open_account", resource := "savings_account",
      resourceId := some account }
  let _ ← executeMatchedRules auth.institutionId auth.userId "SavingsAccount" account matched
  return account

/-- `POST /:id/close`. -/
def closeAccount (auth : Auth) (accountId : Id) : Handler Unit := do
  let found ← findById .savingsAccount accountId fun a => a.institutionId = auth.institutionId
  let account ← Proc.orFail found (.http 404 "Account not found")
  Proc.require (toNumber account.balance = 0)
    (.http 400 "Account balance must be zero before closing")
  let _ ← update .savingsAccount accountId fun a => { a with status := .closed }
  let _ ← create .auditLog
    { institutionId := auth.institutionId, userId := some auth.userId, action := "savings.close",
      resource := "savings_account", resourceId := some accountId }

/-- `POST /:id/reactivate`. -/
def reactivateAccount (auth : Auth) (accountId : Id) : Handler Unit := do
  let found ← updateGuarded .savingsAccount accountId
    (fun a => a.institutionId = auth.institutionId) fun a => { a with status := .active }
  Proc.require (found = true) (.http 404 "Account not found")
  let _ ← create .auditLog
    { institutionId := auth.institutionId, userId := some auth.userId,
      action := "savings.reactivate", resource := "savings_account",
      resourceId := some accountId }

/-! ## Restrictions -/

def RestrictionStatus.text : RestrictionStatus → String
  | .pendingApproval => "PENDING_APPROVAL"
  | .active => "ACTIVE"
  | .removed => "REMOVED"
  | .expired => "EXPIRED"

/-- `POST /:id/restrictions`. -/
def requestRestriction (auth : Auth) (accountId : Id) (type : RestrictionType) (reason : String)
    (expiresAt : Option DateTime) : Handler Id := do
  Proc.require (2 ≤ jsLength reason) .invalid
  let found ← findById .savingsAccount accountId fun a => a.institutionId = auth.institutionId
  let _ ← Proc.orFail found (.http 404 "Account not found")
  let restriction ← create .savingsRestriction
    { institutionId := auth.institutionId, accountId, type, reason, expiresAt,
      requestedById := auth.userId }
  let _ ← create .approvalRequest
    { institutionId := auth.institutionId, type := .savingsRestrictionCreate,
      targetType := "SavingsRestriction", targetId := restriction, reason := some reason,
      requestedById := auth.userId }
  return restriction

/-- `POST /restrictions/:restrictionId/request-removal`. -/
def requestRestrictionRemoval (auth : Auth) (restrictionId : Id) (reason : Option String) :
    Handler Unit := do
  let found ← findById .savingsRestriction restrictionId fun r =>
    r.institutionId = auth.institutionId
  let restriction ← Proc.orFail found (.http 404 "Restriction not found")
  Proc.require (restriction.status = .active)
    (.http 400 ("Only an ACTIVE restriction can be removed (currently " ++
      restriction.status.text ++ ")"))
  let _ ← update .savingsRestriction restrictionId fun r =>
    { r with removalRequestedById := some auth.userId }
  let _ ← create .approvalRequest
    { institutionId := auth.institutionId, type := .savingsRestrictionRemove,
      targetType := "SavingsRestriction", targetId := restrictionId,
      reason := some ((reason.filter fun r => r ≠ "").getD "Restriction removal requested"),
      requestedById := auth.userId }

/-! ## Runs -/

/-- The calls of the savings service: the operations that move balances, the life of an
account, the restrictions with the decisions about them, and any other code, which writes
neither accounts nor restrictions. -/
inductive SavingsCall
  | move (op : SavingsOperation)
  | openAccount (js : Js OpeningContext) (auth : Auth) (now : DateTime) (accountNumber : String)
      (body : OpenAccount)
  | closeAccount (auth : Auth) (accountId : Id)
  | reactivateAccount (auth : Auth) (accountId : Id)
  | requestRestriction (auth : Auth) (accountId : Id) (type : RestrictionType) (reason : String)
      (expiresAt : Option DateTime)
  | requestRestrictionRemoval (auth : Auth) (restrictionId : Id) (reason : Option String)
  | resolve (call : ResolveCall)
  | other (p : Handler Unit) (h : Quiet [.savingsAccount, .savingsRestriction] p)

def SavingsCall.handler : SavingsCall → Handler Unit
  | move op => op.handler
  | openAccount js auth now accountNumber body =>
    discard (NexusEfos.openAccount js auth now accountNumber body)
  | closeAccount auth accountId => NexusEfos.closeAccount auth accountId
  | reactivateAccount auth accountId => NexusEfos.reactivateAccount auth accountId
  | requestRestriction auth accountId type reason expiresAt =>
    discard (NexusEfos.requestRestriction auth accountId type reason expiresAt)
  | requestRestrictionRemoval auth restrictionId reason =>
    NexusEfos.requestRestrictionRemoval auth restrictionId reason
  | resolve call => call.handler
  | other p _ => p

end NexusEfos
