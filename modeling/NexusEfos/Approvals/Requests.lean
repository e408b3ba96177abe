/-
The endpoints that ask for an approval and leave their target pending.

Each finds its target, checks its status, files the request, and marks the target, in
statements of their own.  Those of `routes/customer.routes.ts` ask for an approval only when
the change is a sensitive one, and make it at once otherwise.
-/
import NexusEfos.Approvals.ExactlyOnce
import NexusEfos.Operations.Assets
import NexusEfos.Operations.Payroll
import NexusEfos.Ledger.ManualJournals
import NexusEfos.Loans.Lifecycle

namespace NexusEfos

/-! ## Customers -/

def KycStatus.text : KycStatus → String
  | .pending => "PENDING"
  | .verified => "VERIFIED"
  | .rejected => "REJECTED"

def lockedStatuses : List AccountStatus := [.closed, .archived, .blacklisted, .pendingApproval]

/-- `assertNotLocked`, with the answer it leads to. -/
def assertNotLocked (status : AccountStatus) : Handler Unit :=
  Proc.require (status ∉ lockedStatuses)
    (.http 409 ("This customer is " ++ status.text ++
      " and locked. No fields can be changed until the record is reopened."))

/-- `checkVersion`, where a version is expected.  The version numbers are kept by the database
client. -/
def checkVersion (versionNo : Db → Id → Option ℤ) (id : Id) (expectedVersion : Option ℤ) :
    Handler Unit :=
  match expectedVersion with
  | none => pure ()
  | some expected => do
    let current ← query fun s => versionNo s id
    Proc.require (∀ version ∈ current, version = expected)
      (.http 409 "This record was changed by someone else since you loaded it")

/-- What `updateSchema` asks for.  `isEmail` is the format check of the library. -/
def CustomerProfilePatch.IsValid (isEmail : String → Bool) (patch : CustomerProfilePatch) : Prop :=
  (∀ name ∈ patch.fullName, 2 ≤ jsLength name) ∧ (∀ phone ∈ patch.phone, 6 ≤ jsLength phone) ∧
    ∀ email ∈ patch.email, ∀ text ∈ email, isEmail text = true

instance (isEmail : String → Bool) (patch : CustomerProfilePatch) :
    Decidable (patch.IsValid isEmail) :=
  inferInstanceAs (Decidable ((∀ name ∈ patch.fullName, 2 ≤ jsLength name) ∧
    (∀ phone ∈ patch.phone, 6 ≤ jsLength phone) ∧
      ∀ email ∈ patch.email, ∀ text ∈ email, isEmail text = true))

/-- One of the `CRITICAL_FIELDS` is among the fields that are sent. -/
def CustomerProfilePatch.touchesCriticalField (patch : CustomerProfilePatch) : Bool :=
  patch.fullName.isSome || patch.idType.isSome || patch.idNumber.isSome || patch.segment.isSome

/-- The log entry about a customer. -/
def customerLog (auth : Auth) (action : String) (customerId : Id) : AuditLog :=
  { institutionId := auth.institutionId, userId := some auth.userId, action,
    resource := "customer", resourceId := some customerId }

/-- `PATCH /:id`.  The answer is the request, if the change needs an approval. -/
def updateCustomer (isEmail : String → Bool) (versionNo : Db → Id → Option ℤ) (auth : Auth)
    (customerId : Id) (expectedVersion : Option ℤ) (patch : CustomerProfilePatch) :
    Handler (Option Id) := do
  Proc.require (patch.IsValid isEmail) .invalid
  let found ← findById .customer customerId fun c => c.institutionId = auth.institutionId
  let existing ← Proc.orFail found (.http 404 "Customer not found")
  assertNotLocked existing.status
  checkVersion versionNo customerId expectedVersion
  if patch.touchesCriticalField = true ∧ existing.status ∈ [AccountStatus.active, .verified] then
    let approval ← create .approvalRequest
      { institutionId := auth.institutionId, type := .customerProfileUpdate,
        targetType := "Customer", targetId := customerId, payload := { profile := patch },
        reason := some "Critical field change on an active/verified customer",
        requestedById := auth.userId }
    let _ ← update .customer customerId fun c => { c with status := .pendingApproval }
    let _ ← create .auditLog (customerLog auth "customer.update_requested" customerId)
    return some approval
  else
    let _ ← updateAs { risk := patch.riskRating.map fun riskRating => ⟨some customerId, none, riskRating⟩ }
      .customer customerId fun c => { c with profile := patch.apply c.profile }
    let _ ← create .auditLog (customerLog auth "customer.update" customerId)
    return none

/-- `PATCH /:id/status`. -/
def changeCustomerStatus (auth : Auth) (customerId : Id) (status : AccountStatus) :
    Handler (Option Id) := do
  let found ← findById .customer customerId fun c => c.institutionId = auth.institutionId
  let existing ← Proc.orFail found (.http 404 "Customer not found")
  assertNotLocked existing.status
  Proc.require (status ∈ [AccountStatus.verified, .active] → existing.kycStatus = .verified)
    (.http 409 ("Cannot set status to " ++ status.text ++
      " — KYC must be VERIFIED first (currently " ++ existing.kycStatus.text ++ ")"))
  if existing.status = .active ∧ status ≠ .active then
    let approval ← create .approvalRequest
      { institutionId := auth.institutionId, type := .customerStatusChange,
        targetType := "Customer", targetId := customerId,
        payload := { status := some status, previousStatus := some existing.status },
        reason := some "Status change requested on an ACTIVE customer",
        requestedById := auth.userId }
    let _ ← update .customer customerId fun c => { c with status := .pendingApproval }
    let _ ← create .auditLog (customerLog auth "customer.status_change_requested" customerId)
    return some approval
  else
    let _ ← update .customer customerId fun c => { c with status }
    let _ ← create .auditLog (customerLog auth "customer.status_change" customerId)
    return none

/-! ## Products -/

/-- The log entry about a product. -/
def productLog (auth : Auth) (action : String) (productId : Id) : AuditLog :=
  { institutionId := auth.institutionId, userId := some auth.userId, action,
    resource := "product", resourceId := some productId }

/-- `POST /:id/activate` of the products. -/
def activateProduct (auth : Auth) (productId : Id) : Handler Id := do
  let found ← findById .product productId fun p => p.institutionId = auth.institutionId
  let product ← Proc.orFail found (.http 404 "Product not found")
  Proc.require (product.status ≠ .pendingApproval)
    (.http 400 "This product's activation is already pending approval")
  let approval ← create .approvalRequest
    { institutionId := auth.institutionId, type := .productActivation, targetType := "Product",
      targetId := productId, requestedById := auth.userId }
  let _ ← updateAs { files := some (.product productId) } .product productId fun p =>
    { p with status := .pendingApproval }
  let _ ← create .auditLog (productLog auth "product.activation_requested" productId)
  return approval

/-- Set the status of a row of the institution, whatever it is, and log it. -/
def setStatus (target : ApprovalTarget) (m : Model) (institutionId : Row m → Id) (auth : Auth)
    (id : Id) (f : Row m → Row m) (notFound : String) (log : Option AuditLog) : Handler Unit := do
  let updated ← updateGuardedAs { moves := some target } m id (fun row => institutionId row = auth.institutionId) f
  Proc.require (updated = true) (.http 404 notFound)
  match log with
  | some entry => let _ ← create .auditLog entry
  | none => pure ()

/-- `POST /:id/withdraw` of the products. -/
def withdrawProduct (auth : Auth) (productId : Id) : Handler Unit :=
  setStatus (.product productId) .product Product.institutionId auth productId
    (fun p => { p with status := .withdrawn }) "Product not found"
    (some (productLog auth "product.withdraw" productId))

/-- `POST /:id/archive` of the products. -/
def archiveProduct (auth : Auth) (productId : Id) : Handler Unit :=
  setStatus (.product productId) .product Product.institutionId auth productId
    (fun p => { p with status := .archived }) "Product not found"
    (some (productLog auth "product.archive" productId))

/-! ## Business rules -/

def BusinessRuleStatus.text : BusinessRuleStatus → String
  | .draft => "DRAFT"
  | .pendingApproval => "PENDING_APPROVAL"
  | .active => "ACTIVE"
  | .retired => "RETIRED"

/-- The log entry about a rule. -/
def ruleLog (auth : Auth) (action : String) (ruleId : Id) : AuditLog :=
  { institutionId := auth.institutionId, userId := some auth.userId, action,
    resource := "business_rule", resourceId := some ruleId }

/-- `POST /:id/request-activation` of the rules. -/
def requestRuleActivation (auth : Auth) (ruleId : Id) : Handler Id := do
  let found ← findById .businessRule ruleId fun r => r.institutionId = auth.institutionId
  let rule ← Proc.orFail found (.http 404 "Rule not found")
  Proc.require (rule.status = .draft)
    (.http 400 ("Rule must be DRAFT to request activation (currently " ++ rule.status.text ++ ")"))
  let approval ← create .approvalRequest
    { institutionId := auth.institutionId, type := .businessRuleActivation,
      targetType := "BusinessRule", targetId := ruleId, requestedById := auth.userId }
  let _ ← updateAs { files := some (.businessRule ruleId) } .businessRule ruleId fun r =>
    { r with status := .pendingApproval }
  let _ ← create .auditLog (ruleLog auth "business_rule.activation_requested" ruleId)
  return approval

/-- `POST /:id/retire`. -/
def retireRule (auth : Auth) (ruleId : Id) : Handler Unit :=
  setStatus (.businessRule ruleId) .businessRule BusinessRule.institutionId auth ruleId
    (fun r => { r with status := .retired }) "Rule not found"
    (some (ruleLog auth "business_rule.retire" ruleId))

/-! ## Recurring journals -/

def RecurringJournalStatus.text : RecurringJournalStatus → String
  | .draft => "DRAFT"
  | .pendingApproval => "PENDING_APPROVAL"
  | .active => "ACTIVE"
  | .suspended => "SUSPENDED"

/-- `POST /recurring-journals/:id/request-activation`. -/
def requestRecurringActivation (auth : Auth) (rjId : Id) : Handler Unit := do
  let found ← findById .recurringJournal rjId fun r => r.institutionId = auth.institutionId
  let rj ← Proc.orFail found (.http 404 "Recurring journal not found")
  Proc.require (rj.status = .draft)
    (.http 400 ("Only a DRAFT template can request activation (currently " ++ rj.status.text ++ ")"))
  let _ ← create .approvalRequest
    { institutionId := auth.institutionId, type := .recurringJournalActivation,
      targetType := "RecurringJournal", targetId := rjId,
      reason := some ("Activate recurring journal: " ++ rj.description),
      requestedById := auth.userId }
  let _ ← updateAs { files := some (.recurringJournal rjId) } .recurringJournal rjId fun r =>
    { r with status := .pendingApproval }

/-- `POST /recurring-journals/:id/suspend`. -/
def suspendRecurring (auth : Auth) (rjId : Id) : Handler Unit :=
  setStatus (.recurringJournal rjId) .recurringJournal RecurringJournal.institutionId auth rjId
    (fun r => { r with status := .suspended }) "Not found" none

/-- `POST /recurring-journals/:id/reactivate`. -/
def reactivateRecurring (auth : Auth) (now : DateTime) (rjId : Id) : Handler RecurringJournal := do
  let found ← findById .recurringJournal rjId fun r => r.institutionId = auth.institutionId
  let rj ← Proc.orFail found (.http 404 "Not found")
  Proc.require (rj.status = .suspended) (.http 400 "Only a SUSPENDED template can be reactivated")
  updateAs { moves := some (.recurringJournal rjId) } .recurringJournal rjId fun r =>
    { r with status := .active, consecutiveFailures := 0, nextExecutionDate := now }

/-! ## Assets -/

/-- `transferSchema` of the assets. -/
structure AssetTransferBody where
  assetId : Id
  toEmployeeId : Option Id := none
  toDepartmentId : Option Id := none
  toBranchId : Option Id := none
  reason : String

/-- `POST /transfers` of the assets. -/
def requestAssetTransfer (auth : Auth) (body : AssetTransferBody) : Handler Id := do
  Proc.require (2 ≤ jsLength body.reason) .invalid
  Proc.require (body.toEmployeeId.isSome ∨ body.toDepartmentId.isSome ∨ body.toBranchId.isSome)
    (.http 400 "A destination (employee, department, or branch) is required")
  let found ← findById .asset body.assetId fun a => a.institutionId = auth.institutionId
  let asset ← Proc.orFail found (.http 404 "Asset not found")
  Proc.require (asset.status ≠ .disposed) (.http 400 "A disposed asset cannot be transferred")
  let transfer ← create .assetTransfer
    { assetId := body.assetId, toEmployeeId := body.toEmployeeId,
      toDepartmentId := body.toDepartmentId, toBranchId := body.toBranchId }
  let _ ← createAs { files := some (.asset body.assetId) } .approvalRequest
    { institutionId := auth.institutionId, type := .assetTransfer, targetType := "AssetTransfer",
      targetId := transfer, reason := some body.reason, requestedById := auth.userId }
  let _ ← create .auditLog
    { institutionId := auth.institutionId, userId := some auth.userId,
      action := "asset_transfer.requested", resource := "asset_transfer",
      resourceId := some transfer }
  return transfer

/-! ## Salaries and commissions -/

def SalaryStructureStatus.text : SalaryStructureStatus → String
  | .draft => "DRAFT"
  | .pendingApproval => "PENDING_APPROVAL"
  | .active => "ACTIVE"
  | .superseded => "SUPERSEDED"

/-- `POST /salary-structures/:id/request-approval`. -/
def requestSalaryApproval (auth : Auth) (structureId : Id) : Handler Unit := do
  let found ← findById .employeeSalaryStructure structureId fun e =>
    e.institutionId = auth.institutionId
  let structure_ ← Proc.orFail found (.http 404 "Salary structure not found")
  Proc.require (structure_.status = .draft)
    (.http 400 ("Only a DRAFT structure can request approval (currently " ++
      structure_.status.text ++ ")"))
  let _ ← create .approvalRequest
    { institutionId := auth.institutionId, type := .salaryStructureChange,
      targetType := "EmployeeSalaryStructure", targetId := structureId,
      requestedById := auth.userId }
  let _ ← update .employeeSalaryStructure structureId fun e => { e with status := .pendingApproval }

def CommissionStatus.text : CommissionStatus → String
  | .pending => "PENDING"
  | .pendingApproval => "PENDING_APPROVAL"
  | .paid => "PAID"

/-- `POST /commission-records/:id/request-payment`. -/
def requestCommissionPayment (auth : Auth) (recordId : Id) : Handler Unit := do
  let found ← findById .commissionRecord recordId fun r => r.institutionId = auth.institutionId
  let record ← Proc.orFail found (.http 404 "Commission record not found")
  Proc.require (record.status = .pending)
    (.http 400 ("Only a PENDING record can request payment (currently " ++ record.status.text ++ ")"))
  let _ ← create .approvalRequest
    { institutionId := auth.institutionId, type := .commissionPayment,
      targetType := "CommissionRecord", targetId := recordId, requestedById := auth.userId }
  let _ ← updateAs { requestsPayment := some recordId } .commissionRecord recordId fun r =>
    { r with status := .pendingApproval }

end NexusEfos
