/-
Approving and rejecting a request: the two endpoints of `routes/approvals.routes.ts`.

Both read the request, check that it is pending and that someone else submitted it,
and then resolve it in one transaction: the guarded claim, the effect, and the
evidence in the audit log.  The transaction may be cut short by a fault at any of
its statements.
-/
import NexusEfos.Approvals.Apply

namespace NexusEfos

/-- What a rejection does to the target of the request. -/
def applyRejection (request : ApprovalRequest) : Handler Unit := do
  match request.type with
  | .customerStatusChange | .customerProfileUpdate =>
    match request.payload.previousStatus with
    | some previousStatus =>
      let _ ← update .customer request.targetId fun c => { c with status := previousStatus }
    | none => pure ()
  | .productActivation =>
    let _ ← update .product request.targetId fun p => { p with status := .draft }
  | .businessRuleActivation =>
    let _ ← update .businessRule request.targetId fun r => { r with status := .draft }
  | .commissionPayment =>
    let _ ← update .commissionRecord request.targetId fun c => { c with status := .pending }
  | .savingsRestrictionCreate =>
    let _ ← update .savingsRestriction request.targetId fun r =>
      { r with status := .removed, removalReason := some "Creation request rejected" }
  | .savingsRestrictionRemove =>
    let _ ← update .savingsRestriction request.targetId fun r =>
      { r with removalRequestedById := none }
  | .cashTransfer =>
    let _ ← update .cashTransfer request.targetId fun t => { t with status := .rejected }
  | .attendanceCorrection =>
    let _ ← update .attendanceRecord request.targetId fun r =>
      { r with correctionPending := false, proposedClockInAt := none, proposedClockOutAt := none }
  | .auditEngagementApproval =>
    let _ ← update .auditEngagement request.targetId fun a => { a with status := .planned }
  | .journalPosting =>
    let _ ← update .journal request.targetId fun j => { j with status := .draft }
  | .recurringJournalActivation =>
    let _ ← update .recurringJournal request.targetId fun r => { r with status := .draft }
  | .salaryStructureChange =>
    let _ ← update .employeeSalaryStructure request.targetId fun e => { e with status := .draft }
  | .payrollRunApproval =>
    let _ ← update .payrollRun request.targetId fun r => { r with status := .processed }
  | .assetTransfer =>
    let _ ← update .assetTransfer request.targetId fun t => { t with status := .rejected }
  | .assetDisposal =>
    let _ ← update .assetDisposal request.targetId fun d => { d with status := .rejected }
  | .customerMerge =>
    let _ ← update .customerMergeRecord request.targetId fun r => { r with status := .rejected }
  | .interBranchTransfer =>
    let _ ← update .interBranchTransfer request.targetId fun t => { t with status := .rejected }
  -- The other types leave their target as it is.
  | .accountHolderAdd | .amlAdjudication | .businessRuleTriggered | .loanRestructure
  | .loanReschedule | .loanWriteOff | .collectionVarianceAdjustment | .cashBalancingVariance
  | .financialPeriodReopen => pure ()

inductive Decision
  | approve | reject
  deriving DecidableEq

/-- The status a decision gives to the request. -/
def Decision.status : Decision → ApprovalRequestStatus
  | .approve => .approved
  | .reject => .rejected

def Decision.verb : Decision → String
  | .approve => "approve"
  | .reject => "reject"

/-- A call of `POST /:id/approve` or `POST /:id/reject`, and the statement of its
transaction at which a fault strikes, if one does. -/
structure ResolveCall where
  decision : Decision
  auth : Auth
  now : DateTime
  requestId : Id
  resolutionNote : Option String := none
  fault : Option (ℕ × Failure) := none

namespace ResolveCall

/-- The row of a request that a call has resolved. -/
def resolve (call : ResolveCall) (r : ApprovalRequest) : ApprovalRequest :=
  { r with status := call.decision.status, resolvedById := some call.auth.userId,
           resolvedAt := some call.now,
           resolutionNote := call.resolutionNote <|> r.resolutionNote }

/-- The guarded claim: only one of two racing calls can win it. -/
def claim (call : ResolveCall) : Handler Unit := do
  let claimed ← updateGuarded .approvalRequest call.requestId (fun r => r.status = .pending)
    call.resolve
  Proc.require (claimed = true) (.http 400 "This request has already been resolved")

/-- The effect of the decision on the target of the request. -/
def effect (call : ResolveCall) (existing : ApprovalRequest) : Handler Unit :=
  match call.decision with
  | .approve => applyApproval call.now existing call.auth.userId
  | .reject => applyRejection existing

/-- The body of the transaction. -/
def inTx (call : ResolveCall) (existing : ApprovalRequest) : Handler Unit := do
  call.claim
  call.effect existing
  let _ ← create .auditLog
    { institutionId := call.auth.institutionId, userId := some call.auth.userId,
      action := "approval." ++ call.decision.verb, resource := "approval_request",
      resourceId := some call.requestId }

/-- The transaction, with the request as it was read. -/
def commit (call : ResolveCall) (existing : ApprovalRequest) : Handler Unit :=
  Proc.transaction { resolves := some ⟨call.requestId, existing, call.decision = .approve, call.now⟩ }
    ((call.inTx existing).interrupted call.fault)

def handler (call : ResolveCall) : Handler Unit := do
  let found ← findById .approvalRequest call.requestId fun r =>
    r.institutionId = call.auth.institutionId
  let existing ← Proc.orFail found (.http 404 "Approval request not found")
  Proc.require (existing.status = .pending)
    (.http 400 "This request has already been resolved")
  Proc.require (existing.requestedById ≠ call.auth.userId)
    (.http 403 ("Segregation of duties: cannot " ++ call.decision.verb ++
      " a request you submitted yourself"))
  call.commit existing

end ResolveCall

end NexusEfos
