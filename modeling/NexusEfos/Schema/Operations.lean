/-
The rows of payroll, fixed assets, attendance, audits and customers, and the
approval requests through which changes to them pass.
-/
import NexusEfos.Schema.Accounting

namespace NexusEfos

/-! ## Payroll -/

inductive SalaryStructureStatus
  | draft | pendingApproval | active | superseded
  deriving DecidableEq

/-- A flat amount, or a percentage of the basic salary. -/
structure EmployeeAllowance where
  earningCodeId : Id
  amount : Cents
  isPercentageOfBasic : Bool := false

structure EmployeeDeduction where
  deductionCodeId : Id
  amount : Cents
  isPercentageOfBasic : Bool := false
  active : Bool := true

structure EmployeeSalaryStructure where
  institutionId : Id
  employeeId : Id
  status : SalaryStructureStatus := .draft
  approvedById : Option Id := none
  payGroupId : Option Id := none
  salaryGradeId : Option Id := none
  basicSalary : Cents := 0
  effectiveDate : DateTime := 0
  createdById : Id := 0
  allowances : List EmployeeAllowance := []
  deductions : List EmployeeDeduction := []

structure SalaryGrade where
  institutionId : Id
  name : String
  minSalary : Cents
  maxSalary : Cents

structure EarningCode where
  institutionId : Id
  taxable : Bool := true

/-- `rate` is the value of a `Decimal(5, 2)` column, a percentage. -/
structure TaxBand where
  sequence : ℤ
  lowerBound : Cents
  upperBound : Option ℚ := none
  rate : ℚ

structure TaxTable where
  institutionId : Id
  name : String
  effectiveDate : DateTime
  active : Bool := false
  bands : List TaxBand := []

/-- `rate` is the value of a `Decimal(5, 2)` column, a percentage. -/
structure StatutoryContributionRate where
  institutionId : Id
  name : String
  rate : ℚ
  ceiling : Option Cents := none
  minimum : Option Cents := none
  effectiveDate : DateTime
  active : Bool := false

inductive PayFrequency
  | monthly | biWeekly | weekly
  deriving DecidableEq

structure PayrollCalendar where
  institutionId : Id
  name : String
  frequency : PayFrequency
  payDayOfMonth : Option ℕ := none

inductive PayrollPeriodStatus
  | opened | processing | pendingApproval | approved | paid | closed
  deriving DecidableEq

structure PayrollPeriod where
  name : String
  endDate : DateTime
  institutionId : Id := 0
  calendarId : Id := 0
  startDate : DateTime := 0
  payDate : DateTime := 0
  status : PayrollPeriodStatus := .opened

inductive PayrollRunStatus
  | draft | processing | processed | pendingApproval | approved | paid | reversed
  deriving DecidableEq

structure PayrollRun where
  institutionId : Id
  payrollPeriodId : Id
  status : PayrollRunStatus := .draft
  totalGross : Cents := 0
  totalDeductions : Cents := 0
  totalNet : Cents := 0
  processedById : Option Id := none
  processedAt : Option DateTime := none
  approvedById : Option Id := none
  approvedAt : Option DateTime := none
  paidById : Option Id := none
  paidAt : Option DateTime := none
  reversedById : Option Id := none
  reversedAt : Option DateTime := none
  reversalReason : Option String := none
  accrualJournalId : Option Id := none
  settlementJournalId : Option Id := none

structure PayrollEntry where
  payrollRunId : Id
  paye : Cents
  ssnitEmployee : Cents
  ssnitEmployerTier1 : Cents
  tier2Employer : Cents
  otherDeductions : Cents := 0
  employeeId : Id := 0
  basicSalary : Cents := 0
  grossPay : Cents := 0
  taxableIncome : Cents := 0
  netPay : Cents := 0

/-! ## Fixed assets -/

inductive DepreciationMethod
  | straightLine | reducingBalance
  deriving DecidableEq

inductive AssetStatus
  | active | underMaintenance | disposed | lost
  deriving DecidableEq

/-- `depreciationRate` is the value of a `Decimal(5, 2)` column. -/
structure Asset where
  institutionId : Id
  assetCode : String
  acquisitionCost : Cents
  usefulLifeMonths : ℕ
  residualValue : Cents := 0
  depreciationMethod : DepreciationMethod
  depreciationRate : Option ℚ := none
  accumulatedDepreciation : Cents := 0
  status : AssetStatus := .active
  currentEmployeeId : Option Id := none
  currentDepartmentId : Option Id := none
  currentBranchId : Option Id := none
  disposedAt : Option DateTime := none
  disposalReason : Option String := none

structure AssetDepreciationEntry where
  institutionId : Id
  assetId : Id
  periodLabel : String
  depreciationAmount : Cents
  accumulatedDepreciation : Cents
  netBookValue : Cents
  journalId : Option Id := none
  postedById : Id

structure AssetAllocation where
  institutionId : Id
  assetId : Id
  employeeId : Option Id := none
  departmentId : Option Id := none
  branchId : Option Id := none
  allocatedById : Id
  notes : Option String := none
  returnedAt : Option DateTime := none
  returnCondition : Option String := none

inductive AssetCondition
  | good | fair | poor | damaged | missing
  deriving DecidableEq

structure AssetVerificationRecord where
  institutionId : Id
  assetId : Id
  verifiedById : Id
  locationConfirmed : Bool
  custodianConfirmed : Bool
  condition : AssetCondition
  variance : Bool

inductive AssetTransferStatus
  | pendingApproval | approved | rejected
  deriving DecidableEq

structure AssetTransfer where
  assetId : Id
  toEmployeeId : Option Id := none
  toDepartmentId : Option Id := none
  toBranchId : Option Id := none
  status : AssetTransferStatus := .pendingApproval
  transferredAt : Option DateTime := none

inductive AssetDisposalType
  | sale | donation | writeOff | scrap
  deriving DecidableEq

inductive AssetDisposalStatus
  | pendingApproval | approved | rejected
  deriving DecidableEq

structure AssetDisposal where
  institutionId : Id
  assetId : Id
  disposalType : AssetDisposalType
  disposalDate : DateTime
  saleProceeds : Option Cents := none
  netBookValueAtDisposal : Cents
  gainLoss : Cents
  reason : String
  status : AssetDisposalStatus := .pendingApproval
  requestedById : Id
  approvedById : Option Id := none
  journalId : Option Id := none

/-! ## Staff, branches and roles -/

inductive EmploymentType
  | permanent | contract | temporary | intern | consultant
  deriving DecidableEq

structure Employee where
  institutionId : Id
  branchId : Option Id := none
  employeeNumber : Option String := none
  fullName : String
  email : String
  employmentType : EmploymentType := .permanent
  departmentId : Option Id := none
  positionId : Option Id := none
  division : Option String := none
  grade : Option String := none
  employmentDate : Option DateTime := none
  confirmationDate : Option DateTime := none
  reportingManagerId : Option Id := none
  bankName : Option String := none
  bankAccountNumber : Option String := none
  bankAccountName : Option String := none

structure Branch where
  institutionId : Id
  name : String
  code : String
  region : Option String := none

/-- A role without an institution is a template of the system. -/
structure Role where
  institutionId : Option Id
  name : String
  description : Option String := none
  requireMfa : Bool := false

structure Permission where
  code : String

structure RolePermission where
  roleId : Id
  permissionId : Id

/-! ## Attendance and internal audit -/

structure AttendanceRecord where
  clockInAt : DateTime
  clockOutAt : Option DateTime := none
  correctionPending : Bool := false
  proposedClockInAt : Option DateTime := none
  proposedClockOutAt : Option DateTime := none

inductive AuditEngagementStatus
  | planned | approved | inProgress | underReview | completed | followUp | closed | archived
  deriving DecidableEq

inductive AuditEngagementType
  | internal | external | regulatory | it | financial
  deriving DecidableEq

inductive AuditRating
  | satisfactory | needsImprovement | unsatisfactory
  deriving DecidableEq

structure AuditEngagement where
  institutionId : Id
  type : AuditEngagementType
  branchId : Option Id := none
  leadAuditor : String
  scope : String
  status : AuditEngagementStatus := .planned
  plannedStartDate : DateTime
  completionDate : Option DateTime := none
  rating : Option AuditRating := none
  raisedById : Id

inductive AuditFindingRisk
  | low | medium | high | critical
  deriving DecidableEq

inductive AuditFindingStatus
  | opened | inProgress | implemented | verified | closed
  deriving DecidableEq

structure AuditFinding where
  institutionId : Id
  engagementId : Id
  description : String
  riskClassification : AuditFindingRisk
  rootCauseAnalysis : Option String := none
  recommendation : String
  managementResponse : Option String := none
  actionOwnerId : Option Id := none
  targetRemediationDate : Option DateTime := none
  overdue : Bool := false
  status : AuditFindingStatus := .opened
  verifiedAt : Option DateTime := none
  verifiedById : Option Id := none
  closedAt : Option DateTime := none
  closedById : Option Id := none
  raisedById : Id

/-! ## Customers -/

inductive AccountStatus
  | registered | pendingVerification | pendingApproval | verified | active | dormant
  | restricted | suspended | blacklisted | closed | archived
  deriving DecidableEq

inductive CustomerMergeStatus
  | active | merged
  deriving DecidableEq

inductive CustomerSegment
  | individual | business | farmerGroup | womensGroup | youth | corporate
  deriving DecidableEq

inductive RiskRating
  | low | medium | high
  deriving DecidableEq

/-- The columns a profile update may set. -/
structure CustomerProfile where
  fullName : String := ""
  phone : String := ""
  email : Option String := none
  idType : Option String := none
  idNumber : Option String := none
  branchId : Option Id := none
  address : Option String := none
  segment : CustomerSegment := .individual
  riskRating : Option RiskRating := none
  preferredChannel : Option String := none
  preferredLanguage : Option String := none
  smsEnabled : Bool := true
  emailEnabled : Bool := true
  whatsappEnabled : Bool := true
  marketingEnabled : Bool := false
  transactionAlertsEnabled : Bool := true
  statementDeliveryEnabled : Bool := true

inductive KycStatus
  | pending | verified | rejected
  deriving DecidableEq

inductive PepStatus
  | notPep | domesticPep | foreignPep | pepAssociate
  deriving DecidableEq

inductive CddLevel
  | standard | enhanced
  deriving DecidableEq

/-- One reason for a risk score, with its points. -/
structure ScoreBreakdownItem where
  factor : String
  points : ℕ

structure Customer where
  institutionId : Id
  customerNumber : Option String := none
  profile : CustomerProfile := {}
  status : AccountStatus := .registered
  kycStatus : KycStatus := .pending
  watchlistFlag : Bool := false
  possibleDuplicate : Bool := false
  pepStatus : PepStatus := .notPep
  cddLevel : CddLevel := .standard
  cddNotes : Option String := none
  cddCompletedAt : Option DateTime := none
  cddCompletedById : Option Id := none
  kycRiskScore : Option ℕ := none
  kycRiskScoreBreakdown : List ScoreBreakdownItem := []
  archived : Bool := false
  importBatchId : Option Id := none
  deletedAt : Option DateTime := none
  mergedIntoCustomerId : Option Id := none
  mergeStatus : CustomerMergeStatus := .active

structure WatchlistEntry where
  institutionId : Id
  fullName : String
  reason : Option String := none
  deletedAt : Option DateTime := none

inductive AccountHolderRole
  | joint | authorisedSignatory | guardian | nominee | powerOfAttorney | corporateRepresentative
  deriving DecidableEq

structure AccountHolder where
  institutionId : Id
  customerId : Id
  role : AccountHolderRole
  loanId : Option Id := none
  savingsAccountId : Option Id := none
  addedById : Option Id := none

/-- A row of a table that matters here only for the customer it belongs to: next of kin, notes,
beneficial owners, documents, consents, cheques, interactions and complaints. -/
structure CustomerReference where
  customerId : Id

structure Beneficiary where
  customerId : Id
  fullName : String := ""
  relationship : String := ""
  allocationPct : Cents := 0
  phone : Option String := none
  deletedAt : Option DateTime := none

structure CollectionRoute where
  institutionId : Id
  name : String

structure CollectionRouteCustomer where
  routeId : Id := 0
  customerId : Id
  sequence : Option ℤ := none
  active : Bool := true
  removedAt : Option DateTime := none

inductive CustomerMergeRecordStatus
  | pendingApproval | approved | rejected | rolledBack
  deriving DecidableEq

/-! ## Approvals -/

inductive ApprovalRequestType
  | customerStatusChange | customerProfileUpdate | accountHolderAdd | productActivation
  | amlAdjudication | businessRuleActivation | businessRuleTriggered | loanRestructure
  | loanReschedule | loanWriteOff | collectionVarianceAdjustment | commissionPayment
  | savingsRestrictionCreate | savingsRestrictionRemove | cashTransfer | cashBalancingVariance
  | journalPosting | financialPeriodReopen | recurringJournalActivation | interBranchTransfer
  | salaryStructureChange | payrollRunApproval | attendanceCorrection | auditEngagementApproval
  | assetTransfer | assetDisposal | customerMerge
  deriving DecidableEq

inductive ApprovalRequestStatus
  | pending | approved | rejected
  deriving DecidableEq

/-- What a profile update sets: a field is absent when the request left it out. -/
structure CustomerProfilePatch where
  fullName : Option String := none
  phone : Option String := none
  email : Option (Option String) := none
  idType : Option (Option String) := none
  idNumber : Option (Option String) := none
  branchId : Option (Option Id) := none
  address : Option (Option String) := none
  segment : Option CustomerSegment := none
  riskRating : Option (Option RiskRating) := none
  preferredChannel : Option (Option String) := none
  preferredLanguage : Option (Option String) := none
  smsEnabled : Option Bool := none
  emailEnabled : Option Bool := none
  whatsappEnabled : Option Bool := none
  marketingEnabled : Option Bool := none
  transactionAlertsEnabled : Option Bool := none
  statementDeliveryEnabled : Option Bool := none

/-- The JSON payload of a request: every key the code reads, absent unless the
requests of that type carry it. -/
structure ApprovalPayload where
  status : Option AccountStatus := none
  previousStatus : Option AccountStatus := none
  profile : CustomerProfilePatch := {}
  customerId : Option Id := none
  role : Option AccountHolderRole := none
  loanId : Option Id := none
  savingsAccountId : Option Id := none

structure ApprovalRequest where
  institutionId : Id
  type : ApprovalRequestType
  status : ApprovalRequestStatus := .pending
  targetType : String
  targetId : Id
  payload : ApprovalPayload := {}
  reason : Option String := none
  requestedById : Id
  resolvedById : Option Id := none
  resolvedAt : Option DateTime := none
  resolutionNote : Option String := none

/-! ## Imports -/

inductive ImportEntityType
  | customer | savingsAccount | loan
  deriving DecidableEq

inductive ImportMethod
  | standard | openingBalance | fullHistory
  deriving DecidableEq

inductive ImportBatchStatus
  | dryRun | committed | failed | reversed
  deriving DecidableEq

structure ImportBatch where
  institutionId : Id
  entityType : ImportEntityType
  method : ImportMethod := .standard
  status : ImportBatchStatus := .dryRun
  totalRows : ℕ
  successRows : ℕ := 0
  errorRows : ℕ := 0
  createdById : Id
  committedAt : Option DateTime := none

/-! ## Requests and jobs -/

inductive ScheduledJobStatus
  | claimed | completed | failed
  deriving DecidableEq

structure ScheduledJobRun where
  jobType : String
  runDate : DateTime
  claimedByProcessId : String
  status : ScheduledJobStatus := .claimed
  completedAt : Option DateTime := none
  error : Option String := none

/-- The response columns are null while the request is in progress. -/
structure IdempotencyKey where
  institutionId : Id
  userId : Id
  endpoint : String
  key : String
  requestHash : String
  responseStatus : Option ℕ := none
  responseBody : Option String := none
  completedAt : Option DateTime := none

structure AuditLog where
  institutionId : Id
  userId : Option Id
  action : String
  resource : String
  resourceId : Option Id := none

end NexusEfos
