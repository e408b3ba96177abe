/-
The rows of loan products, loans, business rules and cash custody.
-/
import NexusEfos.Schema.Accounting

namespace NexusEfos

inductive ProductType
  | loan | savings
  deriving DecidableEq

inductive ProductStatus
  | draft | pendingApproval | active | withdrawn | archived
  deriving DecidableEq

structure Product where
  institutionId : Id := 0
  code : String := ""
  type : ProductType := .loan
  status : ProductStatus := .draft

/-- `interestRate` is the value of a `Decimal(5, 2)` column and `promoInterestRate` of a
`Decimal(6, 3)` column, both percentages. -/
structure ProductVersion where
  productId : Id
  interestRate : ℚ
  interestMethod : String := "FLAT"
  interestRateType : String := "FIXED"
  promoInterestRate : Option ℚ := none
  promoDurationDays : Option ℤ := none
  minLoanAmount : Option Cents := none
  maxLoanAmount : Option Cents := none
  minTenureMonths : Option ℕ := none
  maxTenureMonths : Option ℕ := none

inductive LoanStatus
  | pending | approved | rejected | disbursed | active | closed | defaulted | writtenOff
  deriving DecidableEq

inductive ArrearsClassification
  | current | arrears1To30 | arrears31To60 | arrears61To90 | arrears90Plus
  deriving DecidableEq

/-- `interestRate` is the value of a `Decimal(5, 2)` column, a percentage. -/
structure Loan where
  institutionId : Id
  customerId : Id
  principal : Cents
  interestRate : ℚ
  interestMethod : String := "FLAT"
  termMonths : ℕ
  status : LoanStatus := .pending
  disbursedAt : Option DateTime := none
  daysInArrears : ℤ := 0
  arrearsAmount : Cents := 0
  arrearsClassification : ArrearsClassification := .current
  lastArrearsCheckAt : Option DateTime := none
  initiatedById : Option Id := none
  approvedById : Option Id := none
  importBatchId : Option Id := none
  deletedAt : Option DateTime := none

inductive InstallmentStatus
  | pending | partiallyPaid | paid | overdue
  deriving DecidableEq

structure LoanInstallment where
  loanId : Id
  installmentNumber : ℕ
  dueDate : DateTime
  principalDue : Cents
  interestDue : Cents
  totalDue : Cents
  principalPaid : Cents := 0
  interestPaid : Cents := 0
  status : InstallmentStatus := .pending
  deletedAt : Option DateTime := none
  deriving DecidableEq

inductive CreditRecommendation
  | approve | review | decline
  deriving DecidableEq

/-- A named part of a credit score. -/
structure ScoreFactor where
  factor : String
  points : ℤ
  deriving DecidableEq

/-- The two ratios are percentages. -/
structure CreditAssessment where
  institutionId : Id
  loanId : Id
  monthlyIncome : Cents
  monthlyExpenses : Cents
  existingLoanObligations : Cents
  proposedInstallment : Cents
  debtToIncomeRatio : Cents
  repaymentCapacityRatio : Cents
  riskScore : ℤ
  scoreBreakdown : List ScoreFactor
  recommendation : CreditRecommendation
  creditBureauChecked : Bool := false
  creditBureauNotes : Option String := none
  assessedById : Id

structure LoanRepayment where
  loanId : Id
  amount : Cents
  recordedById : Option Id := none
  deletedAt : Option DateTime := none

/-- `newRate` is the value of a `Decimal(6, 3)` column. -/
structure LoanRestructure where
  loanId : Id
  originalPrincipal : Cents := 0
  originalRate : ℚ := 0
  originalTermMonths : ℕ := 0
  newPrincipal : Cents
  newRate : ℚ
  newTermMonths : ℕ
  reason : String := ""
  requestedById : Option Id := none
  appliedAt : Option DateTime := none

structure LoanReschedule where
  loanId : Id
  shiftDays : ℤ
  appliedAt : Option DateTime := none

structure LoanWriteOff where
  loanId : Id
  amount : Cents := 0
  reason : String := ""
  requestedById : Option Id := none
  appliedAt : Option DateTime := none
  recoveredAmount : Cents := 0

inductive BusinessRuleStatus
  | draft | pendingApproval | active | retired
  deriving DecidableEq

inductive ConditionOperator
  | equals | notEquals | greaterThan | greaterThanOrEqual | lessThan | lessThanOrEqual | contains
  deriving DecidableEq

/-- A value that a rule compares with: a number or a text. -/
inductive RuleValue
  | number (x : ℚ)
  | text (s : String)
  deriving DecidableEq

structure RuleCondition where
  field : String
  operator : ConditionOperator
  value : RuleValue
  deriving DecidableEq

inductive RuleActionType
  | flag | requireAdditionalApproval | reject
  deriving DecidableEq

structure RuleAction where
  type : RuleActionType
  message : Option String := none
  deriving DecidableEq

inductive BusinessRuleTriggerPoint
  | loanInitiation | loanApproval | loanDisbursement | savingsAccountOpening
  | customerCreation | employeeOnboarding
  deriving DecidableEq

inductive BusinessRuleCategory
  | validation | eligibility | calculation | approval | compliance | notification
  deriving DecidableEq

structure BusinessRule where
  institutionId : Id
  ruleCode : String
  name : String
  businessPurpose : Option String := none
  description : Option String := none
  category : BusinessRuleCategory := .validation
  triggerPoint : BusinessRuleTriggerPoint
  conditions : List RuleCondition := []
  conditionLogic : String := "ALL"
  actions : List RuleAction := []
  priority : ℤ := 100
  effectiveDate : Option DateTime := none
  expiryDate : Option DateTime := none
  status : BusinessRuleStatus := .draft
  businessOwnerId : Option Id := none

inductive VaultStatus
  | opened | closed
  deriving DecidableEq

structure Vault where
  institutionId : Id
  name : String
  balance : Cents := 0
  status : VaultStatus := .closed
  openedById : Option Id := none
  openedAt : Option DateTime := none
  closedById : Option Id := none
  closedAt : Option DateTime := none

structure Teller where
  institutionId : Id
  currentHolding : Cents := 0

inductive CashHolderType
  | vault | teller
  deriving DecidableEq

inductive CashLedgerEntryType
  | receipt | withdrawal | allocation | returned | transferIn | transferOut
  deriving DecidableEq

structure CashLedgerEntry where
  institutionId : Id
  holderType : CashHolderType
  holderId : Id
  type : CashLedgerEntryType
  amount : Cents
  balanceAfter : Cents
  notes : Option String := none
  recordedById : Id

inductive CashTransferStatus
  | pendingApproval | completed | rejected
  deriving DecidableEq

structure CashTransfer where
  institutionId : Id
  fromType : CashHolderType
  fromId : Id
  toType : CashHolderType
  toId : Id
  amount : Cents
  reason : String
  status : CashTransferStatus := .pendingApproval
  approvedById : Option Id := none
  completedAt : Option DateTime := none

inductive CashBalancingStatus
  | reconciled | variancePendingApproval
  deriving DecidableEq

structure CashBalancing where
  institutionId : Id := 0
  holderType : CashHolderType := .vault
  holderId : Id := 0
  balancingDate : DateTime := 0
  expectedAmount : Cents := 0
  countedAmount : Cents := 0
  variance : Cents := 0
  investigationNotes : Option String := none
  status : CashBalancingStatus := .reconciled
  reconciledById : Option Id := none
  reconciledAt : Option DateTime := none

end NexusEfos
