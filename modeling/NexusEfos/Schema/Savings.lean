/-
The rows of the savings accounts and of field collections.
-/
import NexusEfos.Schema.Accounting

namespace NexusEfos

inductive SavingsAccountStatus
  | active | dormant | closed
  deriving DecidableEq

/-- `promoInterestRate` is the value of a `Decimal(6, 3)` column, a percentage. -/
structure SavingsAccount where
  institutionId : Id
  customerId : Id
  productVersionId : Option Id := none
  accountNumber : String := ""
  balance : Cents := 0
  ledgerBalance : Cents := 0
  status : SavingsAccountStatus := .active
  interestSuspended : Bool := false
  interestSuspendedReason : Option String := none
  interestSuspendedAt : Option DateTime := none
  promoInterestRate : Option ℚ := none
  promoExpiresAt : Option DateTime := none
  lastAccrualDate : Option DateTime := none
  importBatchId : Option Id := none
  deletedAt : Option DateTime := none

inductive SavingsTxnType
  | deposit | withdrawal | interest | migrationOpeningBalance | fee | feeReversal
  deriving DecidableEq

structure SavingsTransaction where
  accountId : Id
  type : SavingsTxnType
  amount : Cents
  balanceAfter : Cents
  recordedById : Option Id := none
  createdAt : DateTime

/-- A transaction as the snapshot of a statement keeps it. -/
structure StatementLine where
  date : DateTime
  type : SavingsTxnType
  amount : ℚ
  balanceAfter : ℚ

structure SavingsStatement where
  institutionId : Id
  accountId : Id
  periodStart : DateTime
  periodEnd : DateTime
  openingBalance : Cents
  closingBalance : Cents
  totalInterest : Cents
  totalFees : Cents
  transactionSnapshot : List StatementLine
  generatedById : Id

inductive RestrictionType
  | debitRestriction | creditRestriction | fullFreeze | courtOrder | compliance
  | fraudInvestigation | dormancy | customerRequested | productRestriction | institutionDefined
  deriving DecidableEq

inductive RestrictionStatus
  | pendingApproval | active | removed | expired
  deriving DecidableEq

structure SavingsRestriction where
  institutionId : Id := 0
  accountId : Id
  type : RestrictionType
  reason : String
  status : RestrictionStatus := .pendingApproval
  requestedById : Id := 0
  approvedById : Option Id := none
  activatedAt : Option DateTime := none
  expiresAt : Option DateTime := none
  removalRequestedById : Option Id := none
  removedById : Option Id := none
  removedAt : Option DateTime := none
  removalReason : Option String := none

inductive FeeCalculationMethod
  | fixed | percentage
  deriving DecidableEq

structure SavingsFeeType where
  institutionId : Id
  calculationMethod : FeeCalculationMethod
  amount : Cents
  active : Bool := true

inductive FeeChargeStatus
  | applied | waived | reversed
  deriving DecidableEq

structure SavingsFeeCharge where
  institutionId : Id
  accountId : Id
  feeTypeId : Id
  amount : Cents
  status : FeeChargeStatus := .applied
  appliedById : Option Id := none
  waivedById : Option Id := none
  waivedAt : Option DateTime := none
  waivedReason : Option String := none

inductive StandingInstructionType
  | internalTransfer | loanRepayment | scheduledWithdrawal
  deriving DecidableEq

inductive StandingInstructionStatus
  | active | suspended | cancelled
  deriving DecidableEq

structure StandingInstruction where
  institutionId : Id
  type : StandingInstructionType
  sourceAccountId : Id
  destinationAccountId : Option Id := none
  destinationLoanId : Option Id := none
  amount : Cents
  frequency : StandingInstructionFrequency
  customIntervalDays : Option ℤ := none
  nextExecutionDate : DateTime
  status : StandingInstructionStatus := .active
  maxRetries : ℕ := 3
  consecutiveFailures : ℕ := 0
  createdById : Id

structure StandingInstructionExecution where
  instructionId : Id
  status : ExecutionStatus
  amount : Cents
  failureReason : Option String := none

/-- A bracket of balances with the rate that applies to it.  `interestRate` is the value of a
`Decimal(6, 3)` column, a percentage. -/
structure InterestRateTier where
  productVersionId : Id
  minBalance : Cents
  maxBalance : Option Cents := none
  interestRate : ℚ
  deletedAt : Option DateTime := none

/-- `rateApplied` is the value of a `Decimal(6, 3)` column, a percentage. -/
structure SavingsInterestAccrual where
  institutionId : Id
  accountId : Id
  accrualDate : DateTime
  balanceUsed : Cents := 0
  rateApplied : ℚ := 0
  method : String := "DAILY_BALANCE"
  amountAccrued : Cents
  posted : Bool := false
  postingId : Option Id := none

structure SavingsInterestPosting where
  institutionId : Id
  accountId : Id
  periodStart : DateTime
  periodEnd : DateTime
  totalAmount : Cents
  transactionId : Option Id := none
  batchId : Option String := none
  postedById : Option Id := none
  reversedAt : Option DateTime := none
  reversedById : Option Id := none
  reversalReason : Option String := none

inductive CollectorAvailability
  | available | onLeave | suspended
  deriving DecidableEq

structure Collector where
  institutionId : Id
  availability : CollectorAvailability := .available

inductive CollectionTransactionType
  | savingsDeposit | loanRepayment
  deriving DecidableEq

inductive CollectionTransactionStatus
  | completed | reversed
  deriving DecidableEq

structure CollectionTransaction where
  institutionId : Id
  type : CollectionTransactionType
  collectorId : Id
  routeId : Option Id := none
  customerId : Id
  targetId : Id
  amount : Cents
  status : CollectionTransactionStatus := .completed
  reversedById : Option Id := none
  reversedAt : Option DateTime := none
  reversalReason : Option String := none
  collectedAt : DateTime
  recordedById : Id

inductive SettlementStatus
  | pending | reconciled | variancePendingApproval
  deriving DecidableEq

structure CollectionSettlement where
  institutionId : Id := 0
  collectorId : Id := 0
  settlementDate : DateTime := 0
  expectedAmount : Cents := 0
  actualAmount : Cents := 0
  variance : Cents := 0
  notes : Option String := none
  status : SettlementStatus := .pending
  reconciledById : Option Id := none
  reconciledAt : Option DateTime := none

inductive CommissionType
  | percentageOfCollections | fixedPerCollection
  deriving DecidableEq

/-- `rate` is the value of a `Decimal(6, 3)` column. -/
structure CommissionStructure where
  institutionId : Id
  name : String
  type : CommissionType
  rate : ℚ
  active : Bool := true

inductive CommissionStatus
  | pending | pendingApproval | paid
  deriving DecidableEq

structure CommissionRecord where
  institutionId : Id := 0
  collectorId : Id := 0
  structureId : Id := 0
  periodStart : DateTime := 0
  periodEnd : DateTime := 0
  totalCollected : Cents := 0
  collectionCount : ℕ := 0
  commissionAmount : Cents := 0
  status : CommissionStatus := .pending
  paidAt : Option DateTime := none

end NexusEfos
