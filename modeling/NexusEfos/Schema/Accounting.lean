/-
The rows of the general ledger.

A column is kept when a modelled function reads or writes it.  A primary key is
not a column here: it is the key of the table (`Schema.Db`).  The lines of a
journal are created with the journal and never change, so they are a list inside
its row.
-/
import NexusEfos.Money

namespace NexusEfos

inductive GLAccountCategory
  | asset | liability | equity | income | expense
  deriving DecidableEq

inductive GLAccountStatus
  | active | inactive
  deriving DecidableEq

inductive GLCapitalTier
  | cet1 | additionalTier1 | tier2
  deriving DecidableEq

inductive CashFlowActivity
  | operating | investing | financing
  deriving DecidableEq

structure GLAccount where
  institutionId : Id
  code : String
  name : String
  category : GLAccountCategory
  status : GLAccountStatus := .active
  balance : Cents := 0
  cashFlowActivity : Option CashFlowActivity := none
  isLiquidAsset : Bool := false
  capitalTier : Option GLCapitalTier := none
  baselRiskWeightPercent : Option ℤ := none

inductive JournalType
  | manual | automatic | recurring | reversing | adjustment
  deriving DecidableEq

inductive JournalStatus
  | draft | pendingApproval | posted | rejected
  deriving DecidableEq

structure JournalLine where
  accountId : Id
  debit : Cents := 0
  credit : Cents := 0
  description : Option String := none

structure Journal where
  institutionId : Id
  type : JournalType := .manual
  description : String
  status : JournalStatus := .draft
  postingDate : DateTime
  postedById : Option Id := none
  postedAt : Option DateTime := none
  rejectionReason : Option String := none
  createdById : Id
  lines : List JournalLine

inductive FinancialPeriodStatus
  | opened | closed | locked
  deriving DecidableEq

structure FinancialPeriod where
  institutionId : Id
  name : String := ""
  startDate : DateTime
  endDate : DateTime
  status : FinancialPeriodStatus := .opened
  closedById : Option Id := none
  closedAt : Option DateTime := none
  reopenedById : Option Id := none
  reopenedAt : Option DateTime := none
  lockedById : Option Id := none
  lockedAt : Option DateTime := none

/-- How often a standing instruction or a recurring journal is due. -/
inductive StandingInstructionFrequency
  | daily | weekly | fortnightly | monthly | quarterly | halfYearly | annually | custom
  deriving DecidableEq

inductive ExecutionStatus
  | success | failed
  deriving DecidableEq

inductive RecurringJournalStatus
  | draft | pendingApproval | active | suspended
  deriving DecidableEq

/-- A line before it is stored, as a request or a recurring journal's template
holds it: its amounts have not passed through a decimal column. -/
structure LineInput where
  accountId : Id
  debit : ℚ
  credit : ℚ
  description : Option String := none

structure RecurringJournal where
  institutionId : Id
  description : String
  lineTemplate : List LineInput
  frequency : StandingInstructionFrequency
  customIntervalDays : Option ℤ := none
  nextExecutionDate : DateTime
  status : RecurringJournalStatus := .draft
  maxRetries : ℕ := 3
  consecutiveFailures : ℕ := 0
  createdById : Id

structure RecurringJournalExecution where
  recurringJournalId : Id
  status : ExecutionStatus
  journalId : Option Id := none
  failureReason : Option String := none

/-- One row of any of the tables that name the ledger account for a purpose. -/
structure GLAccountMapping where
  institutionId : Id
  purpose : String
  glAccountId : Id

structure BranchSettlementAccount where
  institutionId : Id
  branchId : Id
  glAccountId : Id

inductive InterBranchTransferStatus
  | pendingApproval | posted | rejected
  deriving DecidableEq

structure InterBranchTransfer where
  institutionId : Id
  fromBranchId : Id
  toBranchId : Id
  fromGLAccountId : Id
  toGLAccountId : Id
  amount : Cents
  description : String
  status : InterBranchTransferStatus := .pendingApproval
  journalId : Option Id := none
  requestedById : Id

end NexusEfos
