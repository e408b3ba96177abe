/-
The database.

`Model` names the tables and `Row` their row types; a `Db` holds one table for
each, keyed by primary key in order of insertion.  Reading and writing are the
same for every table, so they are defined once, over the name of the table, and
what a write leaves alone is one lemma, `table_setTable_of_ne`.
-/
import NexusEfos.Library.OrderedMap
import NexusEfos.Schema.Savings
import NexusEfos.Schema.Lending
import NexusEfos.Schema.Operations
import NexusEfos.Schema.Identity

namespace NexusEfos

/-- The tables. -/
inductive Model
  | gLAccount | journal | financialPeriod | recurringJournal | recurringJournalExecution
  | branchSettlementAccount | interBranchTransfer
  | savingsGLAccountMapping | loanGLAccountMapping | cashVaultGLAccountMapping
  | payrollGLAccountMapping | assetGLAccountMapping
  | savingsAccount | savingsTransaction | savingsRestriction | savingsFeeType | savingsFeeCharge
  | standingInstruction | standingInstructionExecution
  | interestRateTier | savingsInterestAccrual | savingsInterestPosting | savingsStatement
  | collector | collectionTransaction | collectionSettlement | commissionStructure
  | commissionRecord
  | loan | creditAssessment | loanInstallment | loanRepayment | loanRestructure | loanReschedule
  | loanWriteOff | businessRule | vault | teller | cashLedgerEntry | cashTransfer | cashBalancing
  | employeeSalaryStructure | salaryGrade | earningCode | taxTable | statutoryContributionRate
  | payrollCalendar | payrollPeriod | payrollRun | payrollEntry
  | asset | assetDepreciationEntry | assetAllocation | assetVerificationRecord | assetTransfer
  | assetDisposal
  | attendanceRecord | auditEngagement | auditFinding | importBatch
  | customer | accountHolder | nextOfKin | customerNote | beneficiary | beneficialOwner
  | document | customerConsent | cheque | customerInteraction | customerComplaint
  | collectionRoute | collectionRouteCustomer | customerMergeRecord | watchlistEntry
  | product | productVersion
  | employee | branch | role | permission | rolePermission
  | user | userPasswordHistory | userMfa | userDevice | userLoginHistory | userRole | refreshToken
  | approvalRequest | scheduledJobRun | idempotencyKey | auditLog
  deriving DecidableEq

/-- A customer and the customer it was merged into, and the rows that moved. -/
structure CustomerMergeRecord where
  institutionId : Id
  primaryCustomerId : Id
  mergedCustomerId : Id
  status : CustomerMergeRecordStatus := .pendingApproval
  reassignedRecords : Option (List (Model × Id)) := none
  approvedById : Option Id := none
  mergedAt : Option DateTime := none
  rolledBackById : Option Id := none
  rolledBackAt : Option DateTime := none
  rollbackReason : Option String := none

/-- The row type of a table. -/
abbrev Row : Model → Type
  | .gLAccount => GLAccount
  | .journal => Journal
  | .financialPeriod => FinancialPeriod
  | .recurringJournal => RecurringJournal
  | .recurringJournalExecution => RecurringJournalExecution
  | .branchSettlementAccount => BranchSettlementAccount
  | .interBranchTransfer => InterBranchTransfer
  | .savingsGLAccountMapping => GLAccountMapping
  | .loanGLAccountMapping => GLAccountMapping
  | .cashVaultGLAccountMapping => GLAccountMapping
  | .payrollGLAccountMapping => GLAccountMapping
  | .assetGLAccountMapping => GLAccountMapping
  | .savingsAccount => SavingsAccount
  | .savingsTransaction => SavingsTransaction
  | .savingsRestriction => SavingsRestriction
  | .savingsFeeType => SavingsFeeType
  | .savingsFeeCharge => SavingsFeeCharge
  | .standingInstruction => StandingInstruction
  | .standingInstructionExecution => StandingInstructionExecution
  | .interestRateTier => InterestRateTier
  | .savingsInterestAccrual => SavingsInterestAccrual
  | .savingsInterestPosting => SavingsInterestPosting
  | .savingsStatement => SavingsStatement
  | .collector => Collector
  | .collectionTransaction => CollectionTransaction
  | .collectionSettlement => CollectionSettlement
  | .commissionStructure => CommissionStructure
  | .commissionRecord => CommissionRecord
  | .loan => Loan
  | .creditAssessment => CreditAssessment
  | .loanInstallment => LoanInstallment
  | .loanRepayment => LoanRepayment
  | .loanRestructure => LoanRestructure
  | .loanReschedule => LoanReschedule
  | .loanWriteOff => LoanWriteOff
  | .businessRule => BusinessRule
  | .vault => Vault
  | .teller => Teller
  | .cashLedgerEntry => CashLedgerEntry
  | .cashTransfer => CashTransfer
  | .cashBalancing => CashBalancing
  | .employeeSalaryStructure => EmployeeSalaryStructure
  | .salaryGrade => SalaryGrade
  | .earningCode => EarningCode
  | .taxTable => TaxTable
  | .statutoryContributionRate => StatutoryContributionRate
  | .payrollCalendar => PayrollCalendar
  | .payrollPeriod => PayrollPeriod
  | .payrollRun => PayrollRun
  | .payrollEntry => PayrollEntry
  | .asset => Asset
  | .assetDepreciationEntry => AssetDepreciationEntry
  | .assetAllocation => AssetAllocation
  | .assetVerificationRecord => AssetVerificationRecord
  | .assetTransfer => AssetTransfer
  | .assetDisposal => AssetDisposal
  | .attendanceRecord => AttendanceRecord
  | .auditEngagement => AuditEngagement
  | .auditFinding => AuditFinding
  | .importBatch => ImportBatch
  | .customer => Customer
  | .accountHolder => AccountHolder
  | .nextOfKin => CustomerReference
  | .customerNote => CustomerReference
  | .beneficiary => Beneficiary
  | .beneficialOwner => CustomerReference
  | .document => CustomerReference
  | .customerConsent => CustomerReference
  | .cheque => CustomerReference
  | .customerInteraction => CustomerReference
  | .customerComplaint => CustomerReference
  | .collectionRoute => CollectionRoute
  | .collectionRouteCustomer => CollectionRouteCustomer
  | .customerMergeRecord => CustomerMergeRecord
  | .watchlistEntry => WatchlistEntry
  | .product => Product
  | .productVersion => ProductVersion
  | .employee => Employee
  | .branch => Branch
  | .role => Role
  | .permission => Permission
  | .rolePermission => RolePermission
  | .user => User
  | .userPasswordHistory => UserPasswordHistory
  | .userMfa => UserMfa
  | .userDevice => UserDevice
  | .userLoginHistory => UserLoginHistory
  | .userRole => UserRole
  | .refreshToken => RefreshToken
  | .approvalRequest => ApprovalRequest
  | .scheduledJobRun => ScheduledJobRun
  | .idempotencyKey => IdempotencyKey
  | .auditLog => AuditLog

/-- One table for each model. -/
@[ext] structure Db where
  table : (m : Model) → OrderedMap Id (Row m)

namespace Db

/-- The database without rows. -/
def empty : Db := ⟨fun _ => OrderedMap.empty⟩

/-- Replace one table. -/
def setTable (s : Db) (m : Model) (t : OrderedMap Id (Row m)) : Db :=
  ⟨Function.update s.table m t⟩

/-- Rewrite one row, if it is there. -/
def modify (s : Db) (m : Model) (id : Id) (f : Row m → Row m) : Db :=
  s.setTable m ((s.table m).modify id f)

/-- Rewrite every row of a table. -/
def modifyAll (s : Db) (m : Model) (f : Id → Row m → Row m) : Db :=
  s.setTable m ((s.table m).updateAll f)

/-- Add a row under a fresh key. -/
def insert (s : Db) (m : Model) (row : Row m) : Db := s.setTable m ((s.table m).create row)

/-- The key the next row of a table gets. -/
def nextId (s : Db) (m : Model) : Id := (s.table m).nextKey

/-- The row under a key. -/
def find? (s : Db) (m : Model) (id : Id) : Option (Row m) := (s.table m).get? id

@[simp] theorem setTable_self (s : Db) (m : Model) : s.setTable m (s.table m) = s := by
  unfold setTable
  rw [Function.update_eq_self]

@[simp] theorem table_setTable_self (s : Db) (m : Model) (t : OrderedMap Id (Row m)) :
    (s.setTable m t).table m = t := by
  unfold setTable
  exact Function.update_self m t s.table

theorem table_setTable_of_ne {m m' : Model} (h : m' ≠ m) (s : Db) (t : OrderedMap Id (Row m)) :
    (s.setTable m t).table m' = s.table m' := by
  unfold setTable
  exact Function.update_of_ne h t s.table

@[simp] theorem table_modify_self (s : Db) (m : Model) (id : Id) (f : Row m → Row m) :
    (s.modify m id f).table m = (s.table m).modify id f := table_setTable_self ..

theorem table_modify_of_ne {m m' : Model} (h : m' ≠ m) (s : Db) (id : Id) (f : Row m → Row m) :
    (s.modify m id f).table m' = s.table m' := table_setTable_of_ne h ..

@[simp] theorem table_modifyAll_self (s : Db) (m : Model) (f : Id → Row m → Row m) :
    (s.modifyAll m f).table m = (s.table m).updateAll f := table_setTable_self ..

theorem table_modifyAll_of_ne {m m' : Model} (h : m' ≠ m) (s : Db) (f : Id → Row m → Row m) :
    (s.modifyAll m f).table m' = s.table m' := table_setTable_of_ne h ..

@[simp] theorem table_insert_self (s : Db) (m : Model) (row : Row m) :
    (s.insert m row).table m = (s.table m).create row := table_setTable_self ..

theorem table_insert_of_ne {m m' : Model} (h : m' ≠ m) (s : Db) (row : Row m) :
    (s.insert m row).table m' = s.table m' := table_setTable_of_ne h ..

/-- Writes to different tables commute. -/
theorem modify_insert_comm {m m' : Model} (h : m' ≠ m) (s : Db) (row : Row m) (id : Id)
    (f : Row m' → Row m') : (s.insert m row).modify m' id f = (s.modify m' id f).insert m row := by
  unfold insert modify
  rw [table_setTable_of_ne h, table_setTable_of_ne h.symm]
  exact congrArg Db.mk (Function.update_comm h.symm _ _ _)

theorem find?_modify (s : Db) (m : Model) (id id' : Id) (f : Row m → Row m) :
    (s.modify m id f).find? m id' = if id' = id then (s.find? m id').map f else s.find? m id' := by
  rw [find?, table_modify_self, OrderedMap.get?_modify]
  rfl

theorem find?_modifyAll (s : Db) (m : Model) (f : Id → Row m → Row m) (id : Id) :
    (s.modifyAll m f).find? m id = (s.find? m id).map (f id) := by
  rw [find?, table_modifyAll_self, OrderedMap.get?_updateAll]
  rfl

theorem find?_insert (s : Db) (m : Model) (row : Row m) (id : Id) :
    (s.insert m row).find? m id = if id = s.nextId m then some row else s.find? m id := by
  rw [find?, table_insert_self, OrderedMap.get?_create]
  rfl

theorem find?_modify_of_ne {m m' : Model} (h : m' ≠ m) (s : Db) (id id' : Id)
    (f : Row m → Row m) : (s.modify m id f).find? m' id' = s.find? m' id' := by
  rw [find?, table_modify_of_ne h, find?]

theorem find?_insert_of_ne {m m' : Model} (h : m' ≠ m) (s : Db) (row : Row m) (id : Id) :
    (s.insert m row).find? m' id = s.find? m' id := by
  rw [find?, table_insert_of_ne h, find?]

end Db
end NexusEfos
