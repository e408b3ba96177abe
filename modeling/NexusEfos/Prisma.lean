/-
The database client: the statements out of which the request handlers are made.

A `Handler` is a process over the database.  Each function of this file is one
statement, so a handler that reads a row and writes it back later is two
statements with a gap between them, and `prisma.$transaction` is `Proc.transaction`.

The label of a statement, an `Access`, records what the condition of a result may
have to speak about: the balances a statement overwrites with values computed
from an earlier read, the amounts it adds to balances, a loan repayment it
records without allocating it, the approval request it resolves, a journal that
it marks as waiting for its posting, the step it takes in the life of a loan, the
lines of a journal that it posts before they are applied, the journal that it posts
after checks made in earlier statements, the scheduled date for which it moves money
or which it moves on, the target that it leaves to an approval or moves without one, the target
for which a business rule asks for an approval, the step it takes in the life of accrued
interest, of a payroll run or of a collection that is reversed, the loan that it imports, the
rate that it puts in force, the payroll that it runs, the balance that it takes down, the vault
whose cash it moves, with the amount, or which it closes, the collection, the settlement or the
commission that it records, the business rule that it edits, the record that it edits with the
version that was expected, the step it takes in a login, the share that it allocates to a
beneficiary of a customer, and the customer whom it puts on a route.  All other statements carry the empty label.
-/
import NexusEfos.Library.Process
import NexusEfos.Schema.Db

namespace NexusEfos

/-- How a call can fail: with an answer to the client, because the request does
not have the form its schema asks for (status 400, with the schema's own report),
or with an exception, of the database (by its code) or of the program. -/
inductive Failure
  | http (status : ℕ) (error : String)
  | invalid
  | prisma (code : String)
  | thrown (error : String)
  deriving DecidableEq

/-- A savings balance that is set to a value computed from an earlier read: the
balance that was read and the amount by which it is to change. -/
structure Overwrite where
  accountId : Id
  read : Cents
  change : Cents

/-- The balance that is written. -/
def Overwrite.written (o : Overwrite) : Cents := o.read + o.change

/-- A request that is approved or rejected, as it was read before, and the moment. -/
structure Resolution where
  requestId : Id
  request : ApprovalRequest
  approved : Bool
  now : DateTime

/-- A step in the life of a loan.  A rejection may be limited to an institution. -/
inductive LoanMove
  | approve
  | reject (institutionId : Option Id)
  | disburse
  | repay (amount : ℚ)
  deriving DecidableEq

/-- What the scheduler carries out on its date. -/
inductive ScheduledItem
  | standingInstruction (id : Id)
  | recurringJournal (id : Id)
  deriving DecidableEq

/-- A journal that is posted: its institution and date, and the accounts of its lines. -/
structure Posting where
  institutionId : Id
  date : DateTime
  accountIds : List Id

/-- What waits for an approval and may be moved in the meantime. -/
inductive ApprovalTarget
  | product (id : Id)
  | businessRule (id : Id)
  | recurringJournal (id : Id)
  | asset (id : Id)
  deriving DecidableEq

/-- A step in the life of accrued interest: a row is written, rows are posted with the amounts
that were read, a posting is reversed. -/
inductive InterestMove
  | accrue (accountId : Id) (accrualDate : DateTime) (amountAccrued : Cents)
  | post (accountId : Id) (accruals : List (Id × Cents))
  | reverse (postingId : Id)

/-- A step in the payment of a payroll run: its settlement is posted, the run is marked as paid
with the settlement that was posted for it. -/
inductive PayrollMove
  | settle (runId : Id)
  | pay (runId : Id) (settlementJournalId : Option Id)
  deriving DecidableEq

/-- A tax table or a statutory rate that is put in force. -/
inductive RateActivation
  | taxTable (id : Id)
  | statutoryRate (id : Id)
  deriving DecidableEq

/-- A payroll that is run: the institution and the period, and the employees that are paid. -/
structure PayrollProcessing where
  institutionId : Id
  payrollPeriodId : Id
  employeeIds : List Id

/-- A day of a collector that is settled, and the collections with their amounts that were
counted for it. -/
structure SettlementCount where
  collectorId : Id
  settlementDate : DateTime
  counted : List (Id × Cents)

/-- The commission that is worked out for a collector over a period, and the collections that
it counts. -/
structure CommissionCalculation where
  collectorId : Id
  periodStart : DateTime
  periodEnd : DateTime
  counted : List Id

/-- A loan that is imported: its principal, and what its installments ask of it. -/
structure LoanImport where
  principal : Cents
  principalDue : List Cents

/-- What a batch does to the customers: one is created, one that is there is updated, or the batch
is undone. -/
inductive CustomerImport
  | create (batchId : Id)
  | update (batchId customerId : Id)
  | undo (batchId : Id)
  deriving DecidableEq

/-- A step in the life of a standing instruction.  A failure is counted from the counter that was
read; an execution that failed, perhaps without being counted, or that succeeded is recorded; the
counter is reset after a success; the instruction is reactivated. -/
inductive InstructionMove
  | countFailure (id : Id) (consecutiveFailures : ℕ)
  | recordFailure (id : Id) (counted : Bool)
  | recordSuccess (id : Id)
  | reset (id : Id)
  | reactivate (id : Id)
  deriving DecidableEq

/-- A step of an internal audit: the status of an engagement is set, a finding is registered, the
owner of the action on a finding is set. -/
inductive AuditMove
  | setStatus (engagementId : Id) (status : AuditEngagementStatus)
  | addFinding (engagementId : Id) (actionOwnerId : Option Id)
  | setOwner (findingId : Id) (actionOwnerId : Option Id)
  deriving DecidableEq

/-- A business rule that is edited, and what becomes of it. -/
structure RuleEdit where
  ruleId : Id
  data : BusinessRule → BusinessRule

/-- A step in the reversal of a collection: the money is taken back, the collection is
marked. -/
inductive CollectionMove
  | takeBack (collectionId : Id)
  | mark (collectionId : Id)
  deriving DecidableEq

/-- An edit of a record that expects a version of it, and whether it updates the record itself
or only rows that belong to it. -/
structure AppliedEdit where
  model : Model
  id : Id
  expectedVersion : ℤ
  ownRow : Bool
  deriving DecidableEq

/-- A step of a login or of a refresh of a session.  A password or a code is compared, by a
request that has read the counter and the lock of the account before; a failure is counted from
there; a backup code is taken from the list that was read; a login is completed, perhaps with a
backup code; a token is replaced; a reuse is detected in a family of tokens. -/
inductive AuthStep
  | compare (userId : Id) (failedLoginCount : ℕ) (lockedUntil : Option DateTime) (matched : Bool)
  | recordFailure (userId : Id) (failedLoginCount : ℕ) (lockedUntil : Option DateTime)
  | consume (userId : Id) (backupCodesHashed : List String) (code : String)
  | complete (userId : Id) (backupCode : Option String)
  | rotate (tokenId : Id)
  | detectReuse (familyId : Id)
  deriving DecidableEq

/-- The risk factors that a statement writes: of a customer, or of one that it creates. -/
structure RiskWrite where
  customerId : Option Id
  pepStatus : Option PepStatus := none
  riskRating : Option RiskRating

/-- What a statement does that a condition on a run may speak about. -/
structure Access where
  overwrites : List Overwrite := []
  increments : List (Id × ℚ) := []
  unallocated : List (Id × Cents) := []
  resolves : Option Resolution := none
  marksPending : Option Id := none
  closes : Option Id := none
  loanMove : Option (Id × LoanMove) := none
  posts : List LineInput := []
  posting : Option Posting := none
  files : Option ApprovalTarget := none
  moves : Option ApprovalTarget := none
  executes : Option (ScheduledItem × DateTime) := none
  advances : Option (ScheduledItem × DateTime) := none
  raises : Option (String × Id) := none
  interest : Option InterestMove := none
  payroll : Option PayrollMove := none
  imports : Option LoanImport := none
  activates : Option RateActivation := none
  processes : Option PayrollProcessing := none
  balances : Option (CashHolderType × Id × Cents) := none
  movesCash : Option (Id × ℚ) := none
  closesVault : Option (Id × DateTime) := none
  collects : Option (Id × DateTime) := none
  settles : Option SettlementCount := none
  commission : Option CommissionCalculation := none
  requestsPayment : Option Id := none
  collection : Option CollectionMove := none
  edits : Option RuleEdit := none
  applies : Option AppliedEdit := none
  auth : Option AuthStep := none
  allocates : Option (Id × Cents) := none
  assignsRoute : Option Id := none
  risk : Option RiskWrite := none
  importsCustomer : Option CustomerImport := none
  instruction : Option InstructionMove := none
  audit : Option AuditMove := none

/-- The code of a request handler or a scheduled job. -/
abbrev Handler (α : Type) := Proc Access Db Failure α

/-- The `length` of a string: the number of its UTF-16 code units. -/
def jsLength (s : String) : ℕ := (s.toList.map fun c => if c.toNat < 65536 then 1 else 2).sum

/-- The user behind a request. -/
structure Auth where
  institutionId : Id
  userId : Id

/-- A record an operation depends on was not found. -/
def recordNotFound : Failure := .prisma "P2025"

/-- A foreign key points to no row. -/
def foreignKeyViolation : Failure := .prisma "P2003"

/-- A value of a unique column is taken. -/
def uniqueViolation : Failure := .prisma "P2002"

/-! ## Reading -/

/-- A statement that answers from the state and leaves it alone. -/
def query {α : Type} (f : Db → α) : Handler α := Proc.exec {} fun s => (f s, s)

def findUnique (m : Model) (id : Id) : Handler (Option (Row m)) := query fun s => s.find? m id

/-- `findFirst` with the primary key among the conditions. -/
def findById (m : Model) (id : Id) (p : Row m → Bool) : Handler (Option (Row m)) :=
  query fun s => (s.find? m id).filter p

def findFirst (m : Model) (p : Id → Row m → Bool) : Handler (Option (Id × Row m)) :=
  query fun s => (s.table m).entries.find? fun e => p e.1 e.2

def findMany (m : Model) (p : Id → Row m → Bool) : Handler (List (Id × Row m)) :=
  query fun s => (s.table m).entries.filter fun e => p e.1 e.2

def count (m : Model) (p : Id → Row m → Bool) : Handler ℕ :=
  query fun s => ((s.table m).entries.filter fun e => p e.1 e.2).length

def findUniqueOrThrow (m : Model) (id : Id) : Handler (Row m) :=
  Proc.attempt {} fun s =>
    match s.find? m id with
    | some row => (.ok row, s)
    | none => (.error recordNotFound, s)

/-! ## Writing -/

/-- `create`, under a label. -/
def createAs (lab : Access) (m : Model) (row : Row m) : Handler Id :=
  Proc.exec lab fun s => (s.nextId m, s.insert m row)

def create (m : Model) (row : Row m) : Handler Id := createAs {} m row

/-- `update` by primary key, under a label.  It answers with the updated row. -/
def updateAs (lab : Access) (m : Model) (id : Id) (data : Row m → Row m) : Handler (Row m) :=
  Proc.attempt lab fun s =>
    match s.find? m id with
    | some row => (.ok (data row), s.modify m id data)
    | none => (.error recordNotFound, s)

def update (m : Model) (id : Id) (data : Row m → Row m) : Handler (Row m) :=
  updateAs {} m id data

/-- `updateMany`: it answers with the number of rows that met the condition. -/
def updateMany (m : Model) (p : Id → Row m → Bool) (data : Row m → Row m) : Handler ℕ :=
  Proc.exec {} fun s =>
    (((s.table m).entries.filter fun e => p e.1 e.2).length,
      s.modifyAll m fun id row => if p id row then data row else row)

/-- `updateMany`, under a label. -/
def updateManyAs (lab : Access) (m : Model) (p : Id → Row m → Bool) (data : Row m → Row m) :
    Handler ℕ :=
  Proc.exec lab fun s =>
    (((s.table m).entries.filter fun e => p e.1 e.2).length,
      s.modifyAll m fun id row => if p id row then data row else row)

/-- A guarded update of one row: it answers whether the row met the condition.
The source's `updateMany` with the primary key among the conditions, and its
`count`. -/
def updateGuarded (m : Model) (id : Id) (p : Row m → Bool) (data : Row m → Row m) :
    Handler Bool :=
  Proc.exec {} fun s =>
    match s.find? m id with
    | some row => if p row then (true, s.modify m id data) else (false, s)
    | none => (false, s)

/-- A guarded update of one row, under a label. -/
def updateGuardedAs (lab : Access) (m : Model) (id : Id) (p : Row m → Bool)
    (data : Row m → Row m) : Handler Bool :=
  Proc.exec lab fun s =>
    match s.find? m id with
    | some row => if p row then (true, s.modify m id data) else (false, s)
    | none => (false, s)

/-! ## What the statements do -/

section Run

variable {α : Type}

@[simp] theorem run_query (f : Db → α) (s : Db) : (query f).run s = (.ok (f s), s) := rfl

@[simp] theorem run_findUnique (m : Model) (id : Id) (s : Db) :
    (findUnique m id).run s = (.ok (s.find? m id), s) := rfl

@[simp] theorem run_findMany (m : Model) (p : Id → Row m → Bool) (s : Db) :
    (findMany m p).run s = (.ok ((s.table m).entries.filter fun e => p e.1 e.2), s) := rfl

@[simp] theorem run_createAs (lab : Access) (m : Model) (row : Row m) (s : Db) :
    (createAs lab m row).run s = (.ok (s.nextId m), s.insert m row) := rfl

@[simp] theorem run_create (m : Model) (row : Row m) (s : Db) :
    (create m row).run s = (.ok (s.nextId m), s.insert m row) := rfl

theorem run_findUniqueOrThrow (m : Model) (id : Id) (s : Db) :
    (findUniqueOrThrow m id).run s =
      match s.find? m id with
      | some row => (.ok row, s)
      | none => (.error recordNotFound, s) := rfl

theorem run_update (m : Model) (id : Id) (data : Row m → Row m) (s : Db) :
    (update m id data).run s =
      match s.find? m id with
      | some row => (.ok (data row), s.modify m id data)
      | none => (.error recordNotFound, s) := rfl

theorem run_updateGuarded (m : Model) (id : Id) (p : Row m → Bool) (data : Row m → Row m)
    (s : Db) :
    (updateGuarded m id p data).run s =
      match s.find? m id with
      | some row => if p row then (.ok true, s.modify m id data) else (.ok false, s)
      | none => (.ok false, s) := by
  unfold updateGuarded
  rw [Proc.run_exec]
  cases s.find? m id with
  | some row =>
    by_cases h : p row
    · simp [h]
    · simp [h]
  | none => rfl

/-! ## What a statement that succeeded did -/

variable {m : Model} {id : Id} {s s' : Db}

theorem run_update_eq_ok {data : Row m → Row m} {r : Row m}
    (h : (update m id data).run s = (.ok r, s')) :
    ∃ row, s.find? m id = some row ∧ r = data row ∧ s' = s.modify m id data := by
  rw [run_update] at h
  cases hrow : s.find? m id with
  | some row =>
    rw [hrow] at h
    obtain ⟨hr, hs⟩ := Prod.mk.inj h
    exact ⟨row, rfl, (Except.ok.inj hr).symm, hs.symm⟩
  | none =>
    rw [hrow] at h
    exact absurd (congrArg Prod.fst h) nofun

theorem run_create_eq_ok {row : Row m} (h : (create m row).run s = (.ok id, s')) :
    id = s.nextId m ∧ s' = s.insert m row := by
  obtain ⟨hr, hs⟩ := Prod.mk.inj h
  exact ⟨(Except.ok.inj hr).symm, hs.symm⟩

theorem run_updateMany_eq_ok {p : Id → Row m → Bool} {data : Row m → Row m} {n : ℕ}
    (h : (updateMany m p data).run s = (.ok n, s')) :
    s' = s.modifyAll m fun id row => if p id row then data row else row :=
  (Prod.mk.inj h).2.symm

theorem run_updateGuarded_eq_true {p : Row m → Bool} {data : Row m → Row m}
    (h : (updateGuarded m id p data).run s = (.ok true, s')) :
    ∃ row, s.find? m id = some row ∧ p row = true ∧ s' = s.modify m id data := by
  rw [run_updateGuarded] at h
  cases hrow : s.find? m id with
  | some row =>
    simp only [hrow] at h
    by_cases hp : p row = true
    · rw [if_pos hp] at h
      exact ⟨row, rfl, hp, (Prod.mk.inj h).2.symm⟩
    · rw [if_neg hp] at h
      exact absurd (congrArg Prod.fst h) (by simp)
  | none =>
    rw [hrow] at h
    exact absurd (congrArg Prod.fst h) (by simp)

theorem run_findUniqueOrThrow_eq_ok {row : Row m}
    (h : (findUniqueOrThrow m id).run s = (.ok row, s')) :
    s.find? m id = some row ∧ s' = s := by
  rw [run_findUniqueOrThrow] at h
  cases hrow : s.find? m id with
  | some row' =>
    rw [hrow] at h
    obtain ⟨hr, hs⟩ := Prod.mk.inj h
    exact ⟨congrArg some (Except.ok.inj hr), hs.symm⟩
  | none =>
    rw [hrow] at h
    exact absurd (congrArg Prod.fst h) nofun

theorem run_require_bind_eq_ok {p : Prop} [Decidable p] {e : Failure} {f : Unit → Handler α}
    {a : α} (h : (Proc.require p e >>= f).run s = (.ok a, s')) :
    p ∧ (f ()).run s = (.ok a, s') := by
  by_cases hp : p
  · rw [Proc.require_pos hp] at h
    exact ⟨hp, h⟩
  · rw [Proc.require_neg hp] at h
    exact absurd (congrArg Prod.fst h) nofun

theorem run_orFail_eq_ok {o : Option α} {e : Failure} {a : α}
    (h : (Proc.orFail o e : Handler α).run s = (.ok a, s')) : o = some a ∧ s' = s := by
  cases o with
  | some b =>
    obtain ⟨hr, hs⟩ := Prod.mk.inj h
    exact ⟨congrArg some (Except.ok.inj hr), hs.symm⟩
  | none => exact absurd (congrArg Prod.fst h) nofun

/-- What comes after a reading goes on with what was read. -/
theorem run_query_bind {β : Type} {f : Db → β} {k : β → Handler α} {r : Except Failure α × Db}
    (h : (query f >>= k).run s = r) : (k (f s)).run s = r := h

theorem run_orFail_bind_eq_ok {β : Type} {o : Option β} {e : Failure} {k : β → Handler α} {a : α}
    (h : (Proc.orFail o e >>= k).run s = (.ok a, s')) :
    ∃ b, o = some b ∧ (k b).run s = (.ok a, s') := by
  obtain ⟨b, t, hfirst, hrest⟩ := Proc.run_bind_eq_ok h
  obtain ⟨ho, rfl⟩ := run_orFail_eq_ok hfirst
  exact ⟨b, ho, hrest⟩

theorem run_findUniqueOrThrow_bind_eq_ok {k : Row m → Handler α} {a : α}
    (h : (findUniqueOrThrow m id >>= k).run s = (.ok a, s')) :
    ∃ row, s.find? m id = some row ∧ (k row).run s = (.ok a, s') := by
  obtain ⟨row, t, hfirst, hrest⟩ := Proc.run_bind_eq_ok h
  obtain ⟨hrow, rfl⟩ := run_findUniqueOrThrow_eq_ok hfirst
  exact ⟨row, hrow, hrest⟩

theorem run_updateAs_bind_eq_ok {lab : Access} {data : Row m → Row m} {k : Row m → Handler α}
    {a : α} (h : (updateAs lab m id data >>= k).run s = (.ok a, s')) :
    ∃ row, s.find? m id = some row ∧ (k (data row)).run (s.modify m id data) = (.ok a, s') := by
  obtain ⟨r, t, hfirst, hrest⟩ := Proc.run_bind_eq_ok h
  obtain ⟨row, hrow, rfl, rfl⟩ := run_update_eq_ok hfirst
  exact ⟨row, hrow, hrest⟩

/-- The update of one row at the end. -/
theorem run_update_end_eq_ok {f : Row m → Row m}
    (h : (do let _ ← update m id f : Handler Unit).run s = (.ok (), s')) : s' = s.modify m id f := by
  obtain ⟨row, -, hend⟩ := run_updateAs_bind_eq_ok h
  exact (Prod.mk.inj hend).2.symm

/-- An execution that ends with a value. -/
theorem run_eq_ok_of_toOption {p : Handler α} {a : α} (h : (p.run s).1.toOption = some a) :
    p.run s = (.ok a, (p.run s).2) := by
  cases hrun : p.run s with
  | mk r t =>
    rw [hrun] at h
    cases r with
    | ok b => rw [Option.some.inj h]
    | error e => exact absurd h nofun

theorem exists_run_eq_ok {p : Handler α} (h : (p.run s).1.toOption.isSome = true) :
    ∃ a, p.run s = (.ok a, (p.run s).2) := by
  obtain ⟨a, ha⟩ := Option.isSome_iff_exists.mp h
  exact ⟨a, run_eq_ok_of_toOption ha⟩

/-- A loop of updates. -/
theorem run_forEach_update_eq_ok {β : Type} {xs : List β} {key : β → Id}
    {data : β → Row m → Row m} {u : Unit}
    (h : (Proc.forEach xs fun x => do let _ ← update m (key x) (data x)).run s = (.ok u, s')) :
    s' = xs.foldl (fun s x => s.modify m (key x) (data x)) s := by
  induction xs generalizing s with
  | nil => exact (Prod.mk.inj h).2.symm
  | cons x xs ih =>
    rw [Proc.forEach_cons, Proc.bind_assoc] at h
    obtain ⟨r, t, hupdate, hrest⟩ := Proc.run_bind_eq_ok h
    obtain ⟨row, -, -, rfl⟩ := run_update_eq_ok hupdate
    exact ih hrest

end Run

end NexusEfos
