/-
The accrual of interest on savings accounts: `routes/savings-interest.routes.ts`.

A run works out the interest of one account up to a date, day by day from the last run on, or for
the calendar month of the date, and stores it in a row for each day or month.  A row that is there
is written again, unless it has been posted.
-/
import NexusEfos.Dates
import NexusEfos.Savings.Interest

namespace NexusEfos

/-! ## Days and months -/

def startOfMonth (t : DateTime) : DateTime :=
  let (year, month, _) := civilFromDays (t / msPerDay)
  daysFromCivil year month 1 * msPerDay

/-- The last millisecond of the month. -/
def endOfMonth (t : DateTime) : DateTime := addMonths (startOfMonth t) 1 - 1

def daysInMonth (t : DateTime) : ℤ := (civilFromDays (endOfMonth t / msPerDay)).2.2

/-- `for (d = first; d <= last; d.setDate(d.getDate() + 1))` -/
def eachDay (first last : DateTime) : List DateTime :=
  (List.range ((last - first) / msPerDay + 1).toNat).map fun n => addDays first n

/-! ## Balances and rates -/

/-- The latest of some transactions; of two at the same time the one that was stored later. -/
def latestTransaction : List SavingsTransaction → Option SavingsTransaction
  | [] => none
  | t :: ts =>
    match latestTransaction ts with
    | none => some t
    | some t' => if t.createdAt ≤ t'.createdAt then some t' else some t

/-- The balance after the last transaction up to a date. -/
def Db.balanceAsOf (s : Db) (accountId : Id) (date : DateTime) : ℚ :=
  match latestTransaction ((s.table .savingsTransaction).values.filter fun t =>
      t.accountId = accountId ∧ t.createdAt ≤ date) with
  | some txn => toNumber txn.balanceAfter
  | none => 0

def getBalanceAsOf (accountId : Id) (date : DateTime) : Handler ℚ :=
  query fun s => s.balanceAsOf accountId date

/-- The tiers of a product version, the lowest first. -/
def Db.interestTiers (s : Db) (productVersionId : Id) : List (Id × InterestRateTier) :=
  ((s.table .interestRateTier).entries.filter fun t =>
    t.2.productVersionId = productVersionId ∧ t.2.deletedAt = none).insertionSort
    fun a b => a.2.minBalance ≤ b.2.minBalance

/-- The tier holds the balance. -/
def InterestRateTier.Holds (tier : InterestRateTier) (balanceUsed : ℚ) : Prop :=
  toNumber tier.minBalance ≤ balanceUsed ∧ ∀ max ∈ tier.maxBalance, balanceUsed ≤ toNumber max

instance (tier : InterestRateTier) (balanceUsed : ℚ) : Decidable (tier.Holds balanceUsed) :=
  inferInstanceAs (Decidable (_ ∧ ∀ max ∈ tier.maxBalance, _))

/-- The rate of a promotion that has not expired. -/
def SavingsAccount.promotion (account : SavingsAccount) (now : DateTime) : Option ℚ :=
  match account.promoInterestRate, account.promoExpiresAt with
  | some rate, some expiresAt => if now < expiresAt then some rate else none
  | _, _ => none

def resolveEffectiveRate (now : DateTime) (account : SavingsAccount) (productVersionId : Id)
    (productVersion : ProductVersion) (balanceUsed : ℚ) : Handler ℚ :=
  match account.promotion now with
  | some rate => return rate
  | none =>
    if productVersion.interestRateType = "TIERED" then do
      let tiers ← query fun s => s.interestTiers productVersionId
      match tiers.find? fun t => t.2.Holds balanceUsed with
      | some tier => return tier.2.interestRate
      | none => return productVersion.interestRate
    else return productVersion.interestRate

/-! ## Rows -/

/-- The row of an account for a date. -/
def Db.accrualOf (s : Db) (accountId : Id) (accrualDate : DateTime) :
    Option (Id × SavingsInterestAccrual) :=
  (s.table .savingsInterestAccrual).entries.find? fun a =>
    a.2.accountId = accountId ∧ a.2.accrualDate = accrualDate

/-- What a run writes to a row that is there. -/
def SavingsInterestAccrual.rewrite (new a : SavingsInterestAccrual) : SavingsInterestAccrual :=
  { a with balanceUsed := new.balanceUsed, rateApplied := new.rateApplied,
           amountAccrued := new.amountAccrued }

/-- Create the row, or update the one of the same account and date. -/
def upsertAccrual (new : SavingsInterestAccrual) : Handler (Id × SavingsInterestAccrual) :=
  Proc.exec { interest := some (.accrue new.accountId new.accrualDate new.amountAccrued) } fun s =>
    match s.accrualOf new.accountId new.accrualDate with
    | some (id, a) => ((id, new.rewrite a), s.modify .savingsInterestAccrual id new.rewrite)
    | none => ((s.nextId .savingsInterestAccrual, new), s.insert .savingsInterestAccrual new)

/-! ## Runs -/

/-- What the run for an account comes to. -/
inductive AccrualOutcome
  | skipped (reason : String)
  | accruals (rows : List (Id × SavingsInterestAccrual))

def SavingsAccountStatus.text : SavingsAccountStatus → String
  | .active => "ACTIVE"
  | .dormant => "DORMANT"
  | .closed => "CLOSED"

/-- `loadAccountWithProduct`: the account, and its product version with the id. -/
def loadAccountWithProduct (accountId institutionId : Id) :
    Handler (Option (SavingsAccount × Option (Id × ProductVersion))) := do
  let found ← findById .savingsAccount accountId fun a => a.institutionId = institutionId
  match found with
  | none => return none
  | some account =>
    match account.productVersionId with
    | none => return some (account, none)
    | some versionId => do
      let version ← findUnique .productVersion versionId
      return some (account, version.map fun v => (versionId, v))

/-- The row of one day, unless it has been posted. -/
def accrueDay (now : DateTime) (accountId institutionId : Id) (account : SavingsAccount)
    (version : Id × ProductVersion) (accrualDate : DateTime) :
    Handler (Option (Id × SavingsInterestAccrual)) := do
  let existing ← query fun s => s.accrualOf accountId accrualDate
  if ∃ a ∈ existing, a.2.posted = true then return none
  else
    let balanceUsed ← getBalanceAsOf accountId (endOfDay accrualDate)
    let rate ← resolveEffectiveRate now account version.1 version.2 balanceUsed
    let amountAccrued := round2 (balanceUsed * (rate / 100) / 365)
    let accrual ← upsertAccrual
      { institutionId, accountId, accrualDate, balanceUsed := ofNumber balanceUsed,
        rateApplied := rate, method := version.2.interestMethod,
        amountAccrued := ofNumber amountAccrued }
    return some accrual

/-- The balance of a month, from those of its days. -/
def monthBalance (method : String) (dayBalances : List ℚ) : ℚ :=
  if method = "AVERAGE_DAILY_BALANCE" then dayBalances.sum / dayBalances.length
  else dayBalances.tail.foldl min (dayBalances.headD 0)

/-- The row of a month. -/
def accrueMonth (now : DateTime) (accountId institutionId : Id) (account : SavingsAccount)
    (version : Id × ProductVersion) (throughDate : DateTime) : Handler AccrualOutcome := do
  let periodStart := startOfMonth throughDate
  let periodEnd := min throughDate (endOfMonth throughDate)
  let existing ← query fun s => s.accrualOf accountId periodStart
  if ∃ a ∈ existing, a.2.posted = true then
    return .skipped "this period is already posted — use reversal to adjust"
  else
    let dayBalances ← Proc.mapEach (eachDay periodStart periodEnd) fun d =>
      getBalanceAsOf accountId (startOfDay d)
    let balanceUsed := monthBalance version.2.interestMethod dayBalances
    let rate ← resolveEffectiveRate now account version.1 version.2 balanceUsed
    let amountAccrued := round2 (balanceUsed * (rate / 100) * (daysInMonth throughDate / 365))
    let accrual ← upsertAccrual
      { institutionId, accountId, accrualDate := periodStart,
        balanceUsed := ofNumber (round2 balanceUsed), rateApplied := rate,
        method := version.2.interestMethod, amountAccrued := ofNumber amountAccrued }
    return .accruals [accrual]

/-- The rows of the days since the last run. -/
def accrueDays (now : DateTime) (accountId institutionId : Id) (account : SavingsAccount)
    (version : Id × ProductVersion) (throughDate : DateTime) : Handler AccrualOutcome := do
  let fromDate := account.lastAccrualDate.getD (startOfDay throughDate)
  let results ← Proc.mapEach (eachDay (startOfDay fromDate) (startOfDay throughDate))
    (accrueDay now accountId institutionId account version)
  return .accruals results.reduceOption

/-- The rows of a run that is not skipped. -/
def accrueRows (now : DateTime) (accountId institutionId : Id) (account : SavingsAccount)
    (version : Id × ProductVersion) (throughDate : DateTime) : Handler AccrualOutcome :=
  if version.2.interestMethod = "AVERAGE_DAILY_BALANCE" ∨
      version.2.interestMethod = "MINIMUM_MONTHLY_BALANCE" then
    accrueMonth now accountId institutionId account version throughDate
  else accrueDays now accountId institutionId account version throughDate

def runAccrualForAccount (now : DateTime) (accountId institutionId : Id) (throughDate : DateTime) :
    Handler AccrualOutcome := do
  let loaded ← loadAccountWithProduct accountId institutionId
  match loaded with
  | some (account, some version) =>
    if account.interestSuspended = true then return .skipped "interest suspended"
    else if account.status ≠ .active then
      return .skipped ("account status is " ++ account.status.text)
    else do
      let outcome ← accrueRows now accountId institutionId account version throughDate
      match outcome with
      | .skipped reason => return .skipped reason
      | .accruals rows =>
        let _ ← update .savingsAccount accountId fun a => { a with lastAccrualDate := some throughDate }
        return .accruals rows
  | _ => return .skipped "no product configured"

/-- The numbers of accounts that were processed and of rows. -/
def AccrualOutcome.counts (outcomes : List AccrualOutcome) : ℕ × ℕ :=
  outcomes.foldl (fun n outcome => match outcome with
    | .skipped _ => n
    | .accruals rows => (n.1 + 1, n.2 + rows.length)) (0, 0)

/-- `POST /:accountId/accrue`. -/
def accrueInterest (auth : Auth) (now : DateTime) (accountId : Id) (date : Option DateTime) :
    Handler AccrualOutcome := do
  let throughDate := date.getD now
  let result ← runAccrualForAccount now accountId auth.institutionId throughDate
  let _ ← create .auditLog
    { institutionId := auth.institutionId, userId := some auth.userId,
      action := "savings.interest_accrue", resource := "savings_account",
      resourceId := some accountId }
  return result

/-- `POST /accrue-all`. -/
def accrueAllInterest (auth : Auth) (now : DateTime) (date : Option DateTime) :
    Handler (ℕ × ℕ) := do
  let throughDate := date.getD now
  let accounts ← findMany .savingsAccount fun _ a =>
    a.institutionId = auth.institutionId ∧ a.status = .active ∧ a.interestSuspended = false
  let outcomes ← Proc.mapEach accounts fun acc =>
    runAccrualForAccount now acc.1 auth.institutionId throughDate
  let _ ← create .auditLog
    { institutionId := auth.institutionId, userId := some auth.userId,
      action := "savings.interest_accrue_all", resource := "savings_account" }
  return AccrualOutcome.counts outcomes

/-- `runSavingsInterestAccrualAllInstitutions` of the scheduler. -/
def runSavingsInterestAccrual (now : DateTime) : Handler (ℕ × ℕ) := do
  let accounts ← findMany .savingsAccount fun _ a =>
    a.status = .active ∧ a.interestSuspended = false
  let outcomes ← Proc.mapEach accounts fun acc =>
    runAccrualForAccount now acc.1 acc.2.institutionId now
  return AccrualOutcome.counts outcomes

/-! ## Suspension -/

/-- The suspension of the interest of an account is set. -/
def setInterestSuspension (auth : Auth) (accountId : Id) (action : String)
    (data : SavingsAccount → SavingsAccount) : Handler Unit := do
  let found ← updateGuarded .savingsAccount accountId
    (fun a => a.institutionId = auth.institutionId) data
  Proc.require (found = true) (.http 404 "Account not found")
  let _ ← create .auditLog
    { institutionId := auth.institutionId, userId := some auth.userId, action,
      resource := "savings_account", resourceId := some accountId }

/-- `POST /:accountId/suspend`. -/
def suspendInterest (auth : Auth) (now : DateTime) (accountId : Id) (reason : Option String) :
    Handler Unit :=
  setInterestSuspension auth accountId "savings.interest_suspend" fun a =>
    { a with interestSuspended := true,
             interestSuspendedReason := reason <|> a.interestSuspendedReason,
             interestSuspendedAt := some now }

/-- `POST /:accountId/resume`. -/
def resumeInterest (auth : Auth) (accountId : Id) : Handler Unit :=
  setInterestSuspension auth accountId "savings.interest_resume" fun a =>
    { a with interestSuspended := false, interestSuspendedReason := none,
             interestSuspendedAt := none }

end NexusEfos
