/-
Deposits, withdrawals and fees on savings accounts: `routes/savings.routes.ts`.

A deposit and a withdrawal change the balance with a relative update and post a
journal in the same transaction.  A fee and its waiver compute the new balance
from one that was read before, and post nothing.
-/
import NexusEfos.Ledger.Posting

namespace NexusEfos

inductive RestrictionDirection
  | debit | credit
  deriving DecidableEq

/-- The message of the first active restriction that forbids a movement. -/
def restrictionMessage (direction : RestrictionDirection) :
    List (Id × SavingsRestriction) → Option String
  | [] => none
  | (_, r) :: rest =>
    if r.type = .fullFreeze then some ("Account is fully frozen: " ++ r.reason)
    else if direction = .debit ∧ r.type = .debitRestriction then
      some ("Withdrawals are restricted: " ++ r.reason)
    else if direction = .credit ∧ r.type = .creditRestriction then
      some ("Deposits are restricted: " ++ r.reason)
    else restrictionMessage direction rest

def checkRestriction (accountId : Id) (direction : RestrictionDirection) :
    Handler (Option String) := do
  let active ← findMany .savingsRestriction fun _ r => r.accountId = accountId ∧ r.status = .active
  return restrictionMessage direction active

/-- Answer with a message if there is one. -/
def refuse : Option String → Handler Unit
  | some message => Proc.fail (.http 400 message)
  | none => pure ()

/-- The relative update of both balances of an account. -/
def SavingsAccount.increment (x : ℚ) (a : SavingsAccount) : SavingsAccount :=
  { a with balance := NexusEfos.increment a.balance x,
           ledgerBalance := NexusEfos.increment a.ledgerBalance x }

/-- The absolute update of both balances of an account. -/
def SavingsAccount.setBalance (x : ℚ) (a : SavingsAccount) : SavingsAccount :=
  { a with balance := ofNumber x, ledgerBalance := ofNumber x }

/-- The transaction of a deposit. -/
def depositInTx (auth : Auth) (now : DateTime) (accountId : Id) (amount : ℚ)
    (description : String) (journalLines : List JournalLineInput) :
    Handler (SavingsAccount × Id) := do
  let acct ← update .savingsAccount accountId (SavingsAccount.increment amount)
  let t ← create .savingsTransaction
    { accountId, type := .deposit, amount := ofNumber amount, balanceAfter := acct.balance,
      recordedById := some auth.userId, createdAt := now }
  let _ ← postJournal auth now description journalLines
  return (acct, t)

def deposit (auth : Auth) (now : DateTime) (accountId : Id) (amount : ℚ) :
    Handler (SavingsAccount × Id) := do
  Proc.require (0 < amount) .invalid
  let found ← findById .savingsAccount accountId fun a => a.institutionId = auth.institutionId
  let account ← Proc.orFail found (.http 404 "Account not found")
  let restrictionError ← checkRestriction accountId .credit
  refuse restrictionError
  let mappings ← findMany .savingsGLAccountMapping fun _ m => m.institutionId = auth.institutionId
  let (cashAccountId, depositsLiabilityAccountId) ← Proc.orFail
    (both (accountIdByPurpose mappings "Cash/Bank (Savings)")
      (accountIdByPurpose mappings "Customer Deposits Liability"))
    (.http 400 "Savings GL account mapping is not configured (\"Cash/Bank (Savings)\" and \"Customer Deposits Liability\" both required) — configure this before recording deposits, real cash cannot move without a real accounting effect.")
  requirePostablePeriod auth.institutionId now
  let cashAccount ← findUniqueOrThrow .gLAccount cashAccountId
  let depositsLiabilityAccount ← findUniqueOrThrow .gLAccount depositsLiabilityAccountId
  let journalLines := doubleEntry (cashAccountId, cashAccount)
    (depositsLiabilityAccountId, depositsLiabilityAccount) amount
  Proc.require (isBalanced (journalLines.map JournalLineInput.toLineInput) = true)
    (.http 400 "Deposit journal would not balance — check the deposit amount")
  let result ← Proc.transaction
    { increments := [(accountId, amount)],
      posting := some ⟨auth.institutionId, now, journalLines.map fun l => l.accountId⟩ }
    (depositInTx auth now accountId amount
      ("Savings deposit — account " ++ account.accountNumber) journalLines)
  let _ ← create .auditLog
    { institutionId := auth.institutionId, userId := some auth.userId, action := "savings.deposit",
      resource := "savings_account", resourceId := some accountId }
  return result

/-- The transaction of a withdrawal. -/
def withdrawInTx (auth : Auth) (now : DateTime) (accountId : Id) (amount : ℚ)
    (description : String) (journalLines : List JournalLineInput) :
    Handler (SavingsAccount × Id) := do
  let updated ← updateGuarded .savingsAccount accountId (fun a => amount ≤ toNumber a.balance)
    (SavingsAccount.increment (-amount))
  Proc.require (updated = true) (.http 400 "Insufficient balance")
  let acct ← findUniqueOrThrow .savingsAccount accountId
  let t ← create .savingsTransaction
    { accountId, type := .withdrawal, amount := ofNumber amount, balanceAfter := acct.balance,
      recordedById := some auth.userId, createdAt := now }
  let _ ← postJournal auth now description journalLines
  return (acct, t)

def withdraw (auth : Auth) (now : DateTime) (accountId : Id) (amount : ℚ) :
    Handler (SavingsAccount × Id) := do
  Proc.require (0 < amount) .invalid
  let found ← findById .savingsAccount accountId fun a => a.institutionId = auth.institutionId
  let account ← Proc.orFail found (.http 404 "Account not found")
  let restrictionError ← checkRestriction accountId .debit
  refuse restrictionError
  let mappings ← findMany .savingsGLAccountMapping fun _ m => m.institutionId = auth.institutionId
  let (cashAccountId, depositsLiabilityAccountId) ← Proc.orFail
    (both (accountIdByPurpose mappings "Cash/Bank (Savings)")
      (accountIdByPurpose mappings "Customer Deposits Liability"))
    (.http 400 "Savings GL account mapping is not configured (\"Cash/Bank (Savings)\" and \"Customer Deposits Liability\" both required) — configure this before recording withdrawals, real cash cannot move without a real accounting effect.")
  requirePostablePeriod auth.institutionId now
  let cashAccount ← findUniqueOrThrow .gLAccount cashAccountId
  let depositsLiabilityAccount ← findUniqueOrThrow .gLAccount depositsLiabilityAccountId
  let journalLines := doubleEntry (depositsLiabilityAccountId, depositsLiabilityAccount)
    (cashAccountId, cashAccount) amount
  Proc.require (isBalanced (journalLines.map JournalLineInput.toLineInput) = true)
    (.http 400 "Withdrawal journal would not balance — check the withdrawal amount")
  let result ← Proc.transaction
    { increments := [(accountId, -amount)],
      posting := some ⟨auth.institutionId, now, journalLines.map fun l => l.accountId⟩ }
    (withdrawInTx auth now accountId amount
      ("Savings withdrawal — account " ++ account.accountNumber) journalLines)
  let _ ← create .auditLog
    { institutionId := auth.institutionId, userId := some auth.userId, action := "savings.withdraw",
      resource := "savings_account", resourceId := some accountId }
  return result

/-! ## Fees -/

/-- What a fee type charges on a balance. -/
def SavingsFeeType.charge (feeType : SavingsFeeType) (balance : Cents) : ℚ :=
  match feeType.calculationMethod with
  | .fixed => toNumber feeType.amount
  | .percentage => round2 (toNumber balance * (toNumber feeType.amount / 100))

/-- The transaction of a fee charge. -/
def chargeFeeInTx (auth : Auth) (accountId feeTypeId : Id) (amount newBalance : ℚ) :
    Handler Id := do
  let _ ← update .savingsAccount accountId (SavingsAccount.setBalance newBalance)
  create .savingsFeeCharge
    { institutionId := auth.institutionId, accountId, feeTypeId, amount := ofNumber amount,
      appliedById := some auth.userId }

/-- `POST /:id/fee-charges`. -/
def chargeFee (auth : Auth) (now : DateTime) (accountId feeTypeId : Id) : Handler Id := do
  let found ← findById .savingsAccount accountId fun a => a.institutionId = auth.institutionId
  let account ← Proc.orFail found (.http 404 "Account not found")
  let foundType ← findById .savingsFeeType feeTypeId fun t =>
    t.institutionId = auth.institutionId ∧ t.active = true
  let feeType ← Proc.orFail foundType (.http 404 "Active fee type not found")
  let amount := feeType.charge account.balance
  let newBalance := toNumber account.balance - amount
  let charge ← Proc.transaction
    { overwrites := [⟨accountId, account.balance, -ofNumber amount⟩] }
    (chargeFeeInTx auth accountId feeTypeId amount newBalance)
  let _ ← create .savingsTransaction
    { accountId, type := .fee, amount := ofNumber amount, balanceAfter := ofNumber newBalance,
      recordedById := some auth.userId, createdAt := now }
  let _ ← create .auditLog
    { institutionId := auth.institutionId, userId := some auth.userId,
      action := "savings.fee_charged", resource := "savings_account", resourceId := some accountId }
  return charge

/-- The transaction of the absolute writers that make one movement: an account
is set to a balance and the movement is recorded. -/
def setBalanceInTx (now : DateTime) (accountId : Id) (type : SavingsTxnType) (amount newBalance : ℚ)
    (recordedById : Option Id) : Handler Unit := do
  let _ ← update .savingsAccount accountId (SavingsAccount.setBalance newBalance)
  let _ ← create .savingsTransaction
    { accountId, type, amount := ofNumber amount, balanceAfter := ofNumber newBalance,
      recordedById, createdAt := now }

def FeeChargeStatus.text : FeeChargeStatus → String
  | .applied => "APPLIED"
  | .waived => "WAIVED"
  | .reversed => "REVERSED"

/-- `POST /fee-charges/:chargeId/waive`. -/
def waiveFee (auth : Auth) (now : DateTime) (chargeId : Id) (reason : Option String) :
    Handler SavingsFeeCharge := do
  let found ← findById .savingsFeeCharge chargeId fun c => c.institutionId = auth.institutionId
  let charge ← Proc.orFail found (.http 404 "Charge not found")
  Proc.require (charge.status = .applied)
    (.http 400 ("Only an APPLIED charge can be waived (currently " ++ charge.status.text ++ ")"))
  let account ← findUnique .savingsAccount charge.accountId
  match account with
  | some account =>
    let newBalance := toNumber account.balance + toNumber charge.amount
    Proc.transaction { overwrites := [⟨charge.accountId, account.balance, charge.amount⟩] }
      (setBalanceInTx now charge.accountId .feeReversal (toNumber charge.amount) newBalance
        (some auth.userId))
  | none => pure ()
  let updated ← update .savingsFeeCharge chargeId fun c =>
    { c with status := .waived, waivedById := some auth.userId, waivedAt := some now,
             waivedReason := reason <|> c.waivedReason }
  let _ ← create .auditLog
    { institutionId := auth.institutionId, userId := some auth.userId,
      action := "savings.fee_waived", resource := "savings_account",
      resourceId := some charge.accountId }
  return updated

end NexusEfos
