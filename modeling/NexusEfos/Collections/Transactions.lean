/-
Field collections and their reversal: `routes/collections.routes.ts`.
-/
import NexusEfos.Loans.Repayment
import NexusEfos.Savings.Transactions

namespace NexusEfos

/-- `recordCollectionSchema`. -/
structure RecordCollection where
  type : CollectionTransactionType
  collectorId : Id
  customerId : Id
  targetId : Id
  amount : ℚ

def CollectorAvailability.text : CollectorAvailability → String
  | .available => "AVAILABLE"
  | .onLeave => "ON_LEAVE"
  | .suspended => "SUSPENDED"

def isLikelyDuplicate (institutionId collectorId targetId : Id) (amount : ℚ) (now : DateTime) :
    Handler Bool := do
  let fiveMinutesAgo := now - 5 * 60 * 1000
  let recent ← findFirst .collectionTransaction fun _ c =>
    c.institutionId = institutionId ∧ c.collectorId = collectorId ∧ c.targetId = targetId ∧
      toNumber c.amount = amount ∧ c.status = .completed ∧ fiveMinutesAgo ≤ c.collectedAt
  return recent.isSome

/-- The branch of a collected savings deposit. -/
def collectSavingsDeposit (auth : Auth) (now : DateTime) (body : RecordCollection) :
    Handler Unit := do
  let found ← findById .savingsAccount body.targetId fun a =>
    a.institutionId = auth.institutionId ∧ a.customerId = body.customerId
  let account ← Proc.orFail found (.http 404 "Savings account not found for this customer")
  let mappings ← findMany .savingsGLAccountMapping fun _ m => m.institutionId = auth.institutionId
  let (custodyAccountId, depositsLiabilityAccountId) ← Proc.orFail
    (both (accountIdByPurpose mappings "Collector Cash Custody")
      (accountIdByPurpose mappings "Customer Deposits Liability"))
    (.http 400 "Savings GL account mapping is not configured (\"Collector Cash Custody\" and \"Customer Deposits Liability\" both required) — configure this before recording field collections.")
  let custodyAccount ← findUniqueOrThrow .gLAccount custodyAccountId
  let depositsLiabilityAccount ← findUniqueOrThrow .gLAccount depositsLiabilityAccountId
  let journalLines := doubleEntry (custodyAccountId, custodyAccount)
    (depositsLiabilityAccountId, depositsLiabilityAccount) body.amount
  Proc.require (isBalanced (journalLines.map JournalLineInput.toLineInput) = true)
    (.http 400 "Collection journal would not balance — check the amount")
  let _ ← Proc.transaction
    { increments := [(body.targetId, body.amount)],
      posting := some ⟨auth.institutionId, now, journalLines.map fun l => l.accountId⟩ }
    (depositInTx auth now body.targetId body.amount
      ("Field-collected savings deposit — account " ++ account.accountNumber) journalLines)

/-- The branch of a collected loan repayment. -/
def collectLoanRepayment (auth : Auth) (now : DateTime) (body : RecordCollection) :
    Handler Unit := do
  let found ← findById .loan body.targetId fun l =>
    l.institutionId = auth.institutionId ∧ l.customerId = body.customerId
  let _ ← Proc.orFail found (.http 404 "Loan not found for this customer")
  let mappings ← findMany .loanGLAccountMapping fun _ m => m.institutionId = auth.institutionId
  let (custodyAccountId, receivableAccountId) ← Proc.orFail
    (both (accountIdByPurpose mappings "Collector Cash Custody")
      (accountIdByPurpose mappings "Loan Receivable"))
    (.http 400 "Loan GL account mapping is not configured (\"Collector Cash Custody\" and \"Loan Receivable\" both required) — configure this before recording field collections.")
  let custodyAccount ← findUniqueOrThrow .gLAccount custodyAccountId
  let receivableAccount ← findUniqueOrThrow .gLAccount receivableAccountId
  let journalLines := doubleEntry (custodyAccountId, custodyAccount)
    (receivableAccountId, receivableAccount) body.amount
  Proc.require (isBalanced (journalLines.map JournalLineInput.toLineInput) = true)
    (.http 400 "Collection journal would not balance — check the amount")
  let _ ← Proc.transaction
    { loanMove := some (body.targetId, .repay body.amount),
      posting := some ⟨auth.institutionId, now, journalLines.map fun l => l.accountId⟩ }
    (repayInTx auth now body.targetId body.amount
      ("Field-collected loan repayment — loan " ++ toString body.targetId) journalLines)

/-- `POST /transactions`. -/
def recordCollection (auth : Auth) (now : DateTime) (body : RecordCollection) : Handler Id := do
  Proc.require (0 < body.amount) .invalid
  let found ← findById .collector body.collectorId fun c => c.institutionId = auth.institutionId
  let collector ← Proc.orFail found (.http 404 "Collector not found")
  Proc.require (collector.availability = .available)
    (.http 400 ("This collector is currently " ++ collector.availability.text ++
      ", not available to record collections"))
  let duplicate ←
    isLikelyDuplicate auth.institutionId body.collectorId body.targetId body.amount now
  Proc.require (duplicate = false)
    (.http 400 "A matching collection was just recorded by this collector — if this is genuinely a second, separate payment, wait a few minutes and try again")
  requirePostablePeriod auth.institutionId now
  match body.type with
  | .savingsDeposit => collectSavingsDeposit auth now body
  | .loanRepayment => collectLoanRepayment auth now body
  let collection ← createAs { collects := some (body.collectorId, now) } .collectionTransaction
    { institutionId := auth.institutionId, type := body.type, collectorId := body.collectorId,
      customerId := body.customerId, targetId := body.targetId, amount := ofNumber body.amount,
      collectedAt := now, recordedById := auth.userId }
  let _ ← create .auditLog
    { institutionId := auth.institutionId, userId := some auth.userId,
      action := "collection.transaction_recorded", resource := "collection_transaction",
      resourceId := some collection }
  return collection

/-- `POST /transactions/:id/reverse`. -/
def reverseCollection (auth : Auth) (now : DateTime) (collectionId : Id) (reason : String) :
    Handler CollectionTransaction := do
  Proc.require (reason ≠ "") (.http 400 "A reason is required to reverse a collection")
  let found ← findById .collectionTransaction collectionId fun c =>
    c.institutionId = auth.institutionId
  let collection ← Proc.orFail found (.http 404 "Collection not found")
  Proc.require (collection.status ≠ .reversed)
    (.http 400 "This collection is already reversed")
  match collection.type with
  | .savingsDeposit =>
    match ← findUnique .savingsAccount collection.targetId with
    | some account =>
      let newBalance := toNumber account.balance - toNumber collection.amount
      Proc.transaction
        { overwrites := [⟨collection.targetId, account.balance, -collection.amount⟩],
          collection := some (.takeBack collectionId) }
        (setBalanceInTx now collection.targetId .withdrawal (toNumber collection.amount) newBalance
          (some auth.userId))
    | none => pure ()
  | .loanRepayment => pure ()
  let updated ← updateAs { collection := some (.mark collectionId) } .collectionTransaction
    collectionId fun c =>
    { c with status := .reversed, reversedById := some auth.userId, reversedAt := some now,
             reversalReason := some reason }
  let _ ← create .auditLog
    { institutionId := auth.institutionId, userId := some auth.userId,
      action := "collection.transaction_reversed", resource := "collection_transaction",
      resourceId := some collectionId }
  return updated

end NexusEfos
