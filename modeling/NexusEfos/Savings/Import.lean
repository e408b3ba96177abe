/-
The import of savings accounts from another system: `routes/migration.routes.ts`.

An account comes with its balance, and the balance is recorded as a transaction, so that the
history of the account begins with it.
-/
import NexusEfos.Loans.Import

namespace NexusEfos

/-- The account number is empty where the sheet has none. -/
structure SavingsRow where
  rowNumber : ℕ
  customerPhone : String
  productCode : String
  accountNumber : String
  openingBalance : Option ℚ
  status : String

/-- A row with the version of its product. -/
structure ImportedAccount where
  row : SavingsRow
  productVersionId : Option Id

def savingsAccountStatuses : List (String × SavingsAccountStatus) :=
  [("ACTIVE", .active), ("DORMANT", .dormant), ("CLOSED", .closed)]

/-- The version of the product a row names by its code, and what is wrong with the product.
`currentVersion` is the column of a product that refers to its version. -/
def findSavingsProduct (currentVersion : Id → Option Id) (institutionId : Id) (code : String) :
    Handler (Option Id × List String) :=
  if code ≠ "" then do
    let product ← findFirst .product fun _ p =>
      p.institutionId = institutionId ∧ p.code = code ∧ p.type = .savings
    return match product with
      | none => (none, ["No Savings product found with code \"" ++ code ++ "\""])
      | some p =>
        if p.2.status = .active then (currentVersion p.1, [])
        else (none, ["Product \"" ++ code ++ "\" is not currently active"])
  else return (none, [])

def accountNumberErrors (accountNumber : String) : Handler (List String) :=
  if accountNumber ≠ "" then do
    let existingAcct ← findFirst .savingsAccount fun _ a => a.accountNumber = accountNumber
    return errorUnless (existingAcct.isNone = true)
      ("Account Number \"" ++ accountNumber ++ "\" is already in use")
  else return []

/-- The rows before this one have taken `seenAccountNumbers`. -/
def validateSavingsRow (currentVersion : Id → Option Id) (institutionId : Id)
    (seenAccountNumbers : List String) (row : SavingsRow) :
    Handler (ImportResult ImportedAccount) := do
  let errors :=
    phoneErrors row.customerPhone ++
    errorUnless (row.productCode ≠ "") "Product Code is required" ++
    errorUnless (row.status ∈ savingsAccountStatuses.map Prod.fst)
      "Status must be one of: ACTIVE, DORMANT, CLOSED" ++
    errorUnless (nonNegative row.openingBalance) "Opening Balance must be a number ≥ 0" ++
    errorUnless (row.accountNumber ∉ seenAccountNumbers.filter fun n => n ≠ "")
      "Duplicate Account Number within this file"
  let (customerId, customerErrors) ← findImportCustomer institutionId row.customerPhone
  let (productVersionId, productErrors) ←
    findSavingsProduct currentVersion institutionId row.productCode
  let numberErrors ← accountNumberErrors row.accountNumber
  return { data := ⟨row, productVersionId⟩,
           errors := errors ++ customerErrors ++ productErrors ++ numberErrors, customerId }

/-- Row by row, with the account numbers of those before. -/
def validateSavingsRows (currentVersion : Id → Option Id) (institutionId : Id) :
    List String → List SavingsRow → Handler (List (ImportResult ImportedAccount))
  | _, [] => return []
  | seenAccountNumbers, row :: rows => do
    let result ← validateSavingsRow currentVersion institutionId seenAccountNumbers row
    let results ← validateSavingsRows currentVersion institutionId
      (row.accountNumber :: seenAccountNumbers) rows
    return result :: results

/-- The account of a row.  `generated` is the number that is drawn for it if the sheet has none. -/
def ImportedAccount.account (a : ImportedAccount) (generated : String)
    (institutionId customerId batchId : Id) : SavingsAccount :=
  let openingBalance := ofNumber (round2 (a.row.openingBalance.getD 0))
  { institutionId, customerId, productVersionId := a.productVersionId,
    accountNumber := if a.row.accountNumber ≠ "" then a.row.accountNumber else generated,
    balance := openingBalance, ledgerBalance := openingBalance,
    status := ((savingsAccountStatuses.find? fun s => s.1 = a.row.status).map Prod.snd).getD .active,
    importBatchId := some batchId }

/-- The transaction for one account. -/
def importAccountInTx (auth : Auth) (now : DateTime) (a : ImportedAccount) (row : SavingsAccount) :
    Handler Unit := do
  let openingBalance := round2 (a.row.openingBalance.getD 0)
  let account ← create .savingsAccount row
  if 0 < openingBalance then
    let _ ← create .savingsTransaction
      { accountId := account, type := .migrationOpeningBalance, amount := ofNumber openingBalance,
        balanceAfter := ofNumber openingBalance, recordedById := some auth.userId,
        createdAt := now }
  else return ()

def importAccount (auth : Auth) (now : DateTime) (generated : ℕ → String) (batchId : Id)
    (a : ImportedAccount) (customerId : Id) : Handler Unit :=
  Proc.transaction {}
    (importAccountInTx auth now a
      (a.account (generated a.row.rowNumber) auth.institutionId customerId batchId))

/-- `POST /savings/commit`, with the numbers that are drawn for the accounts. -/
def commitSavings (currentVersion : Id → Option Id) (generated : ℕ → String) (auth : Auth)
    (now : DateTime) (rows : List SavingsRow) : Handler ImportOutcome := do
  let results ← validateSavingsRows currentVersion auth.institutionId [] rows
  requireNoErrors (results.map ImportResult.errors)
  let batchId ← create .importBatch
    { institutionId := auth.institutionId, entityType := .savingsAccount,
      totalRows := results.length, createdById := auth.userId }
  let outcome ← importRows (fun a => a.row.rowNumber) (importAccount auth now generated batchId)
    results
  let _ ← update .importBatch batchId fun b =>
    { b with status := if outcome.rowErrors.isEmpty then .committed else .failed,
             successRows := outcome.successRows, errorRows := outcome.rowErrors.length,
             committedAt := some now }
  let _ ← create .auditLog
    { institutionId := auth.institutionId, userId := some auth.userId,
      action := "migration.savings_commit", resource := "import_batch",
      resourceId := some batchId }
  return outcome

end NexusEfos
