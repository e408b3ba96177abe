/-
Vault receipts and withdrawals, and requests to transfer cash: `routes/cashVault.routes.ts`.
-/
import NexusEfos.Approvals.Apply

namespace NexusEfos

inductive CashEntryType
  | receipt | withdrawal
  deriving DecidableEq

def CashEntryType.text : CashEntryType → String
  | .receipt => "receipt"
  | .withdrawal => "withdrawal"

def CashEntryType.entryType : CashEntryType → CashLedgerEntryType
  | .receipt => .receipt
  | .withdrawal => .withdrawal

/-- The amount with the sign that it has on the balance. -/
def CashEntryType.signed (amount : ℚ) : CashEntryType → ℚ
  | .receipt => amount
  | .withdrawal => -amount

/-- The update of a vault's balance, and the vault after it. -/
def moveVault (vaultId : Id) (type : CashEntryType) (amount : ℚ) : Handler Vault := do
  match type with
  | .withdrawal =>
    let guarded ← updateGuarded .vault vaultId (fun v => amount ≤ toNumber v.balance) fun v =>
      { v with balance := increment v.balance (-amount) }
    Proc.require (guarded = true) (.http 400 "Insufficient vault balance")
    findUniqueOrThrow .vault vaultId
  | .receipt => update .vault vaultId fun v => { v with balance := increment v.balance amount }

/-- The transaction of a receipt or a withdrawal. -/
def cashEntryInTx (auth : Auth) (now : DateTime) (vaultId : Id) (type : CashEntryType)
    (amount : ℚ) (notes : Option String) (description : String)
    (journalLines : List JournalLineInput) : Handler Id := do
  let updatedVault ← moveVault vaultId type amount
  let entry ← create .cashLedgerEntry
    { institutionId := auth.institutionId, holderType := .vault, holderId := vaultId,
      type := type.entryType, amount := ofNumber amount, balanceAfter := updatedVault.balance,
      notes, recordedById := auth.userId }
  let _ ← postJournal auth now description journalLines
  return entry

/-- `POST /vaults/:id/ledger`. -/
def recordCashEntry (auth : Auth) (now : DateTime) (vaultId : Id) (type : CashEntryType)
    (amount : ℚ) (notes : Option String) : Handler Id := do
  Proc.require (0 < amount) .invalid
  let found ← findById .vault vaultId fun v => v.institutionId = auth.institutionId
  let vault ← Proc.orFail found (.http 404 "Vault not found")
  Proc.require (vault.status = .opened) (.http 400 "Vault must be OPEN to record cash movements")
  let mappings ← findMany .cashVaultGLAccountMapping fun _ m =>
    m.institutionId = auth.institutionId
  let (vaultCashAccountId, bankAccountId) ← Proc.orFail
    (both (accountIdByPurpose mappings "Vault Cash")
      (accountIdByPurpose mappings "Bank Account (External)"))
    (.http 400 "Cash & Vault GL account mapping is not configured (\"Vault Cash\" and \"Bank Account (External)\" both required) — configure this before recording vault cash movements, real cash cannot move without a real accounting effect.")
  requirePostablePeriod auth.institutionId now
  let vaultCashAccount ← findUniqueOrThrow .gLAccount vaultCashAccountId
  let bankAccount ← findUniqueOrThrow .gLAccount bankAccountId
  let journalLines := match type with
    | .receipt => doubleEntry (vaultCashAccountId, vaultCashAccount) (bankAccountId, bankAccount) amount
    | .withdrawal =>
      doubleEntry (bankAccountId, bankAccount) (vaultCashAccountId, vaultCashAccount) amount
  Proc.require (isBalanced (journalLines.map JournalLineInput.toLineInput) = true)
    (.http 400 "Cash movement journal would not balance — check the amount")
  let entry ← Proc.transaction
    { posting := some ⟨auth.institutionId, now, journalLines.map fun l => l.accountId⟩,
      movesCash := some (vaultId, type.signed amount) }
    (cashEntryInTx auth now vaultId type amount notes
    ("Vault " ++ type.text ++ " — " ++ vault.name) journalLines)
  let _ ← create .auditLog
    { institutionId := auth.institutionId, userId := some auth.userId,
      action := "vault.cash_entry", resource := "vault", resourceId := some vaultId }
  return entry

/-! ## Transfers -/

/-- What a holder holds, if there is one. -/
def getHolderBalance (type : CashHolderType) (id : Id) : Handler (Option Cents) := do
  match type with
  | .vault =>
    let v ← findUnique .vault id
    return v.map Vault.balance
  | .teller =>
    let t ← findUnique .teller id
    return t.map Teller.currentHolding

/-- `transferSchema`. -/
structure TransferRequest where
  fromType : CashHolderType
  fromId : Id
  toType : CashHolderType
  toId : Id
  amount : ℚ
  reason : String

/-- `POST /transfers`. -/
def requestTransfer (auth : Auth) (body : TransferRequest) : Handler Id := do
  Proc.require (0 < body.amount ∧ 2 ≤ jsLength body.reason) .invalid
  Proc.require (¬ (body.fromType = body.toType ∧ body.fromId = body.toId))
    (.http 400 "Source and destination cannot be the same")
  let found ← getHolderBalance body.fromType body.fromId
  let sourceBalance ← Proc.orFail found (.http 404 "Source not found")
  Proc.require (body.amount ≤ toNumber sourceBalance)
    (.http 400 "Insufficient balance at source")
  let destExists ← getHolderBalance body.toType body.toId
  let _ ← Proc.orFail destExists (.http 404 "Destination not found")
  let transfer ← create .cashTransfer
    { institutionId := auth.institutionId, fromType := body.fromType, fromId := body.fromId,
      toType := body.toType, toId := body.toId, amount := ofNumber body.amount,
      reason := body.reason }
  let _ ← create .approvalRequest
    { institutionId := auth.institutionId, type := .cashTransfer, targetType := "CashTransfer",
      targetId := transfer, reason := some body.reason, requestedById := auth.userId }
  let _ ← create .auditLog
    { institutionId := auth.institutionId, userId := some auth.userId,
      action := "cash_transfer.requested", resource := "cash_transfer",
      resourceId := some transfer }
  return transfer

end NexusEfos
