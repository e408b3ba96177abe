/-
Posting and reversing accrued interest: `routes/savings-interest.routes.ts`.
-/
import NexusEfos.Savings.Transactions
import Mathlib.Data.List.Sort
import Mathlib.Data.List.Dedup

namespace NexusEfos

/-- The accruals of an account that no posting has taken up, oldest first. -/
def Db.unpostedAccruals (s : Db) (accountId institutionId : Id) :
    List (Id × SavingsInterestAccrual) :=
  ((s.table .savingsInterestAccrual).entries.filter fun a =>
    a.2.accountId = accountId ∧ a.2.institutionId = institutionId ∧ a.2.posted = false).insertionSort
    fun a b => a.2.accrualDate ≤ b.2.accrualDate

/-- The transaction of an interest posting. -/
def postInterestInTx (now : DateTime) (accountId institutionId : Id) (postedById : Option Id)
    (batchId : Option String) (first last : SavingsInterestAccrual) (accrualIds : List Id)
    (totalAmount newBalance : ℚ) : Handler (Id × SavingsInterestPosting) := do
  let txn ← create .savingsTransaction
    { accountId, type := .interest, amount := ofNumber totalAmount,
      balanceAfter := ofNumber newBalance, recordedById := postedById, createdAt := now }
  let _ ← update .savingsAccount accountId (SavingsAccount.setBalance newBalance)
  let posting : SavingsInterestPosting :=
    { institutionId, accountId, periodStart := first.accrualDate, periodEnd := last.accrualDate,
      totalAmount := ofNumber totalAmount, transactionId := some txn, batchId, postedById }
  let postingId ← create .savingsInterestPosting posting
  let _ ← updateMany .savingsInterestAccrual (fun id _ => id ∈ accrualIds) fun a =>
    { a with posted := true, postingId := some postingId }
  return (postingId, posting)

/-- `postInterestForAccount`: it answers with nothing when there is nothing to
post. -/
def postInterestForAccount (now : DateTime) (accountId institutionId : Id) (postedById : Option Id)
    (batchId : Option String) : Handler (Option (Id × SavingsInterestPosting)) := do
  let unposted ← query fun s => s.unpostedAccruals accountId institutionId
  match unposted.head?, unposted.getLast? with
  | some first, some last =>
    let totalAmount := round2 (unposted.map fun a => toNumber a.2.amountAccrued).sum
    if totalAmount ≤ 0 then return none
    else
      let account ← findUniqueOrThrow .savingsAccount accountId
      let newBalance := round2 (toNumber account.balance + totalAmount)
      let result ← Proc.transaction
        { overwrites := [⟨accountId, account.balance, ofNumber totalAmount⟩],
          interest := some (.post accountId (unposted.map fun a => (a.1, a.2.amountAccrued))) }
        (postInterestInTx now accountId institutionId postedById batchId first.2 last.2
          (unposted.map Prod.fst) totalAmount newBalance)
      return some result
  | _, _ => return none

/-- The accounts of an institution that have unposted accruals. -/
def Db.accountsWithUnposted (s : Db) (institutionId : Id) : List Id :=
  (((s.table .savingsInterestAccrual).entries.filter fun a =>
    a.2.institutionId = institutionId ∧ a.2.posted = false).map fun a => a.2.accountId).dedup

/-- `postAllForInstitution`: the number of accounts posted and the total. -/
def postAllForInstitution (now : DateTime) (institutionId : Id) (postedById : Option Id)
    (batchId : Option String) : Handler (ℕ × ℚ) := do
  let accountsWithUnposted ← query fun s => s.accountsWithUnposted institutionId
  let results ← Proc.mapEach accountsWithUnposted fun accountId =>
    postInterestForAccount now accountId institutionId postedById batchId
  let posted := results.reduceOption
  return (posted.length, posted.foldl (fun t r => round2 (t + toNumber r.2.totalAmount)) 0)

/-- `POST /:accountId/post`. -/
def postInterest (auth : Auth) (now : DateTime) (accountId : Id) : Handler (Id × SavingsInterestPosting) := do
  let found ← postInterestForAccount now accountId auth.institutionId (some auth.userId) none
  let result ← Proc.orFail found (.http 400 "No unposted accrued interest for this account")
  let _ ← create .auditLog
    { institutionId := auth.institutionId, userId := some auth.userId,
      action := "savings.interest_post", resource := "savings_account",
      resourceId := some accountId }
  return result

/-- `POST /post-all`. -/
def postAllInterest (auth : Auth) (now : DateTime) (batchId : String) : Handler (ℕ × ℚ) := do
  let result ← postAllForInstitution now auth.institutionId (some auth.userId) (some batchId)
  let _ ← create .auditLog
    { institutionId := auth.institutionId, userId := some auth.userId,
      action := "savings.interest_post_all", resource := "savings_account" }
  return result

/-- `runSavingsInterestPostingAllInstitutions` of the scheduler, for the institutions there are. -/
def runSavingsInterestPosting (now : DateTime) (institutionIds : List Id) (batchId : String) :
    Handler (ℕ × ℚ) := do
  let results ← Proc.mapEach institutionIds fun institutionId =>
    postAllForInstitution now institutionId none (some batchId)
  return ((results.map Prod.fst).sum, results.foldl (fun t r => round2 (t + r.2)) 0)

/-- The transaction of an interest reversal. -/
def reverseInterestInTx (auth : Auth) (now : DateTime) (postingId : Id)
    (posting : SavingsInterestPosting) (reason : String) (newBalance : ℚ) : Handler Unit := do
  let _ ← create .savingsTransaction
    { accountId := posting.accountId, type := .interest,
      amount := ofNumber (-toNumber posting.totalAmount), balanceAfter := ofNumber newBalance,
      recordedById := some auth.userId, createdAt := now }
  let _ ← update .savingsAccount posting.accountId (SavingsAccount.setBalance newBalance)
  let _ ← update .savingsInterestPosting postingId fun p =>
    { p with reversedAt := some now, reversedById := some auth.userId,
             reversalReason := some reason }
  let _ ← updateMany .savingsInterestAccrual (fun _ a => a.postingId = some postingId) fun a =>
    { a with posted := false, postingId := none }

/-- `POST /postings/:id/reverse`. -/
def reverseInterest (auth : Auth) (now : DateTime) (postingId : Id) (reason : String) :
    Handler Unit := do
  Proc.require (reason ≠ "") .invalid
  let found ← findById .savingsInterestPosting postingId fun p =>
    p.institutionId = auth.institutionId
  let posting ← Proc.orFail found (.http 404 "Posting not found")
  Proc.require (posting.reversedAt = none) (.http 400 "This posting has already been reversed")
  let account ← findUniqueOrThrow .savingsAccount posting.accountId
  let newBalance := round2 (toNumber account.balance - toNumber posting.totalAmount)
  Proc.transaction
    { overwrites := [⟨posting.accountId, account.balance, -posting.totalAmount⟩],
      interest := some (.reverse postingId) }
    (reverseInterestInTx auth now postingId posting reason newBalance)
  let _ ← create .auditLog
    { institutionId := auth.institutionId, userId := some auth.userId,
      action := "savings.interest_reverse", resource := "savings_interest_posting",
      resourceId := some postingId }

end NexusEfos
