/-
What one statement can do to the books of savings and loans.

The nine operations on savings accounts and the two ways to repay a loan consist
of reads, of writes to tables that hold no money, and of four kinds of statement
that move money.  `BooksStep` lists them.  What an operation read earlier enters a
step only as far as it still holds when the step is taken: `Db.Evolves` says what
never changes.

A process that has charged a fee still owes the row that records it.  The debt of
a process says, account by account, the sum of the rows it owes.
-/
import NexusEfos.Collections.Transactions
import NexusEfos.Handlers

namespace NexusEfos

namespace Db

/-! ## What is observed -/

/-- The stored balance of a savings account. -/
def balanceOf (s : Db) (a : Id) : Cents :=
  ((s.find? .savingsAccount a).map fun account => account.balance).getD 0

/-- The institution of a savings account. -/
def owner? (s : Db) (a : Id) : Option Id :=
  (s.find? .savingsAccount a).map fun account => account.institutionId

/-- The ledger account an institution's savings mapping names for a purpose. -/
def savingsGLAccount? (s : Db) (institutionId : Id) (purpose : String) : Option Id :=
  accountIdByPurpose ((s.table .savingsGLAccountMapping).entries.filter fun e =>
    e.2.institutionId = institutionId) purpose

/-- The ledger account an institution's loan mapping names for a purpose. -/
def loanGLAccount? (s : Db) (institutionId : Id) (purpose : String) : Option Id :=
  accountIdByPurpose ((s.table .loanGLAccountMapping).entries.filter fun e =>
    e.2.institutionId = institutionId) purpose

end Db

/-- The amount of a row with the sign it has on the balance. -/
def SavingsTransaction.signed (row : SavingsTransaction) : Cents :=
  match row.type with
  | .deposit | .interest | .migrationOpeningBalance | .feeReversal => row.amount
  | .withdrawal | .fee => -row.amount

/-- The signed sum of some rows, as far as they are on an account. -/
def signedSum (rows : List SavingsTransaction) (a : Id) : Cents :=
  (rows.map fun row => if row.accountId = a then row.signed else 0).sum

/-- The signed sum of all rows of an account. -/
def Db.rowsOf (s : Db) (a : Id) : Cents := signedSum (s.table .savingsTransaction).values a

/-! ## What never changes -/

/-- The tables of the books. -/
def books : List Model :=
  [.savingsAccount, .savingsTransaction, .gLAccount, .loanInstallment, .loanRepayment,
    .savingsGLAccountMapping, .loanGLAccountMapping]

/-- How the books may move: mappings, categories and owners stay. -/
structure Db.Evolves (s s' : Db) : Prop where
  savingsMappings : s'.table .savingsGLAccountMapping = s.table .savingsGLAccountMapping
  loanMappings : s'.table .loanGLAccountMapping = s.table .loanGLAccountMapping
  chart : ∀ a, s'.category? a = s.category? a
  owners : ∀ a, s'.owner? a = s.owner? a

namespace Db.Evolves

variable {s s' s'' : Db}

theorem refl (s : Db) : s.Evolves s := ⟨rfl, rfl, fun _ => rfl, fun _ => rfl⟩

theorem trans (h : s.Evolves s') (h' : s'.Evolves s'') : s.Evolves s'' where
  savingsMappings := h'.savingsMappings.trans h.savingsMappings
  loanMappings := h'.loanMappings.trans h.loanMappings
  chart := fun a => (h'.chart a).trans (h.chart a)
  owners := fun a => (h'.owners a).trans (h.owners a)

theorem symm (h : s.Evolves s') : s'.Evolves s :=
  ⟨h.savingsMappings.symm, h.loanMappings.symm, fun a => (h.chart a).symm,
    fun a => (h.owners a).symm⟩

theorem of_agree (h : s.Agree books s') : s.Evolves s' where
  savingsMappings := h _ (by decide)
  loanMappings := h _ (by decide)
  chart := fun a => by
    unfold category?
    rw [h.find? (by decide)]
  owners := fun a => by
    unfold owner?
    rw [h.find? (by decide)]

theorem savingsGLAccount? (h : s.Evolves s') (institutionId : Id) (purpose : String) :
    s'.savingsGLAccount? institutionId purpose = s.savingsGLAccount? institutionId purpose := by
  unfold Db.savingsGLAccount?
  rw [h.savingsMappings]

theorem loanGLAccount? (h : s.Evolves s') (institutionId : Id) (purpose : String) :
    s'.loanGLAccount? institutionId purpose = s.loanGLAccount? institutionId purpose := by
  unfold Db.loanGLAccount?
  rw [h.loanMappings]

theorem insert {m : Model} (hm : m ∉ books ∨ m = .savingsTransaction ∨ m = .loanRepayment)
    (s : Db) (row : Row m) : s.Evolves (s.insert m row) := by
  rcases hm with hm | rfl | rfl
  · exact of_agree (Db.Agree.insert hm s row)
  all_goals
    refine ⟨table_insert_of_ne (by decide) .., table_insert_of_ne (by decide) .., ?_, ?_⟩
    · intro a
      unfold category?
      rw [find?_insert_of_ne (by decide)]
    · intro a
      unfold owner?
      rw [find?_insert_of_ne (by decide)]

/-- A ledger account is rewritten within its category. -/
theorem modify_gLAccount {f : GLAccount → GLAccount} (hf : ∀ a, (f a).category = a.category)
    (s : Db) (id : Id) : s.Evolves (s.modify .gLAccount id f) where
  savingsMappings := table_modify_of_ne (by decide) ..
  loanMappings := table_modify_of_ne (by decide) ..
  chart := fun a => by
    unfold category?
    rw [find?_modify]
    split
    · cases s.find? .gLAccount a <;> simp [hf]
    · rfl
  owners := fun a => by
    unfold owner?
    rw [find?_modify_of_ne (by decide)]

/-- A savings account is rewritten and keeps its owner. -/
theorem modify_savingsAccount {f : SavingsAccount → SavingsAccount}
    (hf : ∀ a, (f a).institutionId = a.institutionId) (s : Db) (id : Id) :
    s.Evolves (s.modify .savingsAccount id f) where
  savingsMappings := table_modify_of_ne (by decide) ..
  loanMappings := table_modify_of_ne (by decide) ..
  chart := fun a => by
    unfold category?
    rw [find?_modify_of_ne (by decide)]
  owners := fun a => by
    unfold owner?
    rw [find?_modify]
    split
    · cases s.find? .savingsAccount a <;> simp [hf]
    · rfl

theorem modify_loanInstallment (f : LoanInstallment → LoanInstallment) (s : Db) (id : Id) :
    s.Evolves (s.modify .loanInstallment id f) where
  savingsMappings := table_modify_of_ne (by decide) ..
  loanMappings := table_modify_of_ne (by decide) ..
  chart := fun a => by
    unfold category?
    rw [find?_modify_of_ne (by decide)]
  owners := fun a => by
    unfold owner?
    rw [find?_modify_of_ne (by decide)]

theorem applyEffects (s : Db) (lines : List JournalLineInput) :
    s.Evolves (s.applyEffects lines) := by
  induction lines generalizing s with
  | nil => exact refl s
  | cons l ls ih =>
    rw [Db.applyEffects]
    exact (modify_gLAccount (f := fun a => a.addBalance l.effectCents) (fun _ => rfl) s
      l.accountId).trans (ih _)

end Db.Evolves

/-! ## The outcomes of the statements -/

/-- Both balances of an account, set to a number of cents. -/
def SavingsAccount.setCents (c : Cents) (a : SavingsAccount) : SavingsAccount :=
  { a with balance := c, ledgerBalance := c }

theorem SavingsAccount.setBalance_eq (x : ℚ) :
    SavingsAccount.setBalance x = SavingsAccount.setCents (ofNumber x) := rfl

namespace Db

/-- A movement: the relative update of an account, its row and its journal lines. -/
def move (s : Db) (a : Id) (x : ℚ) (row : SavingsTransaction) (lines : List JournalLineInput) :
    Db :=
  ((s.modify .savingsAccount a (SavingsAccount.increment x)).insert .savingsTransaction
    row).applyEffects lines

/-- Absolute writes of balances. -/
def overwrite (s : Db) (os : List Overwrite) : Db :=
  os.foldl (fun s o => s.modify .savingsAccount o.accountId (SavingsAccount.setCents o.written)) s

/-- A write of one balance, as the code has it. -/
theorem overwrite_one (s : Db) (a : Id) {b c : Cents} {y : ℚ} (h : ofNumber y = b + c) :
    s.overwrite [⟨a, b, c⟩] = s.modify .savingsAccount a (SavingsAccount.setBalance y) := by
  rw [SavingsAccount.setBalance_eq, h]
  rfl

/-- Add rows to a table. -/
def insertAll (s : Db) (m : Model) (rows : List (Row m)) : Db :=
  rows.foldl (fun s row => s.insert m row) s

/-- A repayment with its allocation to the installments. -/
def repay (s : Db) (loanId : Id) (amount : ℚ) (recordedById : Id) : Db :=
  (allocateRepayment ((s.installmentsOf loanId).map installmentState) amount).foldl
    (fun s u => s.modify .loanInstallment u.id u.apply)
    (s.insert .loanRepayment
      { loanId, amount := ofNumber amount, recordedById := some recordedById })

end Db

namespace Db.Evolves

theorem foldl {α : Type} {f : Db → α → Db} (hf : ∀ (s : Db) x, s.Evolves (f s x)) (xs : List α) (s : Db) :
    s.Evolves (xs.foldl f s) := by
  induction xs generalizing s with
  | nil => exact refl s
  | cons x xs ih => exact (hf s x).trans (ih _)

theorem move (s : Db) (a : Id) (x : ℚ) (row : SavingsTransaction)
    (lines : List JournalLineInput) : s.Evolves (s.move a x row lines) :=
  (modify_savingsAccount (f := SavingsAccount.increment x) (fun _ => rfl) s a).trans
    ((insert (m := .savingsTransaction) (by decide) _ row).trans (applyEffects _ lines))

theorem overwrite (s : Db) (os : List Overwrite) : s.Evolves (s.overwrite os) :=
  foldl (fun s (o : Overwrite) => modify_savingsAccount (f := SavingsAccount.setCents o.written)
    (fun _ => rfl) s o.accountId) os s

theorem insertAll {m : Model} (hm : m ∉ books ∨ m = .savingsTransaction ∨ m = .loanRepayment)
    (s : Db) (rows : List (Row m)) : s.Evolves (s.insertAll m rows) := foldl (insert hm) rows s

theorem repay (s : Db) (loanId : Id) (amount : ℚ) (recordedById : Id) :
    s.Evolves (s.repay loanId amount recordedById) :=
  (insert (m := .loanRepayment) (by decide) s _).trans
    (foldl (fun s (u : AllocationUpdate) => modify_loanInstallment u.apply s u.id) _ _)

end Db.Evolves

/-- The two ledger accounts a savings movement is posted to: where the money is,
and what the institution owes. -/
structure SavingsPair (s : Db) (institutionId : Id) (money liability : Id × GLAccount) : Prop where
  money_mapped : s.savingsGLAccount? institutionId "Cash/Bank (Savings)" = some money.1 ∨
    s.savingsGLAccount? institutionId "Collector Cash Custody" = some money.1
  liability_mapped :
    s.savingsGLAccount? institutionId "Customer Deposits Liability" = some liability.1
  money_category : s.category? money.1 = some money.2.category
  liability_category : s.category? liability.1 = some liability.2.category

theorem SavingsPair.of_evolves {s s' : Db} {institutionId : Id} {money liability : Id × GLAccount}
    (hpair : SavingsPair s institutionId money liability) (h : s.Evolves s') :
    SavingsPair s' institutionId money liability := by
  constructor
  · rw [h.savingsGLAccount?, h.savingsGLAccount?]
    exact hpair.money_mapped
  · rw [h.savingsGLAccount?]
    exact hpair.liability_mapped
  · rw [h.chart]
    exact hpair.money_category
  · rw [h.chart]
    exact hpair.liability_category

/-- The two ledger accounts a repayment is posted to. -/
structure LoanPair (s : Db) (institutionId : Id) (money receivable : Id × GLAccount) : Prop where
  money_mapped : s.loanGLAccount? institutionId "Cash/Bank (Disbursement)" = some money.1 ∨
    s.loanGLAccount? institutionId "Collector Cash Custody" = some money.1
  receivable_mapped : s.loanGLAccount? institutionId "Loan Receivable" = some receivable.1
  money_category : s.category? money.1 = some money.2.category
  receivable_category : s.category? receivable.1 = some receivable.2.category

theorem LoanPair.of_evolves {s s' : Db} {institutionId : Id} {money receivable : Id × GLAccount}
    (hpair : LoanPair s institutionId money receivable) (h : s.Evolves s') :
    LoanPair s' institutionId money receivable := by
  constructor
  · rw [h.loanGLAccount?, h.loanGLAccount?]
    exact hpair.money_mapped
  · rw [h.loanGLAccount?]
    exact hpair.receivable_mapped
  · rw [h.chart]
    exact hpair.money_category
  · rw [h.chart]
    exact hpair.receivable_category

/-- The change some absolute writes were meant to make on an account. -/
def intended (os : List Overwrite) (a : Id) : Cents :=
  (os.map fun o => if o.accountId = a then o.change else 0).sum

/-- The kinds of statement that move money, with the amounts that come from
requests. -/
inductive BooksKind
  | deposited (x : ℚ)
  | withdrew (x : ℚ)
  | repaid (x : ℚ)
  | overwrote

/-- What one statement of an allowed kind can do to the books and to the rows its
process owes. -/
inductive BooksStep (allowed : BooksKind → Prop) (lab : Access) (s : Db) (d : Id → Cents) :
    Db → (Id → Cents) → Prop
  | quiet {s' : Db} (h : s.Agree books s') : BooksStep allowed lab s d s' d
  | deposited {s' : Db} {a : Id} {x : ℚ} {acct : SavingsAccount} {money liability : Id × GLAccount}
      {recordedById : Option Id} {now : DateTime} {posting : Option Posting}
      (hkind : allowed (.deposited x))
      (hlab : lab = { increments := [(a, x)], posting }) (hx : 0 < x)
      (hacct : s.find? .savingsAccount a = some acct)
      (hpair : SavingsPair s acct.institutionId money liability)
      (hs' : (s.move a x ⟨a, .deposit, ofNumber x, increment acct.balance x, recordedById, now⟩
        (doubleEntry money liability x)).Agree books s') : BooksStep allowed lab s d s' d
  | withdrew {s' : Db} {a : Id} {x : ℚ} {acct : SavingsAccount} {money liability : Id × GLAccount}
      {recordedById : Option Id} {now : DateTime} {posting : Option Posting}
      (hkind : allowed (.withdrew x))
      (hlab : lab = { increments := [(a, -x)], posting }) (hx : 0 < x)
      (hacct : s.find? .savingsAccount a = some acct) (hfunds : x ≤ toNumber acct.balance)
      (hpair : SavingsPair s acct.institutionId money liability)
      (hs' : (s.move a (-x)
        ⟨a, .withdrawal, ofNumber x, increment acct.balance (-x), recordedById, now⟩
        (doubleEntry liability money x)).Agree books s') : BooksStep allowed lab s d s' d
  | repaid {s' : Db} {loanId institutionId recordedById : Id} {x : ℚ}
      {money receivable : Id × GLAccount} {posting : Option Posting}
      (hkind : allowed (.repaid x))
      (hlab : lab = { loanMove := some (loanId, .repay x), posting }) (hx : 0 < x)
      (hpair : LoanPair s institutionId money receivable)
      (hs' : ((s.repay loanId x recordedById).applyEffects
        (doubleEntry money receivable x)).Agree books s') : BooksStep allowed lab s d s' d
  | overwrote {s' : Db} {d' : Id → Cents} {os : List Overwrite} {rows : List SavingsTransaction}
      {repayments : List LoanRepayment} {executes : Option (ScheduledItem × DateTime)}
      {interest : Option InterestMove} {collection : Option CollectionMove}
      (hkind : allowed .overwrote)
      (hlab : lab =
        { overwrites := os, unallocated := repayments.map fun r => (r.loanId, r.amount), executes,
          interest, collection })
      (hfound : ∀ o ∈ os, (s.find? .savingsAccount o.accountId).isSome)
      (hs' : (((s.overwrite os).insertAll .savingsTransaction rows).insertAll .loanRepayment
        repayments).Agree books s')
      (hd : ∀ a, d' a + intended os a = d a + signedSum rows a) : BooksStep allowed lab s d s' d'

/-- The protocol of operations that move money in allowed ways. -/
def booksProtocol (allowed : BooksKind → Prop) : Protocol Access Db (Id → Cents) where
  rely := Db.Evolves
  guar := BooksStep allowed
  refl := Db.Evolves.refl
  trans := Db.Evolves.trans

theorem booksProtocol_watches (allowed : BooksKind → Prop) :
    (booksProtocol allowed).Watches books :=
  fun _ _ _ _ h => ⟨Db.Evolves.of_agree h, .quiet h⟩

/-- An operation that follows the protocol and owes nothing at its end. -/
def KeepsBooks {α : Type} (allowed : BooksKind → Prop) (p : Handler α) : Prop :=
  ∀ s, p.Follows (booksProtocol allowed) (fun _ d _ => d = 0) s 0

end NexusEfos
