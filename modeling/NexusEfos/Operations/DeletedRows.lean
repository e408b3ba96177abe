/-
What the operations on savings accounts and loans do to rows that are deleted.

An operation is judged by the rows that are deleted when it starts.  It leaves them as they are,
and moves no money for them, if none of the accounts and loans it then finds is among them: the
ones it has been called with, or has selected with its first query.
-/
import NexusEfos.Library.Starts
import NexusEfos.Loans.Arrears
import NexusEfos.Loans.Disbursements
import NexusEfos.Loans.Payments
import NexusEfos.Savings.Movements
import NexusEfos.Savings.PaidInterest

namespace NexusEfos

open Proc

/-! ## Rows that stay -/

/-- The rows with `P` of one state that another state still has, a third state has too. -/
def Db.Fixes (m : Model) (P : Row m → Prop) (s u v : Db) : Prop :=
  ∀ id row, s.find? m id = some row → P row → u.find? m id = some row → v.find? m id = some row

namespace Db.Fixes

variable {m : Model} {P : Row m → Prop} {s u v w : Db}

theorem trans (h : s.Fixes m P u v) (h' : s.Fixes m P v w) : s.Fixes m P u w :=
  fun id row hrow hP hu => h' id row hrow hP (h id row hrow hP hu)

theorem of_table_eq (h : v.table m = u.table m) : s.Fixes m P u v := by
  intro id row _ _ hu
  rw [Db.find?, h]
  exact hu

theorem of_keepsRows (h : u.KeepsRows m Eq v) : s.Fixes m P u v := by
  intro id row _ _ hu
  obtain ⟨row', hv, rfl⟩ := h id row hu
  exact hv

theorem insert (s u : Db) (new : Row m) : s.Fixes m P u (u.insert m new) :=
  of_keepsRows (.insert (fun _ => rfl) u new)

/-- The row that is written is not one of those. -/
theorem modify {id : Id} (hid : ∀ row, s.find? m id = some row → u.find? m id = some row → ¬ P row)
    (f : Row m → Row m) : s.Fixes m P u (u.modify m id f) := by
  intro id' row hrow hP hu
  rw [Db.find?_modify]
  by_cases heq : id' = id
  · subst heq
    exact absurd hP (hid row hrow hu)
  · rw [if_neg heq]
    exact hu

end Db.Fixes

/-! ## Deleted accounts and loans -/

/-- The savings account is there and deleted. -/
def Db.AccountDeleted (s : Db) (accountId : Id) : Prop :=
  ∃ a ∈ s.find? .savingsAccount accountId, a.deletedAt.isSome = true

/-- The loan is there and deleted, or one of its installments is. -/
def Db.LoanDeleted (s : Db) (loanId : Id) : Prop :=
  (∃ l ∈ s.find? .loan loanId, l.deletedAt.isSome = true) ∨
    ∃ e ∈ (s.table .loanInstallment).entries, e.2.loanId = loanId ∧ e.2.deletedAt.isSome = true

instance (s : Db) (accountId : Id) : Decidable (s.AccountDeleted accountId) :=
  inferInstanceAs (Decidable (∃ a ∈ _, _))

instance (s : Db) (loanId : Id) : Decidable (s.LoanDeleted loanId) :=
  inferInstanceAs (Decidable ((∃ l ∈ _, _) ∨ ∃ e ∈ _, _))

/-- The savings accounts, loans and installments that are deleted in one state, and that another
state still has as they were, a third state has too. -/
structure Db.KeepsDeleted (s u v : Db) : Prop where
  accounts : s.Fixes .savingsAccount (fun a => a.deletedAt.isSome = true) u v
  loans : s.Fixes .loan (fun l => l.deletedAt.isSome = true) u v
  installments : s.Fixes .loanInstallment (fun i => i.deletedAt.isSome = true) u v

/-- The tables of accounts and loans. -/
def portfolioTables : List Model := [.savingsAccount, .loan, .loanInstallment]

namespace Db.KeepsDeleted

variable {s u v w : Db} {m : Model}

theorem of_agree (h : u.Agree portfolioTables v) : s.KeepsDeleted u v where
  accounts := .of_table_eq (h _ (by decide))
  loans := .of_table_eq (h _ (by decide))
  installments := .of_table_eq (h _ (by decide))

theorem refl (s u : Db) : s.KeepsDeleted u u := of_agree (.refl u)

theorem trans (h : s.KeepsDeleted u v) (h' : s.KeepsDeleted v w) : s.KeepsDeleted u w where
  accounts := h.accounts.trans h'.accounts
  loans := h.loans.trans h'.loans
  installments := h.installments.trans h'.installments

/-- What other tables have is not looked at. -/
theorem permits {ms : List Model} (hms : ∀ m ∈ ms, m ∉ portfolioTables) :
    Permits s.KeepsDeleted ms where
  refl := refl s
  trans := trans
  insert := fun _ hm u row => of_agree (.insert (hms _ hm) u row)
  modify := fun _ hm u id f => of_agree (.modify (hms _ hm) u id f)
  modifyAll := fun _ hm u f => of_agree (.modifyAll (hms _ hm) u f)

theorem modifyAccount {a : Id} (ha : ¬ s.AccountDeleted a) (u : Db)
    (f : SavingsAccount → SavingsAccount) : s.KeepsDeleted u (u.modify .savingsAccount a f) := by
  have hothers : u.Agree [.loan, .loanInstallment] (u.modify .savingsAccount a f) :=
    .modify (m := .savingsAccount) (by decide) u a f
  constructor
  · exact .modify (fun row hrow _ hdeleted => ha ⟨row, hrow, hdeleted⟩) f
  · exact .of_table_eq (hothers _ (by decide))
  · exact .of_table_eq (hothers _ (by decide))

theorem modifyLoan {l : Id} (hl : ¬ s.LoanDeleted l) (u : Db) (f : Loan → Loan) :
    s.KeepsDeleted u (u.modify .loan l f) := by
  have hothers : u.Agree [.savingsAccount, .loanInstallment] (u.modify .loan l f) :=
    .modify (m := .loan) (by decide) u l f
  constructor
  · exact .of_table_eq (hothers _ (by decide))
  · exact .modify (fun row hrow _ hdeleted => hl (.inl ⟨row, hrow, hdeleted⟩)) f
  · exact .of_table_eq (hothers _ (by decide))

theorem insertInstallment (s u : Db) (i : LoanInstallment) :
    s.KeepsDeleted u (u.insert .loanInstallment i) := by
  have hothers : u.Agree [.savingsAccount, .loan] (u.insert .loanInstallment i) :=
    .insert (m := .loanInstallment) (by decide) u i
  constructor
  · exact .of_table_eq (hothers _ (by decide))
  · exact .of_table_eq (hothers _ (by decide))
  · exact Fixes.insert (m := .loanInstallment) s u i

theorem insertInstallments (s u : Db) (is : List LoanInstallment) :
    s.KeepsDeleted u (u.insertAll .loanInstallment is) := by
  induction is generalizing u with
  | nil => exact refl s u
  | cons i is ih => exact (insertInstallment s u i).trans (ih _)

/-- The installments of the loan are written, and only these. -/
theorem allocate {l : Id} (hl : ¬ s.LoanDeleted l) (u : Db) (x : ℚ) (recordedById : Id) :
    s.KeepsDeleted u (u.repay l x recordedById) := by
  have hothers : u.Agree [.savingsAccount, .loan] (u.repay l x recordedById) :=
    .repay (by decide) (by decide) u l x recordedById
  constructor
  · exact .of_table_eq (hothers _ (by decide))
  · exact .of_table_eq (hothers _ (by decide))
  · intro id row hrow hdeleted hu
    have hother : row.loanId ≠ l := by
      intro heq
      exact hl (.inr ⟨(id, row), OrderedMap.get?_eq_some.mp hrow, heq, hdeleted⟩)
    have hnot : ∀ e ∈ allocateRepayment ((u.installmentsOf l).map installmentState) x,
        e.id ≠ id := by
      intro e he heq
      obtain ⟨st, hst, hid⟩ := mem_allocateRepayment he
      obtain ⟨i, hi, rfl⟩ := List.mem_map.mp hst
      obtain ⟨hfind, hloan⟩ := mem_installmentsOf.mp hi
      have hsame : i.1 = id := hid.trans heq
      rw [hsame, hu] at hfind
      rw [← Option.some.inj hfind] at hloan
      exact hother hloan
    have hfold : ∀ (us : List AllocationUpdate) (t : Db), (∀ e ∈ us, e.id ≠ id) →
        (us.foldl (fun s e => s.modify .loanInstallment e.id e.apply) t).find? .loanInstallment id =
          t.find? .loanInstallment id := by
      intro us
      induction us with
      | nil =>
        intro t _
        rfl
      | cons e us ih =>
        intro t hus
        rw [List.foldl_cons, ih _ fun e' he' => hus e' (List.mem_cons_of_mem e he'),
          Db.find?_modify, if_neg (hus e (List.mem_cons_self ..)).symm]
    rw [repay, hfold _ _ hnot, find?_insert_of_ne (by decide)]
    exact hu

theorem repayLoan {l : Id} (hl : ¬ s.LoanDeleted l) (u : Db) (x : ℚ) (recordedById : Id) :
    s.KeepsDeleted u (u.repayLoan l x recordedById) :=
  (allocate hl u x recordedById).trans (modifyLoan hl _ _)

end Db.KeepsDeleted

/-! ## Statements -/

/-- The statement changes neither the general ledger nor its journals, or names the accounts and
loans it moves money for, and these are not deleted. -/
def Db.MoneyElsewhere (s : Db) (lab : Access) (u v : Db) : Prop :=
  u.Agree [.gLAccount, .journal] v ∨ (lab.increments ≠ [] ∨ lab.loanMove.isSome = true) ∧
    (∀ e ∈ lab.increments, ¬ s.AccountDeleted e.1) ∧ ∀ move ∈ lab.loanMove, ¬ s.LoanDeleted move.1

/-- What a statement does to the rows that are deleted in a state: nothing. -/
def LeavesDeleted (s : Db) (lab : Access) (u v : Db) : Prop :=
  s.KeepsDeleted u v ∧ s.MoneyElsewhere lab u v

namespace LeavesDeleted

variable {α : Type} {s : Db} {lab : Access} {p : Handler α}

/-- The tables that matter. -/
def tables : List Model := [.savingsAccount, .loan, .loanInstallment, .gLAccount, .journal]

theorem of_agree {u v : Db} (h : u.Agree tables v) : LeavesDeleted s lab u v :=
  ⟨.of_agree (h.mono (by decide)), .inl (h.mono (by decide))⟩

theorem read (s : Db) (lab : Access) (u : Db) : LeavesDeleted s lab u u := of_agree (.refl u)

theorem of_quiet (h : Quiet tables p) : p.EveryStep (LeavesDeleted s) :=
  .of_every (fun _ _ _ => of_agree) h

theorem of_writes {ms : List Model} (h : Writes ms p) (hms : ∀ m ∈ ms, m ∉ tables) :
    p.EveryStep (LeavesDeleted s) := of_quiet (h.quiet hms)

/-- A transaction that posts nothing. -/
theorem unposted (hrows : p.Every s.KeepsDeleted) (hledger : Quiet [.gLAccount, .journal] p) :
    (Proc.transaction lab p).EveryStep (LeavesDeleted s) := by
  apply Proc.EveryStep.transaction
  · exact read s lab
  · intro u a v hrun
    have hkept := hrows.run (.refl s) .trans u
    have hagree := Proc.Every.run .refl .trans hledger u
    rw [hrun] at hkept hagree
    exact ⟨hkept, .inl hagree⟩

/-- A transaction that moves money on an account. -/
theorem increments {a : Id} (ha : ¬ s.AccountDeleted a) {x : ℚ} {posting : Option Posting}
    (hrows : p.Every s.KeepsDeleted) :
    (Proc.transaction { increments := [(a, x)], posting } p).EveryStep (LeavesDeleted s) := by
  apply Proc.EveryStep.transaction
  · exact read s _
  · intro u r v hrun
    have hkept := hrows.run (.refl s) .trans u
    rw [hrun] at hkept
    refine ⟨hkept, .inr ⟨.inl (List.cons_ne_nil _ _), ?_, fun move hmove => ?_⟩⟩
    · intro e he
      rw [List.mem_singleton.mp he]
      exact ha
    · exact absurd hmove (Option.not_mem_none _)

/-- A statement that moves money on a loan. -/
theorem of_loanMove {l : Id} (hl : ¬ s.LoanDeleted l) (hlab : lab.increments = [])
    {move : LoanMove} (hmove : lab.loanMove = some (l, move)) {u v : Db}
    (hrows : s.KeepsDeleted u v) : LeavesDeleted s lab u v := by
  refine ⟨hrows, .inr ⟨.inr (by rw [hmove]; rfl), ?_, fun m hm => ?_⟩⟩
  · intro e he
    rw [hlab] at he
    exact absurd he List.not_mem_nil
  · rw [hmove] at hm
    rw [← Option.some.inj hm]
    exact hl

/-- A transaction that moves money on a loan. -/
theorem movesLoan {l : Id} (hl : ¬ s.LoanDeleted l) (hlab : lab.increments = [])
    {move : LoanMove} (hmove : lab.loanMove = some (l, move))
    (hrows : ∀ u r v, p.run u = (.ok r, v) → s.KeepsDeleted u v) :
    (Proc.transaction lab p).EveryStep (LeavesDeleted s) := by
  apply Proc.EveryStep.transaction
  · exact read s lab
  · exact fun u r v hrun => of_loanMove hl hlab hmove (hrows u r v hrun)

end LeavesDeleted

section Rows

variable {s : Db} {a l : Id}

theorem every_updateAccount (ha : ¬ s.AccountDeleted a) (f : SavingsAccount → SavingsAccount) :
    (update .savingsAccount a f).Every s.KeepsDeleted := by
  refine ⟨fun u => ?_, fun _ => trivial⟩
  cases hrow : u.find? .savingsAccount a with
  | some row => simpa only [hrow] using Db.KeepsDeleted.modifyAccount ha u f
  | none => simpa only [hrow] using Db.KeepsDeleted.refl s u

theorem every_updateGuardedAccount (ha : ¬ s.AccountDeleted a) (p : SavingsAccount → Bool)
    (f : SavingsAccount → SavingsAccount) :
    (updateGuarded .savingsAccount a p f).Every s.KeepsDeleted := by
  refine ⟨fun u => ?_, fun _ => trivial⟩
  cases hrow : u.find? .savingsAccount a with
  | some row =>
    simp only [hrow]
    split
    · exact Db.KeepsDeleted.modifyAccount ha u f
    · exact Db.KeepsDeleted.refl s u
  | none => simpa only [hrow] using Db.KeepsDeleted.refl s u

/-- The update of a loan, outside the general ledger. -/
theorem updateLoan_leavesDeleted (hl : ¬ s.LoanDeleted l) (lab : Access) (f : Loan → Loan) :
    (updateAs lab .loan l f).EveryStep (LeavesDeleted s) := by
  refine ⟨fun u => ?_, fun _ => trivial⟩
  cases hrow : u.find? .loan l with
  | some row =>
    simp only [hrow]
    refine ⟨.modifyLoan hl u f, .inl ?_⟩
    exact Db.Agree.modify (m := .loan) (by decide) u l f
  | none =>
    simp only [hrow]
    exact .read s lab u

theorem updateAccount_leavesDeleted (ha : ¬ s.AccountDeleted a)
    (f : SavingsAccount → SavingsAccount) :
    (update .savingsAccount a f).EveryStep (LeavesDeleted s) := by
  refine ⟨fun u => ?_, fun _ => trivial⟩
  cases hrow : u.find? .savingsAccount a with
  | some row =>
    simp only [hrow]
    refine ⟨.modifyAccount ha u f, .inl ?_⟩
    exact Db.Agree.modify (m := .savingsAccount) (by decide) u a f
  | none =>
    simp only [hrow]
    exact .read s {} u

/-- Writes to other tables. -/
theorem every_others {α : Type} {ms : List Model} {p : Handler α} (hp : Writes ms p)
    (hms : ∀ m ∈ ms, m ∉ portfolioTables) : p.Every s.KeepsDeleted :=
  hp.every _ (Db.KeepsDeleted.permits hms)

end Rows

/-! ## Transactions -/

section Transactions

variable {s : Db} {auth : Auth} {now : DateTime}

theorem every_setBalanceInTx {a : Id} (ha : ¬ s.AccountDeleted a) (type : SavingsTxnType) (x y : ℚ)
    (recordedById : Option Id) :
    (setBalanceInTx now a type x y recordedById).Every s.KeepsDeleted := by
  apply (every_updateAccount ha _).bind
  intro _
  exact (every_others (Writes.create (List.mem_singleton_self _) _) (by decide)).bind
    fun _ => trivial

/-- The record of a movement, and its journal. -/
theorem every_recordMovement (acct : SavingsAccount) (row : SavingsTransaction)
    (description : String) (lines : List JournalLineInput) :
    (do
      let t ← create .savingsTransaction row
      let _ ← postJournal auth now description lines
      return (acct, t) : Handler (SavingsAccount × Id)).Every s.KeepsDeleted := by
  have hwrites : Writes [.savingsTransaction, .journal, .gLAccount] (do
      let t ← create .savingsTransaction row
      let _ ← postJournal auth now description lines
      return (acct, t)) := by
    refine (Writes.create (by decide) _).bind fun t => ?_
    exact (Writes.postJournal (by decide) (by decide) _ _ _ _).bind fun _ => .pure _
  exact every_others hwrites (by decide)

theorem every_depositInTx {a : Id} (ha : ¬ s.AccountDeleted a) (x : ℚ) (description : String)
    (lines : List JournalLineInput) :
    (depositInTx auth now a x description lines).Every s.KeepsDeleted :=
  (every_updateAccount ha _).bind fun acct => every_recordMovement acct _ description lines

theorem every_withdrawInTx {a : Id} (ha : ¬ s.AccountDeleted a) (x : ℚ) (description : String)
    (lines : List JournalLineInput) :
    (withdrawInTx auth now a x description lines).Every s.KeepsDeleted := by
  apply (every_updateGuardedAccount ha _ _).bind
  intro updated
  apply (Proc.Every.require _ _).bind
  intro _
  have hread : Writes [] (findUniqueOrThrow .savingsAccount a) := .findUniqueOrThrow _ _
  apply (every_others hread (by decide)).bind
  intro acct
  exact every_recordMovement acct _ description lines

theorem repayInTx_keepsDeleted {l : Id} (hl : ¬ s.LoanDeleted l) {x : ℚ} {description : String}
    {lines : List JournalLineInput} {u v : Db} {r : Id × Bool}
    (h : (repayInTx auth now l x description lines).run u = (.ok r, v)) : s.KeepsDeleted u v := by
  obtain ⟨loan, -, -, -, rfl⟩ := run_repayInTx_eq h
  have hposted : (u.repayLoan l x auth.userId).Agree portfolioTables
      (((u.repayLoan l x auth.userId).insert .journal
        (automaticJournal auth now description lines)).applyEffects lines) := by
    apply Db.Agree.trans (Db.Agree.insert (m := .journal) (by decide) _ _)
    intro m hm
    have hne : m ≠ .gLAccount := by
      rintro rfl
      exact absurd hm (by decide)
    exact Db.table_applyEffects hne _ lines
  exact (Db.KeepsDeleted.repayLoan hl u x auth.userId).trans (.of_agree hposted)

theorem disburseInTx_keepsDeleted {d : Disbursement} (hl : ¬ s.LoanDeleted d.loanId) {u v : Db}
    {loan : Loan} (h : d.inTx.run u = (.ok loan, v)) : s.KeepsDeleted u v := by
  obtain ⟨-, -, -, -, rfl⟩ := d.run_inTx_eq_ok h
  have hpaid : u.Agree portfolioTables (d.post (d.pay u)) := .postPay (by decide) d u
  have hout : s.KeepsDeleted u (d.payOut u) :=
    (Db.KeepsDeleted.of_agree hpaid).trans (.insertInstallments s _ _)
  exact hout.trans (.modifyLoan hl _ _)

end Transactions

/-! ## Operations -/

namespace LeavesDeleted

variable {s : Db} {a l : Id}

theorem rest {α : Type} {p : Handler α} (hp : Writes [.auditLog] p) :
    p.EveryStep (LeavesDeleted s) := of_writes hp (by decide)

theorem deposit (ha : ¬ s.AccountDeleted a) (auth : Auth) (now : DateTime) (x : ℚ) :
    (deposit auth now a x).EveryStep (LeavesDeleted s) := by
  apply deposit_everyStep rest
  intro description lines
  exact increments ha (every_depositInTx ha x description lines)

theorem withdraw (ha : ¬ s.AccountDeleted a) (auth : Auth) (now : DateTime) (x : ℚ) :
    (withdraw auth now a x).EveryStep (LeavesDeleted s) := by
  apply withdraw_everyStep rest
  intro description lines
  exact increments ha (every_withdrawInTx ha x description lines)

theorem recordRepayment (hl : ¬ s.LoanDeleted l) (auth : Auth) (now : DateTime) (x : ℚ) :
    (recordRepayment auth now l x).EveryStep (LeavesDeleted s) := by
  apply recordRepayment_everyStep rest
  intro description lines
  exact movesLoan hl rfl rfl fun u r v => repayInTx_keepsDeleted hl

theorem recordCollection {body : RecordCollection}
    (ha : body.type = .savingsDeposit → ¬ s.AccountDeleted body.targetId)
    (hl : body.type = .loanRepayment → ¬ s.LoanDeleted body.targetId) (auth : Auth)
    (now : DateTime) : (recordCollection auth now body).EveryStep (LeavesDeleted s) := by
  apply recordCollection_moves rest
  · intro htype description lines
    exact increments (ha htype) (every_depositInTx (ha htype) body.amount description lines)
  · intro htype description lines
    exact movesLoan (hl htype) rfl rfl fun u r v => repayInTx_keepsDeleted (hl htype)
  · intro row
    have hcreate : Writes [.collectionTransaction]
        (createAs { collects := some (body.collectorId, now) } .collectionTransaction row) :=
      .createAs (by decide) _ row
    exact of_writes hcreate (by decide)

theorem setBalanceInTx (lab : Access) (ha : ¬ s.AccountDeleted a) (now : DateTime)
    (type : SavingsTxnType) (x y : ℚ) (recordedById : Option Id) :
    (Proc.transaction lab (setBalanceInTx now a type x y recordedById)).EveryStep
      (LeavesDeleted s) := by
  have hwrites : Writes [.savingsAccount, .savingsTransaction]
      (NexusEfos.setBalanceInTx now a type x y recordedById) :=
    writes_setBalanceInTx (fun _ hm => hm) a type x y recordedById
  exact unposted (every_setBalanceInTx ha type x y recordedById) (hwrites.quiet (by decide))

theorem chargeFee (ha : ¬ s.AccountDeleted a) (auth : Auth) (now : DateTime) (feeTypeId : Id) :
    (chargeFee auth now a feeTypeId).EveryStep (LeavesDeleted s) := by
  refine (rest (.query _)).bind fun found => (EveryStep.orFail _ _).bind fun account => ?_
  refine (rest (.query _)).bind fun foundType => (EveryStep.orFail _ _).bind fun feeType => ?_
  have hcharge : ∀ lab x y, (Proc.transaction lab (chargeFeeInTx auth a feeTypeId x y)).EveryStep
      (LeavesDeleted s) := by
    intro lab x y
    have hrow : ∀ row, Writes [.savingsFeeCharge] (create .savingsFeeCharge row) := fun row =>
      .create (List.mem_singleton_self _) row
    have hledger : Quiet [.gLAccount, .journal] (chargeFeeInTx auth a feeTypeId x y) :=
      (Quiet.update (by decide) _ _).bind fun _ => (hrow _).quiet (by decide)
    have hrows : (chargeFeeInTx auth a feeTypeId x y).Every s.KeepsDeleted :=
      (every_updateAccount ha _).bind fun _ => every_others (hrow _) (by decide)
    exact unposted hrows hledger
  have hrecord : ∀ (row : SavingsTransaction) (entry : AuditLog) (charge : Id),
      Writes [.savingsTransaction, .auditLog] (do
        let _ ← create .savingsTransaction row
        let _ ← create .auditLog entry
        return charge) := by
    intro row entry charge
    exact (Writes.create (by decide) _).bind fun _ => writes_log (by decide) entry charge
  exact (hcharge _ _ _).bind fun charge => of_writes (hrecord _ _ charge) (by decide)

/-- The waiver of a fee writes to the account of the charge that it has found. -/
theorem waiveFee (auth : Auth) (now : DateTime) (chargeId : Id) (reason : Option String) :
    (waiveFee auth now chargeId reason).Starts
      (fun s => ∀ charge ∈ s.find? .savingsFeeCharge chargeId, ¬ s.AccountDeleted charge.accountId)
      LeavesDeleted := by
  refine Starts.exec_bind (fun s _ => .read s {} s) fun s hs => ?_
  refine EveryStep.orFail_bind fun charge hcharge => ?_
  have ha := hs charge (Option.eq_some_of_filter_eq_some hcharge)
  refine (EveryStep.require _ _).bind fun _ => (rest (.query _)).bind fun account => ?_
  have hend : ∀ data entry, (do
      let updated ← update .savingsFeeCharge chargeId data
      let _ ← create .auditLog entry
      return updated).EveryStep (LeavesDeleted s) := by
    intro data entry
    have hwrites : Writes [.savingsFeeCharge, .auditLog] (do
        let updated ← update .savingsFeeCharge chargeId data
        let _ ← create .auditLog entry
        return updated) :=
      (Writes.update (by decide) _ _).bind fun updated => writes_log (by decide) _ _
    exact of_writes hwrites (by decide)
  cases account with
  | some account => exact (setBalanceInTx _ ha now _ _ _ _).bind fun _ => hend _ _
  | none => exact hend _ _

/-! ### Standing instructions -/

theorem recordExecution (siId : Id) (si : StandingInstruction) :
    (recordExecution siId si).EveryStep (LeavesDeleted s) := by
  have hwrites : Writes [.standingInstruction, .standingInstructionExecution]
      (NexusEfos.recordExecution siId si) := by
    refine (Writes.createAs (by decide) _ _).bind fun _ => ?_
    exact (Writes.updateAs (by decide) _ _ _).bind fun _ => .pure _
  exact of_writes hwrites (by decide)

theorem failInsufficient (siId : Id) (si : StandingInstruction) (failureReason : String) :
    (failInsufficient siId si failureReason).EveryStep (LeavesDeleted s) := by
  have hwrites : Writes [.standingInstruction, .standingInstructionExecution]
      (NexusEfos.failInsufficient siId si failureReason) := by
    refine (Writes.updateAs (by decide) _ _ _).bind fun _ => ?_
    exact (Writes.createAs (by decide) _ _).bind fun _ => .pure _
  exact of_writes hwrites (by decide)

theorem transferInTx {lab : Access} {sourceId destId : Id} (hsource : ¬ s.AccountDeleted sourceId)
    (hdest : ¬ s.AccountDeleted destId) (now : DateTime) (si : StandingInstruction) (x y : ℚ) :
    (Proc.transaction lab (transferInTx now si sourceId destId x y)).EveryStep
      (LeavesDeleted s) := by
  have hrecord : ∀ row row' : SavingsTransaction, Writes [.savingsTransaction] (do
      let _ ← create .savingsTransaction row
      let _ ← create .savingsTransaction row') := fun row row' =>
    (Writes.create (by decide) _).bind fun _ => (Writes.create (by decide) _).bind fun _ => .pure _
  have hrows : (NexusEfos.transferInTx now si sourceId destId x y).Every s.KeepsDeleted :=
    (every_updateAccount hsource _).bind fun _ => (every_updateAccount hdest _).bind fun _ =>
      every_others (hrecord _ _) (by decide)
  have hledger : Quiet [.gLAccount, .journal] (NexusEfos.transferInTx now si sourceId destId x y) :=
    (Quiet.update (by decide) _ _).bind fun _ => (Quiet.update (by decide) _ _).bind fun _ =>
      (hrecord _ _).quiet (by decide)
  exact unposted hrows hledger

theorem repayLoanInTx {lab : Access} {si : StandingInstruction}
    (hsource : ¬ s.AccountDeleted si.sourceAccountId) (now : DateTime) (loanId : Id) (x : ℚ) :
    (Proc.transaction lab (repayLoanInTx now si loanId x)).EveryStep (LeavesDeleted s) := by
  have hrecord : ∀ row : LoanRepayment, Writes [.loanRepayment] (do
      let _ ← create .loanRepayment row) := fun row =>
    (Writes.create (by decide) _).bind fun _ => .pure _
  have hmove : Writes [.savingsAccount, .savingsTransaction]
      (NexusEfos.setBalanceInTx now si.sourceAccountId .withdrawal (toNumber si.amount) x
        (some si.createdById)) := writes_setBalanceInTx (fun _ hm => hm) ..
  have hrows : (NexusEfos.repayLoanInTx now si loanId x).Every s.KeepsDeleted :=
    (every_setBalanceInTx hsource ..).bind fun _ => every_others (hrecord _) (by decide)
  have hledger : Quiet [.gLAccount, .journal] (NexusEfos.repayLoanInTx now si loanId x) :=
    (hmove.quiet (by decide)).bind fun _ => (hrecord _).quiet (by decide)
  exact unposted hrows hledger

theorem executeFrom {si : StandingInstruction} (hsource : ¬ s.AccountDeleted si.sourceAccountId)
    (hdest : ∀ destId ∈ si.destinationAccountId, ¬ s.AccountDeleted destId) (now : DateTime)
    (siId : Id) (source : SavingsAccount) :
    (executeFrom now siId si source).EveryStep (LeavesDeleted s) := by
  have hend := recordExecution (s := s) siId si
  unfold NexusEfos.executeFrom
  dsimp only
  split
  · next destId htype hid =>
    refine (rest (.query _)).bind fun dest => ?_
    cases dest with
    | none =>
      have hwrites : ∀ lab row, Writes [.standingInstructionExecution] (do
          let _ ← createAs lab .standingInstructionExecution row : Handler Unit) := fun lab row =>
        (Writes.createAs (by decide) _ _).bind fun _ => .pure _
      exact of_writes (hwrites _ _) (by decide)
    | some dest => exact (transferInTx hsource (hdest destId hid) now si _ _).bind fun _ => hend
  · exact (repayLoanInTx hsource now _ _).bind fun _ => hend
  · exact (setBalanceInTx _ hsource now _ _ _ _).bind fun _ => hend
  · exact hend

/-- A run of the instructions writes to the accounts of those that are due when it starts. -/
theorem runStandingInstructions (now : DateTime) :
    (runStandingInstructions now).Starts
      (fun s => ∀ si ∈ (s.table .standingInstruction).values, si.status = .active →
        si.nextExecutionDate ≤ now → ¬ s.AccountDeleted si.sourceAccountId ∧
          ∀ destId ∈ si.destinationAccountId, ¬ s.AccountDeleted destId) LeavesDeleted := by
  refine Starts.exec_bind (fun s _ => .read s {} s) fun s hs => ?_
  apply EveryStep.forEach
  intro si hsi
  obtain ⟨hmem, hdue⟩ := List.mem_filter.mp hsi
  have hdue' := of_decide_eq_true hdue
  obtain ⟨hsource, hdest⟩ :=
    hs si.2 (List.mem_map_of_mem (f := Prod.snd) hmem) hdue'.1 hdue'.2
  refine (rest (.query _)).bind fun source => ?_
  cases source with
  | none => exact failInsufficient _ _ _
  | some source =>
    dsimp only
    split
    · exact failInsufficient _ _ _
    · exact executeFrom hsource hdest now _ source

/-! ### Interest -/

theorem postInterestForAccount (ha : ¬ s.AccountDeleted a) (now : DateTime) (institutionId : Id)
    (postedById : Option Id) (batchId : Option String) :
    (postInterestForAccount now a institutionId postedById batchId).EveryStep
      (LeavesDeleted s) := by
  have hpost : ∀ lab first last ids x y, (Proc.transaction lab
      (postInterestInTx now a institutionId postedById batchId first last ids x y)).EveryStep
        (LeavesDeleted s) := by
    intro lab first last ids x y
    have hfirst : ∀ row, Writes [.savingsTransaction] (create .savingsTransaction row) :=
      fun _ => .create (by decide) _
    have hlast : ∀ posting : SavingsInterestPosting,
        Writes [.savingsInterestPosting, .savingsInterestAccrual] (do
          let postingId ← create .savingsInterestPosting posting
          let _ ← updateMany .savingsInterestAccrual (fun id _ => id ∈ ids) fun a =>
            { a with posted := true, postingId := some postingId }
          return (postingId, posting)) := fun _ =>
      (Writes.create (by decide) _).bind fun _ =>
        (Writes.updateMany (by decide) _ _).bind fun _ => .pure _
    apply unposted
    · apply (every_others (hfirst _) (by decide)).bind
      intro txn
      exact (every_updateAccount ha _).bind fun _ => every_others (hlast _) (by decide)
    · apply ((hfirst _).quiet (by decide)).bind
      intro txn
      exact (Quiet.update (by decide) _ _).bind fun _ => (hlast _).quiet (by decide)
  refine (rest (.query _)).bind fun unposted => ?_
  split
  · dsimp only
    split
    · exact rest (.pure _)
    · refine (rest (.findUniqueOrThrow _ _)).bind fun account => ?_
      exact (hpost _ _ _ _ _ _).bind fun _ => rest (.pure _)
  · exact rest (.pure _)

theorem postInterest (ha : ¬ s.AccountDeleted a) (auth : Auth) (now : DateTime) :
    (postInterest auth now a).EveryStep (LeavesDeleted s) := by
  apply (postInterestForAccount ha now _ _ none).bind
  intro found
  exact (EveryStep.orFail _ _).bind fun result =>
    rest (writes_log (List.mem_singleton_self _) _ _)

theorem postAllForInstitution (now : DateTime) (institutionId : Id) (postedById : Option Id)
    (batchId : Option String) :
    (postAllForInstitution now institutionId postedById batchId).Starts
      (fun s => ∀ a ∈ s.accountsWithUnposted institutionId, ¬ s.AccountDeleted a)
      LeavesDeleted := by
  refine Starts.exec_bind (fun s _ => .read s {} s) fun s hs => ?_
  have hloop := EveryStep.mapEach fun a ha =>
    postInterestForAccount (hs a ha) now institutionId postedById batchId
  exact hloop.bind fun _ => rest (.pure _)

theorem reverseInterest (auth : Auth) (now : DateTime) (postingId : Id) (reason : String) :
    (reverseInterest auth now postingId reason).Starts
      (fun s => ∀ posting ∈ s.find? .savingsInterestPosting postingId,
        ¬ s.AccountDeleted posting.accountId) LeavesDeleted := by
  refine Starts.require_bind fun _ => ?_
  refine Starts.exec_bind (fun s _ => .read s {} s) fun s hs => ?_
  refine EveryStep.orFail_bind fun posting hposting => ?_
  have ha := hs posting (Option.eq_some_of_filter_eq_some hposting)
  have hreverse : ∀ lab x, (Proc.transaction lab
      (reverseInterestInTx auth now postingId posting reason x)).EveryStep (LeavesDeleted s) := by
    intro lab x
    have hfirst : ∀ row, Writes [.savingsTransaction] (create .savingsTransaction row) :=
      fun _ => .create (by decide) _
    have hlast : ∀ data data', Writes [.savingsInterestPosting, .savingsInterestAccrual] (do
        let _ ← update .savingsInterestPosting postingId data
        let _ ← updateMany .savingsInterestAccrual (fun _ a => a.postingId = some postingId) data'
          : Handler Unit) := fun _ _ =>
      (Writes.update (by decide) _ _).bind fun _ =>
        (Writes.updateMany (by decide) _ _).bind fun _ => .pure _
    apply unposted
    · apply (every_others (hfirst _) (by decide)).bind
      intro txn
      exact (every_updateAccount ha _).bind fun _ => every_others (hlast _ _) (by decide)
    · apply ((hfirst _).quiet (by decide)).bind
      intro txn
      exact (Quiet.update (by decide) _ _).bind fun _ => (hlast _ _).quiet (by decide)
  refine (EveryStep.require _ _).bind fun _ => ?_
  refine (rest (.findUniqueOrThrow _ _)).bind fun account => ?_
  exact (hreverse _ _).bind fun _ => rest (writes_log (List.mem_singleton_self _) _ _)

/-! ### Collections -/

/-- The reversal of a collected deposit writes to the account of the collection. -/
theorem reverseCollection (auth : Auth) (now : DateTime) (collectionId : Id) (reason : String) :
    (reverseCollection auth now collectionId reason).Starts
      (fun s => ∀ c ∈ s.find? .collectionTransaction collectionId, c.type = .savingsDeposit →
        ¬ s.AccountDeleted c.targetId) LeavesDeleted := by
  refine Starts.require_bind fun _ => ?_
  refine Starts.exec_bind (fun s _ => .read s {} s) fun s hs => ?_
  refine EveryStep.orFail_bind fun collection hcollection => ?_
  have ha := hs collection (Option.eq_some_of_filter_eq_some hcollection)
  refine (EveryStep.require _ _).bind fun _ => ?_
  have hend : ∀ lab data entry, (do
      let updated ← updateAs lab .collectionTransaction collectionId data
      let _ ← create .auditLog entry
      return updated).EveryStep (LeavesDeleted s) := by
    intro lab data entry
    have hwrites : Writes [.collectionTransaction, .auditLog] (do
        let updated ← updateAs lab .collectionTransaction collectionId data
        let _ ← create .auditLog entry
        return updated) :=
      (Writes.updateAs (by decide) _ _ _).bind fun _ => writes_log (by decide) _ _
    exact of_writes hwrites (by decide)
  cases htype : collection.type with
  | loanRepayment => exact hend _ _ _
  | savingsDeposit =>
    refine (rest (.query _)).bind fun account => ?_
    cases account with
    | some account => exact (setBalanceInTx _ (ha htype) now _ _ _ _).bind fun _ => hend _ _ _
    | none => exact hend _ _ _

/-! ### Accruals -/

theorem upsertAccrual (new : SavingsInterestAccrual) :
    (upsertAccrual new).EveryStep (LeavesDeleted s) := by
  refine ⟨fun u => of_agree ?_, fun _ => trivial⟩
  dsimp only
  split
  · exact Db.Agree.modify (m := .savingsInterestAccrual) (by decide) _ _ _
  · exact Db.Agree.insert (m := .savingsInterestAccrual) (by decide) _ _

theorem runAccrualForAccount (ha : ¬ s.AccountDeleted a) (now : DateTime) (institutionId : Id)
    (throughDate : DateTime) :
    (runAccrualForAccount now a institutionId throughDate).EveryStep (LeavesDeleted s) := by
  apply runAccrualForAccount_everyStep (fun _ _ _ => of_agree)
  · exact fun new _ _ _ => upsertAccrual new
  · exact fun _ => updateAccount_leavesDeleted ha _

theorem accrueInterest (ha : ¬ s.AccountDeleted a) (auth : Auth) (now : DateTime)
    (date : Option DateTime) :
    (accrueInterest auth now a date).EveryStep (LeavesDeleted s) :=
  (runAccrualForAccount ha now _ _).bind fun _ => rest (writes_log (List.mem_singleton_self _) _ _)

/-- A run for a list of accounts that was read with the first statement. -/
theorem accrueAllInterest (auth : Auth) (now : DateTime) (date : Option DateTime) :
    (accrueAllInterest auth now date).Starts
      (fun s => ∀ e ∈ (s.table .savingsAccount).entries, e.2.institutionId = auth.institutionId →
        e.2.status = .active → e.2.interestSuspended = false → ¬ s.AccountDeleted e.1)
      LeavesDeleted := by
  refine Starts.exec_bind (fun s _ => .read s {} s) fun s hs => ?_
  refine EveryStep.bind (EveryStep.mapEach fun acc hacc => ?_) fun _ =>
    rest (writes_log (List.mem_singleton_self _) _ _)
  obtain ⟨hmem, hselected⟩ := List.mem_filter.mp hacc
  obtain ⟨hinstitution, hactive, hrunning⟩ := of_decide_eq_true hselected
  exact runAccrualForAccount (hs acc hmem hinstitution hactive hrunning) now _ _

theorem runSavingsInterestAccrual (now : DateTime) :
    (runSavingsInterestAccrual now).Starts
      (fun s => ∀ e ∈ (s.table .savingsAccount).entries, e.2.status = .active →
        e.2.interestSuspended = false → ¬ s.AccountDeleted e.1) LeavesDeleted := by
  refine Starts.exec_bind (fun s _ => .read s {} s) fun s hs => ?_
  refine EveryStep.bind (EveryStep.mapEach fun acc hacc => ?_) fun _ => rest (.pure _)
  obtain ⟨hmem, hselected⟩ := List.mem_filter.mp hacc
  obtain ⟨hactive, hrunning⟩ := of_decide_eq_true hselected
  exact runAccrualForAccount (hs acc hmem hactive hrunning) now _ _

/-! ### Loans -/

theorem executeMatchedRules (institutionId userId : Id) (targetType : String) (targetId : Id)
    (matched : List MatchedRule) :
    (executeMatchedRules institutionId userId targetType targetId matched).EveryStep
      (LeavesDeleted s) :=
  of_quiet (.executeMatchedRules (by decide) (by decide) _ _ _ _ _)

theorem approveLoan (hl : ¬ s.LoanDeleted l) (js : Js) (auth : Auth) (now : DateTime) :
    (approveLoan js auth now l).EveryStep (LeavesDeleted s) := by
  refine (rest (.query _)).bind fun found => (EveryStep.orFail _ _).bind fun loan => ?_
  refine (EveryStep.require _ _).bind fun _ => (rest (.query _)).bind fun customer => ?_
  refine (of_quiet (.matchRules _ _ _ _ _)).bind fun matched => ?_
  refine (of_quiet (.requireUnblocked _ _)).bind fun _ => ?_
  refine (updateLoan_leavesDeleted hl _ _).bind fun updated => ?_
  refine (rest (.create (List.mem_singleton_self _) _)).bind fun _ => ?_
  exact (executeMatchedRules ..).bind fun _ => rest (.pure _)

theorem disburseLoan (hl : ¬ s.LoanDeleted l) (js : Js) (auth : Auth) (now : DateTime)
    (vaultId : Option Id) :
    (disburseLoan js auth now l vaultId).EveryStep (LeavesDeleted s) := by
  apply disburseLoan_everyStep (by decide) (by decide) fun _ _ _ => of_agree
  rintro d rfl u loan v hrun
  exact of_loanMove hl rfl rfl (disburseInTx_keepsDeleted hl hrun)

/-- The run writes to the loans that are running when it starts. -/
theorem runArrearsCheck (today : DateTime) :
    (runArrearsCheck today).Starts (fun s => ∀ e ∈ s.runningLoans, ¬ s.LoanDeleted e.1.1)
      LeavesDeleted := by
  refine Starts.exec_bind (fun s _ => .read s {} s) fun s hs => ?_
  apply EveryStep.forEach
  intro loan hloan
  unfold updateArrears
  dsimp only
  split
  · exact (updateLoan_leavesDeleted (hs loan hloan) {} _).bind fun _ => rest (.pure _)
  · exact (updateLoan_leavesDeleted (hs loan hloan) {} _).bind fun _ => rest (.pure _)

end LeavesDeleted

end NexusEfos
