/-
The risk-weighted assets of the capital snapshot.

The snapshot weights every loan by what is outstanding on it and every asset account by its
balance.  The loan book is among the asset accounts: a disbursement debits the account that is
mapped as "Loan Receivable" with the principal.  So the snapshot's total is too large by the
weighted balance of that account.
-/
import NexusEfos.Ledger.CapitalAdequacy
import NexusEfos.Loans.Disbursements

namespace NexusEfos

/-! ## What is to be weighted -/

namespace Db

/-- The outstanding loans of an institution, as the snapshot reads them. -/
def snapshotLoans (s : Db) (institutionId : Id) : List SnapshotLoan :=
  (s.table .loan).entries.filterMap fun l =>
    if l.2.institutionId = institutionId ∧
        l.2.status ∈ [LoanStatus.disbursed, .active, .defaulted] then
      (s.find? .customer l.2.customerId).map fun c =>
        { principal := l.2.principal, daysInArrears := l.2.daysInArrears,
          customerSegment := c.profile.segment,
          principalPaid := ((s.table .loanInstallment).values.filter fun i =>
            i.loanId = l.1).map LoanInstallment.principalPaid : SnapshotLoan }
    else none

/-- The asset accounts of an institution. -/
def assetAccounts (s : Db) (institutionId : Id) : List (Id × GLAccount) :=
  (s.table .gLAccount).entries.filter fun a =>
    a.2.institutionId = institutionId ∧ a.2.category = .asset

/-- The account that is mapped as "Loan Receivable". -/
def loanReceivable (s : Db) (institutionId : Id) : Option Id :=
  accountIdByPurpose ((s.table .loanGLAccountMapping).entries.filter fun m =>
    m.2.institutionId = institutionId) "Loan Receivable"

/-- The outstanding loans, each with its risk weight. -/
def loanRWA (s : Db) (institutionId : Id) : ℚ :=
  ((s.snapshotLoans institutionId).map fun l =>
    l.outstanding *
      (loanRiskWeightPercent l.outstanding l.daysInArrears l.customerSegment / 100)).sum

/-- The asset accounts other than the loan receivable, each with its weight. -/
def nonLoanRWA (s : Db) (institutionId : Id) : ℚ :=
  (((s.assetAccounts institutionId).filter fun a =>
    s.loanReceivable institutionId ≠ some a.1).map fun a => a.2.weighted).sum

/-- The loan receivable with its weight, if it is an asset account. -/
def receivableRWA (s : Db) (institutionId : Id) : ℚ :=
  (((s.assetAccounts institutionId).filter fun a =>
    s.loanReceivable institutionId = some a.1).map fun a => a.2.weighted).sum

end Db

/-! ## The sums of the snapshot -/

theorem LoanTotals.loanRWA_foldl (t : LoanTotals) (loans : List SnapshotLoan) :
    (loans.foldl LoanTotals.add t).loanRWA =
      t.loanRWA + (loans.map fun l => l.outstanding *
        (loanRiskWeightPercent l.outstanding l.daysInArrears l.customerSegment / 100)).sum := by
  induction loans generalizing t with
  | nil => simp
  | cons l loans ih =>
    have hadd : (t.add l).loanRWA = t.loanRWA + l.outstanding *
      (loanRiskWeightPercent l.outstanding l.daysInArrears l.customerSegment / 100) := rfl
    rw [List.foldl_cons, ih, hadd, List.map_cons, List.sum_cons, add_assoc]

theorem Db.nonLoanRWA_add_receivableRWA (s : Db) (institutionId : Id) :
    s.nonLoanRWA institutionId + s.receivableRWA institutionId =
      ((s.assetAccounts institutionId).map fun a => a.2.weighted).sum := by
  rw [nonLoanRWA, receivableRWA, OrderedMap.sum_map_filter, OrderedMap.sum_map_filter,
    ← List.sum_map_add]
  congr 1
  apply List.map_congr_left
  intro a _
  by_cases h : s.loanReceivable institutionId = some a.1 <;> simp [h]

/-- The snapshot's total counts the loan receivable on top of the loans. -/
theorem run_computeSnapshot_totalRWA (s : Db) (institutionId : Id) :
    ∃ snapshot, (computeSnapshot institutionId).run s = (.ok snapshot, s) ∧
      snapshot.totalRWA = round2 (s.loanRWA institutionId +
        (s.nonLoanRWA institutionId + s.receivableRWA institutionId)) := by
  refine ⟨_, rfl, ?_⟩
  have hloans := LoanTotals.loanRWA_foldl {} (s.snapshotLoans institutionId)
  rw [zero_add] at hloans
  rw [Db.nonLoanRWA_add_receivableRWA, Db.loanRWA, ← hloans]
  rfl

/-- When two numbers are rounded to the same cent. -/
theorem round2_eq_round2_iff (x y : ℚ) :
    round2 x = round2 y ↔ round2 y - 1 / 200 ≤ x ∧ x < round2 y + 1 / 200 := by
  have hcancel : ∀ a b : ℤ, (a : ℚ) / 100 = b / 100 ↔ a = b := by
    intro a b
    rw [div_left_inj' (by norm_num), Int.cast_inj]
  rw [round2, round2, hcancel, round_eq_iff]
  constructor
  · rintro ⟨h₁, h₂⟩
    constructor <;> linarith
  · rintro ⟨h₁, h₂⟩
    constructor <;> linarith

/-- The snapshot weights each exposure once, to the cent, exactly when the weighted balance of
the loan receivable is too small to carry the sum over to another cent. -/
theorem totalRWA_eq_iff (s : Db) (institutionId : Id) :
    ∃ snapshot, (computeSnapshot institutionId).run s = (.ok snapshot, s) ∧
      (snapshot.totalRWA = round2 (s.loanRWA institutionId + s.nonLoanRWA institutionId) ↔
        round2 (s.loanRWA institutionId + s.nonLoanRWA institutionId) - 1 / 200 ≤
            s.loanRWA institutionId + s.nonLoanRWA institutionId +
              s.receivableRWA institutionId ∧
          s.loanRWA institutionId + s.nonLoanRWA institutionId + s.receivableRWA institutionId <
            round2 (s.loanRWA institutionId + s.nonLoanRWA institutionId) + 1 / 200) := by
  obtain ⟨snapshot, hrun, htotal⟩ := run_computeSnapshot_totalRWA s institutionId
  refine ⟨snapshot, hrun, ?_⟩
  rw [htotal, ← add_assoc]
  exact round2_eq_round2_iff _ _

/-- An institution with money and one approved loan. -/
def creditLedger : Db :=
  ((lendingLedger.modify .gLAccount 1 fun a => { a with balance := 50000 }).insert .customer
    { institutionId := 1, status := .active }).insert .loan approvedLoan

/-- The institution after the loan has been paid out. -/
def paidOutLedger : Db :=
  ((disburseLoan plainJs ⟨1, 2⟩ 1 1 (some 1)).run creditLedger).2

/-- One loan that was paid out is weighted twice. -/
theorem totalRWA_fails :
    ¬ ∀ (s : Db) (institutionId : Id) snapshot,
      ((computeSnapshot institutionId).run s).1 = .ok snapshot →
        snapshot.totalRWA =
          round2 (s.loanRWA institutionId + s.nonLoanRWA institutionId) := by
  intro h
  have htwice := h paidOutLedger 1 _ rfl
  revert htwice
  decide +kernel

end NexusEfos
