/-
One repayment, with all that it writes.

`Db.repay` is the repayment and its allocation to the installments.  What is left is
the status of the loan, and the whole transaction is `Db.repay` followed by one write of
it (`run_applyLoanRepaymentInTx_eq`).
-/
import NexusEfos.Loans.Allocation
import NexusEfos.Savings.Balances

namespace NexusEfos

namespace Db

/-- Every installment of a loan is paid, and there are some. -/
def allPaid (s : Db) (loanId : Id) : Bool :=
  let allInstallments := (s.table .loanInstallment).entries.filter fun i => i.2.loanId = loanId
  !allInstallments.isEmpty && allInstallments.all fun i => i.2.status = .paid

/-- The status of a loan once its installments have been written. -/
def statusAfter (s : Db) (loanId : Id) (status : LoanStatus) : LoanStatus :=
  if s.allPaid loanId = true then .closed
  else if status = .disbursed then .active
  else status

/-- A repayment, its allocation, and the status of the loan. -/
def repayLoan (s : Db) (loanId : Id) (amount : ℚ) (recordedById : Id) : Db :=
  (s.repay loanId amount recordedById).modify .loan loanId fun l =>
    { l with status := (s.repay loanId amount recordedById).statusAfter loanId l.status }

theorem modify_congr {s : Db} {m : Model} {id : Id} {f g : Row m → Row m}
    (h : ∀ row, s.find? m id = some row → f row = g row) : s.modify m id f = s.modify m id g :=
  congrArg (s.setTable m) (OrderedMap.modify_congr h)

theorem modify_eq_self {s : Db} {m : Model} {id : Id} {f : Row m → Row m}
    (h : ∀ row, s.find? m id = some row → f row = row) : s.modify m id f = s := by
  rw [modify_congr (g := fun row => row) h]
  refine (congrArg (s.setTable m) (OrderedMap.modify_id _ id)).trans ?_
  exact Db.ext (Function.update_eq_self m s.table)

end Db

/-- The loan's status is what `statusAfter` says, written or not. -/
theorem run_updateLoanStatus_eq_ok {s s' : Db} {loanId : Id} {loan : Loan} {closed : Bool}
    (hloan : s.find? .loan loanId = some loan)
    (h : (updateLoanStatus loanId loan).run s = (.ok closed, s')) :
    closed = s.allPaid loanId ∧
      s' = s.modify .loan loanId fun l => { l with status := s.statusAfter loanId l.status } := by
  obtain ⟨installments, s₁, hread, h₁⟩ := Proc.run_bind_eq_ok h
  obtain ⟨hinstallments, hs₁⟩ := Prod.mk.inj hread
  have hpaid : (!installments.isEmpty && installments.all fun i => i.2.status = .paid) =
      s.allPaid loanId := by
    rw [← Except.ok.inj hinstallments]
    rfl
  rw [← hs₁] at h₁
  simp only [hpaid] at h₁
  by_cases hclosed : s.allPaid loanId = true
  · rw [if_pos hclosed] at h₁
    obtain ⟨updated, s₂, hupdate, h₂⟩ := Proc.run_bind_eq_ok h₁
    obtain ⟨row, -, -, hs₂⟩ := run_update_eq_ok hupdate
    obtain ⟨hanswer, hs'⟩ := Prod.mk.inj h₂
    refine ⟨(Except.ok.inj hanswer).symm, ?_⟩
    rw [← hs', hs₂]
    unfold Db.statusAfter
    simp only [if_pos hclosed]
  · rw [if_neg hclosed] at h₁
    by_cases hdisbursed : loan.status = .disbursed
    · rw [if_pos hdisbursed] at h₁
      obtain ⟨updated, s₂, hupdate, h₂⟩ := Proc.run_bind_eq_ok h₁
      obtain ⟨row, -, -, hs₂⟩ := run_update_eq_ok hupdate
      obtain ⟨hanswer, hs'⟩ := Prod.mk.inj h₂
      refine ⟨(Except.ok.inj hanswer).symm, ?_⟩
      rw [← hs', hs₂]
      refine Db.modify_congr fun l hl => ?_
      rw [← Option.some.inj (hloan.symm.trans hl), Db.statusAfter, if_neg hclosed, if_pos hdisbursed]
    · rw [if_neg hdisbursed] at h₁
      obtain ⟨hanswer, hs'⟩ := Prod.mk.inj h₁
      refine ⟨(Except.ok.inj hanswer).symm, ?_⟩
      rw [← hs']
      refine (Db.modify_eq_self fun row hrow => ?_).symm
      rw [← Option.some.inj (hloan.symm.trans hrow), Db.statusAfter, if_neg hclosed,
        if_neg hdisbursed]

/-- A repayment writes two tables. -/
theorem Db.Agree.repay {watched : List Model} (hr : Model.loanRepayment ∉ watched)
    (hi : Model.loanInstallment ∉ watched) (s : Db) (loanId : Id) (x : ℚ) (recordedById : Id) :
    s.Agree watched (s.repay loanId x recordedById) := by
  intro m hm
  have hne : ∀ m', m' ∉ watched → m ≠ m' := by
    intro m' hm' heq
    exact hm' (heq ▸ hm)
  exact Db.table_repay_of_ne (hne _ hr) (hne _ hi) s loanId x recordedById

theorem Db.find?_repay_loan (s : Db) (loanId : Id) (x : ℚ) (recordedById id : Id) :
    (s.repay loanId x recordedById).find? .loan id = s.find? .loan id := by
  rw [Db.find?, Db.table_repay_of_ne (by decide) (by decide), Db.find?]

/-- A repayment that succeeds finds its loan, and writes the repayment, the installments
and the status. -/
theorem run_applyLoanRepaymentInTx_eq {s s' : Db} {loanId recordedById : Id} {x : ℚ}
    {r : Id × Bool} (h : (applyLoanRepaymentInTx loanId x recordedById).run s = (.ok r, s')) :
    ∃ loan, s.find? .loan loanId = some loan ∧
      r = (s.nextId .loanRepayment, (s.repay loanId x recordedById).allPaid loanId) ∧
      s' = s.repayLoan loanId x recordedById := by
  obtain ⟨found, s₁, hread, h₁⟩ := Proc.run_bind_eq_ok h
  obtain ⟨hfound, hs₁⟩ := Prod.mk.inj hread
  obtain ⟨⟨loan, installments⟩, s₂, hsome, h₂⟩ := Proc.run_bind_eq_ok h₁
  obtain ⟨hloan, hs₂⟩ := run_orFail_eq_ok hsome
  rw [← Except.ok.inj hfound] at hloan
  obtain ⟨loan', hloan', hpair⟩ := Option.map_eq_some_iff.mp hloan
  obtain ⟨hl, hinstallments⟩ := Prod.mk.inj hpair
  obtain ⟨repayment, s₃, hcreate, h₃⟩ := Proc.run_bind_eq_ok h₂
  obtain ⟨hid, hs₃⟩ := run_create_eq_ok hcreate
  obtain ⟨_, s₄, hloop, h₄⟩ := Proc.run_bind_eq_ok h₃
  have hs₄ := run_forEach_update_eq_ok hloop
  have hrepaid : s₄ = s.repay loanId x recordedById := by
    rw [hs₄, hs₃, hs₂, ← hs₁, ← hinstallments]
    rfl
  obtain ⟨closed, s₅, hstatus, h₅⟩ := Proc.run_bind_eq_ok h₄
  rw [← hl, hrepaid] at hstatus
  have hfind : (s.repay loanId x recordedById).find? .loan loanId = some loan' := by
    rw [Db.find?_repay_loan, hloan']
  obtain ⟨hclosed, hs₅⟩ := run_updateLoanStatus_eq_ok hfind hstatus
  obtain ⟨hanswer, hs'⟩ := Prod.mk.inj h₅
  refine ⟨loan', hloan', ?_, ?_⟩
  · rw [← Except.ok.inj hanswer, hid, hclosed, hs₂, ← hs₁]
  · rw [← hs', hs₅]
    rfl

/-- The transaction of a repayment that commits. -/
theorem run_repayInTx_eq {s s' : Db} {auth : Auth} {now : DateTime} {loanId : Id} {x : ℚ}
    {description : String} {lines : List JournalLineInput} {r : Id × Bool}
    (h : (repayInTx auth now loanId x description lines).run s = (.ok r, s')) :
    ∃ loan, s.find? .loan loanId = some loan ∧
      r = (s.nextId .loanRepayment, (s.repay loanId x auth.userId).allPaid loanId) ∧
      (∀ l ∈ lines, (s.find? .gLAccount l.accountId).isSome) ∧
      s' = ((s.repayLoan loanId x auth.userId).insert .journal
        (automaticJournal auth now description lines)).applyEffects lines := by
  obtain ⟨result, s₁, hrepay, h₁⟩ := Proc.run_bind_eq_ok h
  obtain ⟨loan, hloan, hresult, hs₁⟩ := run_applyLoanRepaymentInTx_eq hrepay
  obtain ⟨journal, s₂, hjournal, h₂⟩ := Proc.run_bind_eq_ok h₁
  obtain ⟨haccounts, -, hs₂⟩ := run_postJournal_eq_ok hjournal
  obtain ⟨hanswer, hs'⟩ := Prod.mk.inj h₂
  refine ⟨loan, hloan, (Except.ok.inj hanswer).symm.trans hresult, ?_, ?_⟩
  · intro l hl
    have hsome := haccounts l hl
    rwa [hs₁, Db.find?, Db.repayLoan, Db.table_modify_of_ne (by decide),
      Db.table_repay_of_ne (by decide) (by decide)] at hsome
  · rw [← hs', hs₂, hs₁]

/-! ## The installments that are paid -/

/-- What some updates do to one installment. -/
theorem find?_foldl_allocation (us : List AllocationUpdate) (s : Db) (k : Id) :
    ∃ g : LoanInstallment → LoanInstallment,
      (us.foldl (fun s u => s.modify .loanInstallment u.id u.apply) s).find? .loanInstallment k =
        (s.find? .loanInstallment k).map g ∧
      ∀ i, (g i).loanId = i.loanId ∧
        ((g i).status = i.status ∨ ∃ u ∈ us, u.id = k ∧ u.newStatus = (g i).status) := by
  induction us generalizing s with
  | nil => exact ⟨id, Option.map_id'.symm, fun i => ⟨rfl, .inl rfl⟩⟩
  | cons u us ih =>
    obtain ⟨g, hg, hkeeps⟩ := ih (s.modify .loanInstallment u.id u.apply)
    rw [List.foldl_cons, hg, Db.find?_modify]
    by_cases hk : k = u.id
    · refine ⟨g ∘ u.apply, by rw [if_pos hk, Option.map_map], fun i => ?_⟩
      obtain ⟨hloan, hstatus⟩ := hkeeps (u.apply i)
      refine ⟨hloan, .inr ?_⟩
      rcases hstatus with hsame | ⟨u', hu', hid, hnew⟩
      · exact ⟨u, List.mem_cons_self .., hk.symm, hsame.symm⟩
      · exact ⟨u', List.mem_cons_of_mem u hu', hid, hnew⟩
    · refine ⟨g, by rw [if_neg hk], fun i => ⟨(hkeeps i).1, ?_⟩⟩
      rcases (hkeeps i).2 with hsame | ⟨u', hu', hid, hnew⟩
      · exact .inl hsame
      · exact .inr ⟨u', List.mem_cons_of_mem u hu', hid, hnew⟩

/-- The loan has installments, and each of them is paid or is paid by the allocation of an
amount. -/
def Db.Completes (s : Db) (loanId : Id) (amount : ℚ) : Prop :=
  s.installmentsOf loanId ≠ [] ∧ ∀ e ∈ s.installmentsOf loanId, e.2.status = .paid ∨
    ∃ u ∈ allocateRepayment ((s.installmentsOf loanId).map installmentState) amount,
      u.id = e.1 ∧ u.newStatus = .paid

instance (s : Db) (loanId : Id) (amount : ℚ) : Decidable (s.Completes loanId amount) :=
  inferInstanceAs (Decidable (_ ∧ _))

theorem Db.completes_of_allPaid {s : Db} {loanId recordedById : Id} {x : ℚ}
    (h : (s.repay loanId x recordedById).allPaid loanId = true) : s.Completes loanId x := by
  obtain ⟨updates, hupdates⟩ : ∃ us, us = allocateRepayment
    ((s.installmentsOf loanId).map installmentState) x := ⟨_, rfl⟩
  have hrow : ∀ k, ∃ g : LoanInstallment → LoanInstallment,
      (s.repay loanId x recordedById).find? .loanInstallment k =
        (s.find? .loanInstallment k).map g ∧
      ∀ i, (g i).loanId = i.loanId ∧
        ((g i).status = i.status ∨ ∃ u ∈ updates, u.id = k ∧ u.newStatus = (g i).status) := by
    intro k
    obtain ⟨g, hg, hkeeps⟩ := find?_foldl_allocation updates (s.insert .loanRepayment
      { loanId, amount := ofNumber x, recordedById := some recordedById }) k
    rw [find?_insert_of_ne (by decide)] at hg
    refine ⟨g, ?_, hkeeps⟩
    rw [repay, ← hupdates]
    exact hg
  rw [allPaid, Bool.and_eq_true, Bool.not_eq_true', List.isEmpty_eq_false_iff, List.all_eq_true] at h
  obtain ⟨hsome, hall⟩ := h
  constructor
  · intro hnone
    apply hsome
    rw [List.filter_eq_nil_iff]
    intro e he hloan
    obtain ⟨g, hg, hkeeps⟩ := hrow e.1
    rw [Db.find?, OrderedMap.get?_eq_some.mpr he] at hg
    obtain ⟨i, hi, hgi⟩ := Option.map_eq_some_iff.mp hg.symm
    have hmem : (e.1, i) ∈ s.installmentsOf loanId := by
      refine mem_installmentsOf.mpr ⟨hi, ?_⟩
      rw [← (hkeeps i).1, hgi]
      exact of_decide_eq_true hloan
    rw [hnone] at hmem
    exact absurd hmem List.not_mem_nil
  · intro e he
    obtain ⟨hfind, hloan⟩ := mem_installmentsOf.mp he
    obtain ⟨g, hg, hkeeps⟩ := hrow e.1
    rw [hfind, Option.map_some] at hg
    have hentry := OrderedMap.get?_eq_some.mp hg
    have hpaid := hall (e.1, g e.2) (List.mem_filter.mpr
      ⟨hentry, decide_eq_true ((hkeeps e.2).1.trans hloan)⟩)
    have hpaid' : (g e.2).status = .paid := of_decide_eq_true hpaid
    rcases (hkeeps e.2).2 with hsame | ⟨u, hu, hid, hnew⟩
    · exact .inl (hsame.symm.trans hpaid')
    · rw [hupdates] at hu
      exact .inr ⟨u, hu, hid, hnew.trans hpaid'⟩

end NexusEfos
