/-
Restructuring a loan.

The approval of a restructuring marks the unpaid installments as deleted and creates
a new schedule next to them.  The new schedule counts from one, as the old one did,
and the number of an installment is unique within its loan, deleted or not.  So the
new schedule cannot be stored, and no approval of a restructuring of a loan that has
a schedule ever succeeds (`restructure_never_applies`).
-/
import NexusEfos.Approvals.ExactlyOnce
import NexusEfos.Loans.Allocation
import NexusEfos.Loans.Disbursements

namespace NexusEfos

/-- An installment as it was generated. -/
def LoanInstallment.asGenerated (i : LoanInstallment) : LoanInstallment :=
  { i with principalPaid := 0, interestPaid := 0, status := .pending, deletedAt := none }

/-- A loan that is being repaid: its installments are those of its schedule, and
anything may have been paid on them. -/
structure Db.HasSchedule (s : Db) (loanId : Id) (loan : Loan) (disbursedAt : DateTime) : Prop where
  found : s.find? .loan loanId = some loan
  live : loan.status = .disbursed ∨ loan.status = .active
  term_pos : 0 < loan.termMonths
  installments : (s.installmentsOf loanId).map (fun e => e.2.asGenerated) =
    (generateSchedule (toNumber loan.principal) loan.interestRate loan.termMonths
      loan.interestMethod disbursedAt).map (ScheduleRow.installment loanId)

/-- A request for the restructuring of a loan, as its endpoint admits it. -/
structure Db.RestructureRequested (s : Db) (requestId : Id) (request : ApprovalRequest)
    (restructure : LoanRestructure) : Prop where
  request_found : s.find? .approvalRequest requestId = some request
  type_eq : request.type = .loanRestructure
  restructure_found : s.find? .loanRestructure request.targetId = some restructure
  term_pos : 0 < restructure.newTermMonths

/-- A loan with a schedule has an installment with the number one. -/
theorem Db.HasSchedule.exists_first {s : Db} {loanId : Id} {loan : Loan} {disbursedAt : DateTime}
    (h : s.HasSchedule loanId loan disbursedAt) :
    ∃ k i, s.find? .loanInstallment k = some i ∧ i.loanId = loanId ∧ i.installmentNumber = 1 := by
  have hone := one_mem_generateSchedule (toNumber loan.principal) loan.interestRate h.term_pos
    loan.interestMethod disbursedAt
  obtain ⟨row, hrow, hnumber⟩ := List.mem_map.mp hone
  have hmem := List.mem_map_of_mem (f := ScheduleRow.installment loanId) hrow
  rw [← h.installments] at hmem
  obtain ⟨e, he, heq⟩ := List.mem_map.mp hmem
  obtain ⟨hfind, hloan⟩ := Db.mem_installmentsOf.mp he
  refine ⟨e.1, e.2, hfind, hloan, ?_⟩
  have hsame := congrArg LoanInstallment.installmentNumber heq
  exact hsame.trans hnumber

/-- Marking installments as deleted keeps their numbers taken, so the new schedule
violates the unique constraint. -/
theorem run_restructureLoan_ne_ok {s s' : Db} {now : DateTime} {targetId k : Id}
    {restructure : LoanRestructure} {i : LoanInstallment} {u : Unit}
    (hfound : s.find? .loanRestructure targetId = some restructure)
    (hterm : 0 < restructure.newTermMonths) (hi : s.find? .loanInstallment k = some i)
    (hloan : i.loanId = restructure.loanId) (hnumber : i.installmentNumber = 1) :
    (restructureLoan now targetId).run s ≠ (.ok u, s') := by
  intro h
  obtain ⟨restructure', s₁, hread, h⟩ := Proc.run_bind_eq_ok h
  obtain ⟨hread, rfl⟩ := run_findUniqueOrThrow_eq_ok hread
  cases hfound.symm.trans hread
  obtain ⟨n, s₂, hmark, h⟩ := Proc.run_bind_eq_ok h
  have hs₂ := run_updateMany_eq_ok hmark
  obtain ⟨_, s₃, hcreate, -⟩ := Proc.run_bind_eq_ok h
  have hnodup := (run_createInstallments_eq_ok hcreate).1
  have hmarked : ∃ i', s₂.find? .loanInstallment k = some i' ∧ i'.loanId = restructure.loanId ∧
      i'.installmentNumber = 1 := by
    rw [hs₂, Db.find?, Db.table_modifyAll_self, OrderedMap.get?_updateAll]
    rw [Db.find?] at hi
    rw [hi]
    refine ⟨_, rfl, ?_⟩
    by_cases hopen : i.isOpen restructure.loanId = true
    · simp only [hopen, if_true]
      exact ⟨hloan, hnumber⟩
    · simp only [hopen, Bool.false_eq_true, if_false]
      exact ⟨hloan, hnumber⟩
  obtain ⟨i', hi', hloan', hnumber'⟩ := hmarked
  have htaken : 1 ∈ ((s₂.table .loanInstallment).values.filter fun i =>
      i.loanId = restructure.loanId).map LoanInstallment.installmentNumber := by
    rw [← hnumber']
    refine List.mem_map_of_mem (List.mem_filter.mpr ⟨?_, by simpa using hloan'⟩)
    exact OrderedMap.mem_values.mpr ⟨k, hi'⟩
  have hnew := one_mem_generateSchedule (toNumber restructure.newPrincipal) restructure.newRate
    hterm "FLAT" now
  exact (List.nodup_append.mp hnodup).2.2 1 htaken 1 hnew rfl

/-- No approval of a restructuring succeeds, for whatever loan that has a schedule and
whatever has been paid on it, and the database stays as it was. -/
theorem restructure_never_applies {s : Db} {loan : Loan} {disbursedAt : DateTime}
    {request : ApprovalRequest} {restructure : LoanRestructure} {call : ResolveCall}
    (hloan : s.HasSchedule restructure.loanId loan disbursedAt)
    (hrequest : s.RestructureRequested call.requestId request restructure)
    (happrove : call.decision = .approve) :
    ∃ e, call.handler.run s = (.error e, s) := by
  rcases call.run_handler_cases s with hfails | ⟨existing, t, hexisting, -, -, hrun, -⟩
  · exact hfails
  · cases hrequest.request_found.symm.trans hexisting
    obtain ⟨_, s₁, hclaim, h⟩ := Proc.run_bind_eq_ok hrun
    obtain ⟨row, -, -, rfl⟩ := ResolveCall.run_claim_eq_ok hclaim
    obtain ⟨_, s₂, heffect, -⟩ := Proc.run_bind_eq_ok h
    have happly : call.effect request = restructureLoan call.now request.targetId := by
      unfold ResolveCall.effect applyApproval
      rw [happrove, hrequest.type_eq]
    rw [happly] at heffect
    obtain ⟨k, i, hi, hiloan, hnumber⟩ := hloan.exists_first
    have hfound : (s.modify .approvalRequest call.requestId call.resolve).find? .loanRestructure
        request.targetId = some restructure := by
      rw [Db.find?_modify_of_ne (by decide)]
      exact hrequest.restructure_found
    have hfirst : (s.modify .approvalRequest call.requestId call.resolve).find? .loanInstallment
        k = some i := by
      rw [Db.find?_modify_of_ne (by decide)]
      exact hi
    exact absurd heffect
      (run_restructureLoan_ne_ok hfound hrequest.term_pos hfirst hiloan hnumber)

/-! ## A loan of three installments, the first of them paid -/

/-- A loan of 30.00 over three months without interest. -/
def threeMonthLoan : Loan :=
  { institutionId := 1, customerId := 1, principal := 3000, interestRate := 0, termMonths := 3,
    status := .active, disbursedAt := some 0 }

/-- The restructuring of the rest over four months. -/
def fourMonths : LoanRestructure :=
  { loanId := 1, originalPrincipal := 3000, originalTermMonths := 3, newPrincipal := 2000,
    newRate := 0, newTermMonths := 4, reason := "longer term", requestedById := some 1 }

def fourMonthsRequest : ApprovalRequest :=
  { institutionId := 1, type := .loanRestructure, targetType := "LoanRestructure", targetId := 1,
    payload := { loanId := some 1 }, reason := some "longer term", requestedById := 1 }

/-- The first installment is paid, and the restructuring has been requested. -/
def restructureLedger : Db :=
  ((requestRestructure ⟨1, 1⟩ 1 20 0 4 "longer term").run
    ((((generateSchedule 30 0 3 "FLAT" 0).map (ScheduleRow.installment 1)).modifyHead fun i =>
        { i with principalPaid := 1000, status := .paid }).foldl
      (fun s i => s.insert .loanInstallment i) (Db.empty.insert .loan threeMonthLoan))).2

theorem hasSchedule_restructureLedger : restructureLedger.HasSchedule 1 threeMonthLoan 0 where
  found := rfl
  live := .inr rfl
  term_pos := by decide
  installments := by decide +kernel

theorem restructureRequested_restructureLedger :
    restructureLedger.RestructureRequested 1 fourMonthsRequest fourMonths where
  request_found := rfl
  type_eq := rfl
  restructure_found := by
    have hprincipal : ofNumber 20 = 2000 := by decide +kernel
    have hrate : toRateColumn 0 = 0 := by decide +kernel
    have hstored : restructureLedger.find? .loanRestructure fourMonthsRequest.targetId =
        some { fourMonths with newPrincipal := ofNumber 20, newRate := toRateColumn 0 } := rfl
    rw [hstored, hprincipal, hrate]
    rfl
  term_pos := by decide

/-- Another user approves it. -/
def approveFourMonths : ResolveCall :=
  { decision := .approve, auth := ⟨1, 2⟩, now := 5, requestId := 1 }

theorem restructure_never_applies_fourMonths :
    ∃ e, approveFourMonths.handler.run restructureLedger = (.error e, restructureLedger) :=
  @restructure_never_applies _ _ _ _ _ approveFourMonths hasSchedule_restructureLedger
    restructureRequested_restructureLedger rfl

/-- The loan, its schedule and the request are as they should be, and the approval
fails on the unique constraint. -/
theorem restructure_fails :
    restructureLedger.HasSchedule 1 threeMonthLoan 0 ∧
      restructureLedger.RestructureRequested 1 fourMonthsRequest fourMonths ∧
      (approveFourMonths.handler.run restructureLedger).1 = .error uniqueViolation :=
  ⟨hasSchedule_restructureLedger, restructureRequested_restructureLedger, by decide +kernel⟩

end NexusEfos
