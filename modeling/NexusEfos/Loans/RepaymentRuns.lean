/-
Repayments recorded one after the other, through any of the ways there are.

The endpoint of repayments and the field collections share one allocation.  A
standing instruction records its repayment and allocates nothing.  So what is paid
on the installments of a loan is the smaller of what was repaid and what is due, as
long as no standing instruction pays on a loan that is not paid off
(`paid_eq_min`); one that does breaks it (`paid_misses_instruction`).
-/
import NexusEfos.Loans.Allocation
import NexusEfos.Savings.Balances
import NexusEfos.Savings.Operations

namespace NexusEfos

/-! ## The ways to repay a loan -/

inductive RepaymentOperation
  | recordRepayment (auth : Auth) (now : DateTime) (loanId : Id) (amount : ℚ)
  | recordCollection (auth : Auth) (now : DateTime) (body : RecordCollection)
  | runStandingInstructions (now : DateTime)

namespace RepaymentOperation

/-- The code an operation runs. -/
def handler : RepaymentOperation → Handler Unit
  | recordRepayment auth now loanId x => discard (NexusEfos.recordRepayment auth now loanId x)
  | recordCollection auth now body => discard (NexusEfos.recordCollection auth now body)
  | runStandingInstructions now => NexusEfos.runStandingInstructions now

/-- The amount of a request is whole cents.  An instruction has stored its own. -/
def IsWholeCent : RepaymentOperation → Prop
  | recordRepayment _ _ _ x => WholeCent x
  | recordCollection _ _ body => WholeCent body.amount
  | runStandingInstructions _ => True

/-- Repayments of whole cents, and anything else. -/
def allowed : BooksKind → Prop
  | .repaid x => WholeCent x
  | .deposited _ | .withdrew _ | .overwrote => True

theorem keepsBooks {op : RepaymentOperation} (hwhole : op.IsWholeCent) :
    KeepsBooks allowed op.handler := by
  cases op with
  | recordRepayment auth now loanId x =>
    exact KeepsBooks.discard (recordRepayment_keepsBooks auth now loanId x hwhole)
  | recordCollection auth now body =>
    exact KeepsBooks.discard (recordCollection_keepsBooks auth now body (fun _ => trivial)
      fun _ => hwhole)
  | runStandingInstructions now => exact runStandingInstructions_keepsBooks now trivial

end RepaymentOperation

/-! ## The condition -/

/-- A repayment a statement records without allocating it is nothing, or comes
when the loan is paid off. -/
def Access.Allocates (loanId : Id) (lab : Access) (s : Db) : Prop :=
  ∀ u ∈ lab.unallocated, u.1 = loanId →
    u.2 = 0 ∨ 0 ≤ u.2 ∧ s.dueTotal loanId ≤ s.repaidTotal loanId

instance (loanId : Id) (lab : Access) (s : Db) : Decidable (lab.Allocates loanId s) :=
  inferInstanceAs (Decidable (∀ u ∈ lab.unallocated, u.1 = loanId →
    u.2 = 0 ∨ 0 ≤ u.2 ∧ s.dueTotal loanId ≤ s.repaidTotal loanId))

/-! ## One statement -/

/-- The installments of a loan hold what has been repaid, as far as it is due. -/
structure LoanInStep (loanId : Id) (s : Db) : Prop where
  sound : s.InstallmentsSound loanId
  paid_eq : s.paidTotal loanId = min (s.repaidTotal loanId) (s.dueTotal loanId)

/-- A further amount is paid as far as something is due. -/
theorem min_add_of_eq_min {p r d c : ℤ} (hp : p = min r d) (hc : 0 ≤ c) :
    p + min c (d - p) = min (r + c) d := by
  omega

namespace Db

variable {s t : Db}

theorem repaidTotal_congr (h : t.table .loanRepayment = s.table .loanRepayment) (loanId : Id) :
    t.repaidTotal loanId = s.repaidTotal loanId := by
  unfold repaidTotal
  rw [h]

theorem repaidTotal_insert (s : Db) (row : LoanRepayment) (loanId : Id) :
    (s.insert .loanRepayment row).repaidTotal loanId =
      s.repaidTotal loanId + if row.loanId = loanId then row.amount else 0 := by
  rw [repaidTotal, table_insert_self, OrderedMap.total_create]
  rfl

theorem repaidTotal_repay (s : Db) (loanId : Id) (c : Cents) (recordedById l : Id) :
    (s.repay loanId (toNumber c) recordedById).repaidTotal l =
      s.repaidTotal l + if loanId = l then c else 0 := by
  have hfold := table_foldl_allocation (m := .loanRepayment) (by decide)
  rw [repay, repaidTotal_congr (hfold _ _), repaidTotal_insert, ofNumber_toNumber]

end Db

/-- A repayment is paid as far as something is due. -/
theorem pays_repay {s : Db} {loanId : Id} (hsound : s.InstallmentsSound loanId) {c : Cents}
    (hc : 0 ≤ c) (recordedById : Id) :
    Pays loanId (min c (s.dueTotal loanId - s.paidTotal loanId)) s
      (s.repay loanId (toNumber c) recordedById) := by
  have hinsert : Pays loanId 0 s (s.insert .loanRepayment
      { loanId, amount := ofNumber (toNumber c), recordedById := some recordedById }) :=
    .of_table_eq (Db.table_insert_of_ne (by decide) ..) loanId
  have hfind : ∀ e ∈ s.installmentsOf loanId, (s.insert .loanRepayment
      { loanId, amount := ofNumber (toNumber c), recordedById := some recordedById }).find?
        .loanInstallment e.1 = some e.2 ∧ e.2.loanId = loanId := by
    intro e he
    rw [Db.find?_insert_of_ne (by decide)]
    exact Db.mem_installmentsOf.mp he
  have hpays := pays_allocateRepayment hc (s.nodup_installmentsOf loanId) hfind fun e he =>
    hsound e.1 e.2 (Db.mem_installmentsOf.mp he).1 (Db.mem_installmentsOf.mp he).2
  rw [Db.sum_outstanding] at hpays
  have hboth := hinsert.trans hpays
  rw [zero_add] at hboth
  exact hboth

/-- A repayment on another loan pays nothing on this one. -/
theorem pays_repay_other {l loanId : Id} (h : l ≠ loanId) (s : Db) (x : ℚ) (recordedById : Id) :
    Pays loanId 0 s (s.repay l x recordedById) := by
  have hinsert : Pays loanId 0 s (s.insert .loanRepayment
      { loanId := l, amount := ofNumber x, recordedById := some recordedById }) :=
    .of_table_eq (Db.table_insert_of_ne (by decide) ..) loanId
  refine hinsert.trans (Pays.foldl_other ?_)
  intro u hu i hi
  obtain ⟨st, hst, hid⟩ := mem_allocateRepayment hu
  obtain ⟨e, he, rfl⟩ := List.mem_map.mp hst
  obtain ⟨hentry, hloan⟩ := Db.mem_installmentsOf.mp he
  rw [Db.find?_insert_of_ne (by decide), ← hid] at hi
  have hrow : e.2 = i := Option.some.inj (hentry.symm.trans hi)
  rw [← hrow, hloan]
  exact h

namespace LoanInStep

variable {loanId : Id} {s t : Db}

/-- The loan is paid nothing and nothing is repaid. -/
theorem of_pays_zero (h : LoanInStep loanId s) (hpays : Pays loanId 0 s t)
    (hrepaid : t.repaidTotal loanId = s.repaidTotal loanId) : LoanInStep loanId t := by
  refine ⟨hpays.sound h.sound, ?_⟩
  rw [hpays.paid, hpays.due, hrepaid, h.paid_eq, add_zero]

/-- The tables of loans are the same. -/
theorem congr (h : LoanInStep loanId s)
    (hinstallments : t.table .loanInstallment = s.table .loanInstallment)
    (hrepayments : t.table .loanRepayment = s.table .loanRepayment) : LoanInStep loanId t :=
  h.of_pays_zero (.of_table_eq hinstallments loanId) (Db.repaidTotal_congr hrepayments loanId)

/-- A repayment that is allocated. -/
theorem repay (h : LoanInStep loanId s) (l : Id) {c : Cents} (hc : 0 ≤ c) (recordedById : Id) :
    LoanInStep loanId (s.repay l (toNumber c) recordedById) := by
  have hrepaid := Db.repaidTotal_repay s l c recordedById loanId
  by_cases hl : l = loanId
  · subst hl
    have hpays := pays_repay h.sound hc recordedById
    refine ⟨hpays.sound h.sound, ?_⟩
    rw [if_pos rfl] at hrepaid
    rw [hpays.paid, hpays.due, hrepaid]
    exact min_add_of_eq_min h.paid_eq hc
  · rw [if_neg hl, add_zero] at hrepaid
    exact h.of_pays_zero (pays_repay_other hl s _ recordedById) hrepaid

/-- Repayments that are recorded without an allocation, when that makes no
difference. -/
theorem insertAll (h : LoanInStep loanId s) {rows : List LoanRepayment}
    (hrows : ∀ r ∈ rows, r.loanId = loanId →
      r.amount = 0 ∨ 0 ≤ r.amount ∧ s.dueTotal loanId ≤ s.repaidTotal loanId) :
    LoanInStep loanId (s.insertAll .loanRepayment rows) := by
  induction rows generalizing s with
  | nil => exact h
  | cons row rows ih =>
    have hpays : Pays loanId 0 s (s.insert .loanRepayment row) :=
      .of_table_eq (Db.table_insert_of_ne (by decide) ..) loanId
    have hrepaid := s.repaidTotal_insert row loanId
    have hrow := hrows row (List.mem_cons_self ..)
    have hnext : LoanInStep loanId (s.insert .loanRepayment row) ∧
        s.repaidTotal loanId ≤ (s.insert .loanRepayment row).repaidTotal loanId := by
      by_cases hl : row.loanId = loanId
      · rw [if_pos hl] at hrepaid
        rcases hrow hl with hzero | ⟨hnonneg, hcovered⟩
        · rw [hzero, add_zero] at hrepaid
          exact ⟨h.of_pays_zero hpays hrepaid, hrepaid.ge⟩
        · have hmore : s.repaidTotal loanId ≤ (s.insert .loanRepayment row).repaidTotal loanId := by
            rw [hrepaid]
            exact le_add_of_nonneg_right hnonneg
          refine ⟨⟨hpays.sound h.sound, ?_⟩, hmore⟩
          rw [hpays.paid, hpays.due, h.paid_eq, add_zero, min_eq_right hcovered,
            min_eq_right (hcovered.trans hmore)]
      · rw [if_neg hl, add_zero] at hrepaid
        exact ⟨h.of_pays_zero hpays hrepaid, hrepaid.ge⟩
    refine ih hnext.1 fun r hr hl => ?_
    rcases hrows r (List.mem_cons_of_mem row hr) hl with hzero | ⟨hnonneg, hcovered⟩
    · exact .inl hzero
    · refine .inr ⟨hnonneg, ?_⟩
      rw [hpays.due]
      exact hcovered.trans hnext.2

/-- What a statement does to a loan. -/
theorem step {lab : Access} {d d' : Id → Cents} (h : LoanInStep loanId s)
    (hstep : BooksStep RepaymentOperation.allowed lab s d t d') (hlab : lab.Allocates loanId s) :
    LoanInStep loanId t := by
  cases hstep with
  | quiet hagree => exact h.congr (hagree _ (by decide)) (hagree _ (by decide))
  | deposited _ _ _ _ _ hagree =>
    apply h.congr
    · rw [hagree _ (by decide), Db.table_move (by decide) (by decide) (by decide)]
    · rw [hagree _ (by decide), Db.table_move (by decide) (by decide) (by decide)]
  | withdrew _ _ _ _ _ _ hagree =>
    apply h.congr
    · rw [hagree _ (by decide), Db.table_move (by decide) (by decide) (by decide)]
    · rw [hagree _ (by decide), Db.table_move (by decide) (by decide) (by decide)]
  | @repaid l _ recordedById x _ _ _ hwhole _ hx _ hagree =>
    obtain ⟨c, rfl⟩ := hwhole
    have hrepay := h.repay l (toNumber_nonneg.mp hx.le) recordedById
    apply hrepay.congr
    · rw [hagree _ (by decide), Db.table_applyEffects (by decide)]
    · rw [hagree _ (by decide), Db.table_applyEffects (by decide)]
  | @overwrote _ os rows repayments _ _ _ _ hl _ hagree _ =>
    have hbefore : ∀ m, m ≠ .savingsAccount → m ≠ .savingsTransaction →
        ((s.overwrite os).insertAll .savingsTransaction rows).table m = s.table m := by
      intro m hm hm'
      rw [Db.table_insertAll hm', Db.table_overwrite hm]
    have hsame := h.congr (hbefore .loanInstallment (by decide) (by decide))
      (hbefore .loanRepayment (by decide) (by decide))
    have hcond : ∀ r ∈ repayments, r.loanId = loanId → r.amount = 0 ∨ 0 ≤ r.amount ∧
        ((s.overwrite os).insertAll .savingsTransaction rows).dueTotal loanId ≤
          ((s.overwrite os).insertAll .savingsTransaction rows).repaidTotal loanId := by
      intro r hr hloan
      have hmem : (r.loanId, r.amount) ∈ lab.unallocated := by
        rw [hl]
        exact List.mem_map_of_mem hr
      rw [Db.repaidTotal_congr (hbefore .loanRepayment (by decide) (by decide)), Db.dueTotal,
        hbefore .loanInstallment (by decide) (by decide)]
      exact hlab _ hmem hloan
    exact (hsame.insertAll hcond).congr (hagree _ (by decide)) (hagree _ (by decide))

end LoanInStep

/-! ## Every sequence of repayments -/

/-- The installments of a loan are those of a schedule generated for it, and
nothing has been repaid. -/
structure Db.Scheduled (s : Db) (loanId : Id) (loan : Loan) (disbursedAt : DateTime) : Prop where
  found : s.find? .loan loanId = some loan
  principal_nonneg : 0 ≤ loan.principal
  rate_nonneg : 0 ≤ loan.interestRate
  installments : (s.installmentsOf loanId).map Prod.snd =
    (generateSchedule (toNumber loan.principal) loan.interestRate loan.termMonths
      loan.interestMethod disbursedAt).map (ScheduleRow.installment loanId)
  fresh : ∀ r ∈ (s.table .loanRepayment).values, r.loanId ≠ loanId

theorem Db.Scheduled.loanInStep {s : Db} {loanId : Id} {loan : Loan} {disbursedAt : DateTime}
    (h : s.Scheduled loanId loan disbursedAt) : LoanInStep loanId s := by
  have hrow : ∀ k i, s.find? .loanInstallment k = some i → i.loanId = loanId →
      ∃ row : ScheduleRow, (0 ≤ row.principalDue ∧ 0 ≤ row.interestDue) ∧
        i = row.installment loanId := by
    intro k i hi hl
    have hmem : i ∈ (s.installmentsOf loanId).map Prod.snd :=
      List.mem_map_of_mem (f := Prod.snd) (a := (k, i)) (Db.mem_installmentsOf.mpr ⟨hi, hl⟩)
    rw [h.installments] at hmem
    obtain ⟨row, hrow, rfl⟩ := List.mem_map.mp hmem
    exact ⟨row, generateSchedule_nonneg (toNumber_nonneg.mpr h.principal_nonneg) h.rate_nonneg
      _ _ _ row hrow, rfl⟩
  have hsound : s.InstallmentsSound loanId := by
    intro k i hi hl
    obtain ⟨row, ⟨hprincipal, hinterest⟩, rfl⟩ := hrow k i hi hl
    exact ⟨le_rfl, ofNumber_nonneg hinterest, le_rfl, ofNumber_nonneg hprincipal⟩
  have hpaid : s.paidTotal loanId = 0 := by
    apply OrderedMap.total_eq_zero
    intro k i hi
    by_cases hl : i.loanId = loanId
    · obtain ⟨row, -, rfl⟩ := hrow k i (OrderedMap.get?_eq_some.mpr hi) hl
      rw [if_pos hl]
      rfl
    · rw [if_neg hl]
  have hdue : 0 ≤ s.dueTotal loanId := by
    apply List.sum_nonneg
    intro x hx
    obtain ⟨e, he, rfl⟩ := List.mem_map.mp hx
    by_cases hl : e.2.loanId = loanId
    · have hi := hsound e.1 e.2 (OrderedMap.get?_eq_some.mpr he) hl
      simp only [if_pos hl]
      exact add_nonneg (hi.principal_nonneg.trans hi.principal_le)
        (hi.interest_nonneg.trans hi.interest_le)
    · simp only [if_neg hl, le_refl]
  have hrepaid : s.repaidTotal loanId = 0 := by
    apply OrderedMap.total_eq_zero
    intro k r hr
    have hne := h.fresh r (OrderedMap.mem_values.mpr ⟨k, OrderedMap.get?_eq_some.mpr hr⟩)
    rw [if_neg hne]
  exact ⟨hsound, by rw [hpaid, hrepaid, min_eq_left hdue]⟩

/-- After every sequence of repayments of whole cents, in which no standing
instruction pays on a loan that is not paid off, the smaller of what was repaid and
what is due is paid on the installments. -/
theorem paid_eq_min {ops : List RepaymentOperation} {s : Db} {loanId : Id} {loan : Loan}
    {disbursedAt : DateTime} (hscheduled : s.Scheduled loanId loan disbursedAt)
    (hwhole : ∀ op ∈ ops, op.IsWholeCent)
    (hallocates : Proc.MeetsAll (Access.Allocates loanId) (ops.map RepaymentOperation.handler) s) :
    (Proc.runAll (ops.map RepaymentOperation.handler) s).paidTotal loanId =
      min ((Proc.runAll (ops.map RepaymentOperation.handler) s).repaidTotal loanId)
        ((Proc.runAll (ops.map RepaymentOperation.handler) s).dueTotal loanId) := by
  suffices h : LoanInStep loanId (Proc.runAll (ops.map RepaymentOperation.handler) s) from h.paid_eq
  refine Proc.runAll_induction ?_ hscheduled.loanInStep hallocates
  intro p hp t ht hmeets
  obtain ⟨op, hop, rfl⟩ := List.mem_map.mp hp
  have hkeeps := RepaymentOperation.keepsBooks (hwhole op hop) t
  obtain ⟨_, -, -, hend⟩ := hkeeps.run (I := fun u _ => LoanInStep loanId u)
    (fun _ _ _ _ _ _ hlab hguar _ hu => hu.step hguar hlab) (o := 0) ht hmeets
  exact hend

/-! ## A loan that is paid off and one that is not -/

/-- A loan of 100.00 over two months without interest, and a monthly instruction
that pays 10.00 on it. -/
def instructionLoan : Loan :=
  { institutionId := 1, customerId := 1, principal := 10000, interestRate := 0, termMonths := 2,
    status := .disbursed, disbursedAt := some 0 }

def instructionLedger : Db :=
  ((((((((((Db.empty.insert .gLAccount
    { institutionId := 1, code := "1000", name := "Cash", category := .asset }).insert .gLAccount
    { institutionId := 1, code := "1010", name := "Custody", category := .asset }).insert .gLAccount
    { institutionId := 1, code := "1200", name := "Loans", category := .asset }).insert
      .loanGLAccountMapping ⟨1, "Cash/Bank (Disbursement)", 1⟩).insert
      .loanGLAccountMapping ⟨1, "Collector Cash Custody", 2⟩).insert
      .loanGLAccountMapping ⟨1, "Loan Receivable", 3⟩).insert
      .financialPeriod { institutionId := 1, startDate := 0, endDate := 10 }).insert
      .collector { institutionId := 1 }).insert
      .savingsAccount
        { institutionId := 1, customerId := 1, balance := 5000, ledgerBalance := 5000 }).insert
      .loan instructionLoan).insert
      .standingInstruction
        { institutionId := 1, type := .loanRepayment, sourceAccountId := 1,
          destinationLoanId := some 1, amount := 1000, frequency := .monthly,
          nextExecutionDate := 3, createdById := 1 } |>.insertAll .loanInstallment
      ((generateSchedule 100 0 2 "FLAT" 0).map (ScheduleRow.installment 1))

theorem scheduled_instructionLedger : instructionLedger.Scheduled 1 instructionLoan 0 where
  found := rfl
  principal_nonneg := by decide
  rate_nonneg := le_rfl
  installments := by decide +kernel
  fresh := by decide +kernel

/-- The loan is paid off before the instruction is due. -/
def paidOffEarly : List RepaymentOperation :=
  [.recordRepayment ⟨1, 1⟩ 2 1 60, .recordCollection ⟨1, 1⟩ 2 ⟨.loanRepayment, 1, 1, 1, 40⟩,
    .runStandingInstructions 4]

theorem paid_eq_min_paidOffEarly :
    (Proc.runAll (paidOffEarly.map RepaymentOperation.handler) instructionLedger).paidTotal 1 =
      min ((Proc.runAll (paidOffEarly.map RepaymentOperation.handler) instructionLedger).repaidTotal 1)
        ((Proc.runAll (paidOffEarly.map RepaymentOperation.handler) instructionLedger).dueTotal 1) := by
  refine paid_eq_min scheduled_instructionLedger (fun op hop => ?_) (by decide +kernel)
  have h60 : WholeCent 60 := ⟨6000, by norm_num [toNumber]⟩
  have h40 : WholeCent 40 := ⟨4000, by norm_num [toNumber]⟩
  rcases List.mem_cons.mp hop with rfl | hop
  · exact h60
  rcases List.mem_cons.mp hop with rfl | hop
  · exact h40
  · rw [List.mem_singleton.mp hop]
    trivial

/-- The instruction takes 10.00 for the loan and pays nothing on it. -/
theorem paid_misses_instruction :
    instructionLedger.Scheduled 1 instructionLoan 0 ∧
    (Proc.runAll ([RepaymentOperation.runStandingInstructions 4].map RepaymentOperation.handler)
      instructionLedger).paidTotal 1 = 0 ∧
    (Proc.runAll ([RepaymentOperation.runStandingInstructions 4].map RepaymentOperation.handler)
      instructionLedger).repaidTotal 1 = 1000 ∧
    (Proc.runAll ([RepaymentOperation.runStandingInstructions 4].map RepaymentOperation.handler)
      instructionLedger).dueTotal 1 = 10000 :=
  ⟨scheduled_instructionLedger, by decide +kernel, by decide +kernel, by decide +kernel⟩

end NexusEfos
