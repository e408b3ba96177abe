/-
What a payroll run leaves in the ledger after its reversal.

The approval of a run posts an accrual and its payment a settlement.  The reversal posts nothing:
it marks the run.  So the balances come back to what they were only where the two journals cancel
each other on every account.
-/
import NexusEfos.Ledger.PostedLines
import NexusEfos.Operations.PayrollRuns
import NexusEfos.Operations.PostingTargets

namespace NexusEfos

open DoubleEntry

/-! ## The lines -/

namespace Db

/-- The lines that the approval of a run posts. -/
def accrualLines (s : Db) (now : DateTime) (runId : Id) (run : PayrollRun) : List LineInput :=
  let accountIds := accountIdByPurpose ((s.table .payrollGLAccountMapping).entries.filter fun m =>
    m.2.institutionId = run.institutionId)
  let total := fun (f : PayrollEntry → Cents) => (((s.table .payrollEntry).entries.filter fun e =>
    e.2.payrollRunId = runId).map fun e => toNumber (f e.2)).sum
  if (requiredAccrualPurposes.all fun p => (accountIds p).isSome) = true ∧
      s.Postable run.institutionId (s.accrualDate now run) then
    postedDraftLines (buildPayrollAccrualLines
      { totalGross := toNumber run.totalGross, totalPaye := total PayrollEntry.paye,
        totalSsnitEmployee := total PayrollEntry.ssnitEmployee,
        totalSsnitEmployerTier1 := total PayrollEntry.ssnitEmployerTier1,
        totalTier2Employer := total PayrollEntry.tier2Employer,
        totalOtherDeductions := total PayrollEntry.otherDeductions,
        totalNet := toNumber run.totalNet } accountIds)
  else []

/-- The lines that the payment of a run posts. -/
def settlementLines (s : Db) (auth : Auth) (now : DateTime) (run : PayrollRun) : List LineInput :=
  let mappings := (s.table .payrollGLAccountMapping).entries.filter fun m =>
    m.2.institutionId = auth.institutionId ∧
      m.2.purpose ∈ ["Salaries Payable", "Cash/Bank Disbursement"]
  match both (firstAccountByPurpose mappings "Salaries Payable")
      (firstAccountByPurpose mappings "Cash/Bank Disbursement") with
  | none => []
  | some (salariesPayableId, cashId) =>
    if run.accrualJournalId.isSome = true ∧ s.Postable auth.institutionId now then
      buildPayrollSettlementLines (toNumber run.totalNet) salariesPayableId cashId
    else []

/-- The tables on which the lines of an accrual depend. -/
theorem accrualLines_congr {s t : Db}
    (h : s.Agree [.payrollGLAccountMapping, .payrollPeriod, .financialPeriod, .payrollEntry] t)
    (now : DateTime) (runId : Id) (run : PayrollRun) :
    t.accrualLines now runId run = s.accrualLines now runId run := by
  have hdate : t.accrualDate now run = s.accrualDate now run := by
    unfold accrualDate
    rw [h.find? (by decide)]
  have hpostable : t.Postable run.institutionId (s.accrualDate now run) =
      s.Postable run.institutionId (s.accrualDate now run) := by
    unfold Postable postablePeriod?
    rw [h .financialPeriod (by decide)]
  unfold accrualLines
  simp only [hdate, hpostable, h .payrollGLAccountMapping (by decide),
    h .payrollEntry (by decide)]

end Db

/-! ## The operations -/

section Effects

variable {s t : Db}

theorem run_postAccrual_movedBy {now : DateTime} {approvedById runId : Id} {run : PayrollRun}
    {r : Option Id} (h : (postAccrual now approvedById runId run).run s = (.ok r, t)) :
    s.MovedBy (s.accrualLines now runId run) t := by
  have hnone : (Except.ok none, s) = ((.ok r, t) : Except Failure _ × Db) → s.MovedBy [] t := by
    intro hdone
    rw [← (Prod.mk.inj hdone).2]
    exact .of_agree (.refl s)
  unfold Db.accrualLines
  have h₁ := run_query_bind h
  dsimp only at h₁ ⊢
  split at h₁
  · next hmapped =>
    have h₂ := run_query_bind h₁
    have h₃ := run_query_bind h₂
    split at h₃
    · next hopened =>
      rw [if_pos ⟨hmapped, hopened⟩]
      have htotal : ∀ f : PayrollEntry → Cents,
          WholeCent ((((s.table .payrollEntry).entries.filter fun e =>
            e.2.payrollRunId = runId).map fun e => toNumber (f e.2)).sum) :=
        fun f => wholeCent_sum fun e _ => wholeCent_toNumber (f e.2)
      exact run_postDraftLines_movedBy (isWholeCent_accrualLines (wholeCent_toNumber _) (htotal _)
        (htotal _) (htotal _) (htotal _) (wholeCent_toNumber _)) (run_query_bind h₃)
    · next hclosed =>
      rw [if_neg fun hpost => hclosed hpost.2]
      exact hnone h₃
  · next hunmapped =>
    rw [if_neg fun hpost => hunmapped hpost.1]
    exact hnone h₁

theorem run_approvePayrollRun_movedBy {now : DateTime} {approvedById runId : Id} {u : Unit}
    (h : (approvePayrollRun now approvedById runId).run s = (.ok u, t)) :
    ∃ run, s.find? .payrollRun runId = some run ∧ s.MovedBy (s.accrualLines now runId run) t := by
  obtain ⟨run, hrun, h₁⟩ := run_findUniqueOrThrow_bind_eq_ok h
  obtain ⟨journal, s₁, haccrual, h₂⟩ := Proc.run_bind_eq_ok h₁
  obtain ⟨row, -, h₃⟩ := run_updateAs_bind_eq_ok h₂
  refine ⟨run, hrun, (run_postAccrual_movedBy haccrual).congr (.refl s) ?_⟩
  rw [← (Prod.mk.inj h₃).2]
  exact Db.Agree.modify (by decide) _ _ _

/-- The approval of a run, as a call. -/
theorem ResolveCall.run_handler_accrual {call : ResolveCall} {request : ApprovalRequest}
    (hdecision : call.decision = .approve)
    (hrequest : s.find? .approvalRequest call.requestId = some request)
    (htype : request.type = .payrollRunApproval) {u : Unit}
    (h : call.handler.run s = (.ok u, t)) :
    ∃ run, s.find? .payrollRun request.targetId = some run ∧
      s.MovedBy (s.accrualLines call.now request.targetId run) t := by
  rcases call.run_handler_cases s with ⟨e, herror⟩ | ⟨existing, t', hexisting, -, -, hinTx, hok⟩
  · rw [herror] at h
    exact absurd (congrArg Prod.fst h) nofun
  · rw [hrequest] at hexisting
    rw [hok] at h
    rw [← Option.some.inj hexisting] at hinTx
    obtain ⟨row, v, -, -, heffect, ht'⟩ := run_inTx_effect hinTx
    unfold effect at heffect
    simp only [hdecision, applyApproval, htype] at heffect
    obtain ⟨run, hrun, hmoved⟩ := run_approvePayrollRun_movedBy heffect
    have hclaim : ∀ watched : List Model, Model.approvalRequest ∉ watched →
        s.Agree watched (s.modify .approvalRequest call.requestId call.resolve) :=
      fun _ hw => Db.Agree.modify hw _ _ _
    rw [(hclaim [.payrollRun] (by decide)).find? (by decide)] at hrun
    rw [Db.accrualLines_congr (hclaim _ (by decide))] at hmoved
    refine ⟨run, hrun, hmoved.congr (hclaim _ (by decide)) ?_⟩
    rw [← (Prod.mk.inj h).2, ht']
    exact Db.Agree.insert (by decide) _ _

theorem isWholeCent_twoLines {x : ℚ} (hx : WholeCent x) (debitedId creditedId : Id) :
    ∀ l ∈ twoLines debitedId creditedId x, l.IsWholeCent := by
  intro l hl
  rcases List.mem_cons.mp hl with rfl | hl
  · exact ⟨hx, .zero⟩
  · rw [List.mem_singleton.mp hl]
    exact ⟨.zero, hx⟩

theorem run_postSettlement_movedBy {auth : Auth} {now : DateTime} {runId : Id} {run : PayrollRun}
    (haccrued : run.accrualJournalId.isSome = true) {r : Option Id}
    (h : (postSettlement auth now runId run).run s = (.ok r, t)) :
    s.MovedBy (s.settlementLines auth now run) t := by
  have hnone : (Except.ok none, s) = ((.ok r, t) : Except Failure _ × Db) → s.MovedBy [] t := by
    intro hdone
    rw [← (Prod.mk.inj hdone).2]
    exact .of_agree (.refl s)
  have h₁ := run_query_bind h
  dsimp only at h₁
  split at h₁
  · next hunmapped =>
    have hlines : s.settlementLines auth now run = [] := by
      unfold Db.settlementLines
      dsimp only
      rw [hunmapped]
    rw [hlines]
    exact hnone h₁
  · next salariesPayableId cashId hmapped =>
    have hlines : s.settlementLines auth now run =
        if run.accrualJournalId.isSome = true ∧ s.Postable auth.institutionId now then
          buildPayrollSettlementLines (toNumber run.totalNet) salariesPayableId cashId
        else [] := by
      unfold Db.settlementLines
      dsimp only
      rw [hmapped]
    rw [hlines]
    have h₂ := run_query_bind h₁
    have h₃ := run_query_bind h₂
    have h₄ := run_query_bind h₃
    split at h₄
    · next hopened =>
      rw [if_pos ⟨haccrued, hopened⟩]
      obtain ⟨v, hmoved, hend⟩ := run_postById_movedBy rfl rfl
        (isWholeCent_twoLines (wholeCent_toNumber _) _ _) h₄
      rw [← (Prod.mk.inj hend).2]
      exact hmoved
    · next hclosed =>
      rw [if_neg fun hpost => hclosed hpost.2]
      exact hnone h₄

theorem run_markPayrollPaid_movedBy {auth : Auth} {now : DateTime} {runId : Id} {r : PayrollRun}
    (h : (markPayrollPaid auth now runId).run s = (.ok r, t)) :
    ∃ run, s.find? .payrollRun runId = some run ∧
      s.MovedBy (s.settlementLines auth now run) t := by
  obtain ⟨run, hrun, h₁⟩ := run_orFail_bind_eq_ok (run_query_bind h)
  obtain ⟨-, h₂⟩ := run_require_bind_eq_ok h₁
  refine ⟨run, (Option.filter_eq_some_iff.mp hrun).1, ?_⟩
  have hend : ∀ {journal : Option Id} {s₁ : Db}, (do
      let updated ← updateAs { payroll := some (.pay runId journal) } .payrollRun runId fun r =>
        { r with status := .paid, paidById := some auth.userId, paidAt := some now,
                 settlementJournalId := journal }
      let _ ← create .auditLog
        { institutionId := auth.institutionId, userId := some auth.userId,
          action := "payroll_run.mark_paid", resource := "payroll_run", resourceId := some runId }
      return updated : Handler PayrollRun).run s₁ = (.ok r, t) → s₁.Agree [.gLAccount] t := by
    intro journal s₁ h₃
    obtain ⟨row, -, h₄⟩ := run_updateAs_bind_eq_ok h₃
    obtain ⟨entry, s₂, hlog, h₅⟩ := Proc.run_bind_eq_ok h₄
    rw [← (Prod.mk.inj h₅).2, (run_create_eq_ok hlog).2]
    exact (Db.Agree.modify (by decide) _ _ _).trans (Db.Agree.insert (by decide) _ _)
  dsimp only at h₂
  split at h₂
  · next haccrued =>
    obtain ⟨journal, s₁, hsettle, h₃⟩ := Proc.run_bind_eq_ok h₂
    exact (run_postSettlement_movedBy haccrued hsettle).congr (.refl s) (hend h₃)
  · next hnone =>
    have hlines : s.settlementLines auth now run = [] := by
      unfold Db.settlementLines
      dsimp only
      split
      · rfl
      · exact if_neg fun hpost => hnone hpost.1
    rw [hlines]
    exact .of_agree (hend h₂)

/-- The reversal leaves every balance alone. -/
theorem quiet_reversePayroll (auth : Auth) (now : DateTime) (runId : Id) (reason : String) :
    Quiet [.gLAccount] (reversePayroll auth now runId reason) := by
  refine (Quiet.require _ _).bind fun _ => (Quiet.query _).bind fun _ => ?_
  refine (Quiet.orFail _ _).bind fun _ => (Quiet.require _ _).bind fun _ => ?_
  refine (Quiet.update (by decide) _ _).bind fun _ => ?_
  exact (Quiet.create (by decide) _).bind fun _ => Quiet.pure _

end Effects

/-! ## From the approval to the reversal -/

/-- What the payment of a run does, if the run is paid. -/
def PaysRun (runId : Id) : Option (Auth × DateTime) → Db → Db → Prop
  | none, s, t => t = s
  | some (auth, now), s, t => ∃ run, (markPayrollPaid auth now runId).run s = (.ok run, t)

/-- A run that is approved, perhaps paid, and reversed.  In between anything may happen, except
that an account never changes its category. -/
structure PayrollCycle (runId : Id) where
  approval : ResolveCall
  request : ApprovalRequest
  payment : Option (Auth × DateTime)
  reversal : Auth × DateTime × String
  submitted : Db
  approved : Db
  due : Db
  paid : Db
  closing : Db
  reversed : Db
  decision : approval.decision = .approve
  requested : submitted.find? .approvalRequest approval.requestId = some request
  type : request.type = .payrollRunApproval
  target : request.targetId = runId
  approves : approval.handler.run submitted = (.ok (), approved)
  categories : ∀ a category, approved.category? a = some category → due.category? a = some category
  pays : PaysRun runId payment due paid
  reverses : ∃ run, (reversePayroll reversal.1 reversal.2.1 runId reversal.2.2).run closing =
    (.ok run, reversed)

namespace PayrollCycle

variable {runId : Id} (c : PayrollCycle runId)

/-- What the run has done to the balance of an account. -/
def netChange (a : Id) : Cents :=
  (c.approved.glBalance a - c.submitted.glBalance a) + (c.paid.glBalance a - c.due.glBalance a) +
    (c.reversed.glBalance a - c.closing.glBalance a)

/-- The lines of the accrual. -/
def accrual : List LineInput :=
  match c.submitted.find? .payrollRun runId with
  | some run => c.submitted.accrualLines c.approval.now runId run
  | none => []

/-- The lines of the settlement. -/
def settlement : List LineInput :=
  match c.payment, c.due.find? .payrollRun runId with
  | some (auth, now), some run => c.due.settlementLines auth now run
  | _, _ => []

theorem movedBy_accrual : c.submitted.MovedBy c.accrual c.approved := by
  obtain ⟨run, hrun, hmoved⟩ := ResolveCall.run_handler_accrual c.decision c.requested c.type c.approves
  rw [c.target] at hrun hmoved
  unfold accrual
  rw [hrun]
  exact hmoved

theorem movedBy_settlement : c.due.MovedBy c.settlement c.paid := by
  have hpays := c.pays
  unfold settlement
  cases hpayment : c.payment with
  | none =>
    rw [hpayment] at hpays
    rw [show c.paid = c.due from hpays]
    exact .of_agree (.refl _)
  | some payment =>
    obtain ⟨auth, now⟩ := payment
    rw [hpayment] at hpays
    obtain ⟨r, hr⟩ := hpays
    obtain ⟨run, hrun, hmoved⟩ := run_markPayrollPaid_movedBy hr
    rw [hrun]
    exact hmoved

theorem reversed_eq (a : Id) : c.reversed.glBalance a = c.closing.glBalance a := by
  obtain ⟨r, hr⟩ := c.reverses
  have hquiet := (quiet_reversePayroll c.reversal.1 c.reversal.2.1 runId c.reversal.2.2).run c.closing
  rw [hr] at hquiet
  exact Db.glBalance_congr (hquiet _ (by decide)) a

/-- The balance of an account is back where it was exactly if the lines cancel on it. -/
theorem netChange_eq_zero (a : Id) :
    c.netChange a = 0 ↔ netOn (entriesOf (c.accrual ++ c.settlement)) a = 0 := by
  have haccrual := c.movedBy_accrual
  have hsettlement := c.movedBy_settlement
  have hchange : c.netChange a = movement c.submitted.side (entriesOf c.accrual) a +
      movement c.due.side (entriesOf c.settlement) a := by
    unfold netChange
    rw [haccrual.balance, hsettlement.balance, c.reversed_eq]
    ring
  have hentries : entriesOf (c.accrual ++ c.settlement) =
      entriesOf c.accrual ++ entriesOf c.settlement := List.map_append
  rw [hchange, hentries]
  cases ha : c.submitted.category? a with
  | some category =>
    apply movement_add_eq_zero
    unfold Db.side
    rw [c.categories a category ((haccrual.category a).trans ha), ha]
  | none =>
    -- The accrual has no line on an account that is not there yet.
    have hzero : netOn (entriesOf c.accrual) a = 0 := haccrual.netOn_eq_zero ha
    have hstill : movement c.submitted.side (entriesOf c.accrual) a = 0 := by
      rw [← Side.sign_eq_zero (c.submitted.side a), sign_movement]
      exact hzero
    have hsign : (c.due.side a).sign (movement c.due.side (entriesOf c.settlement) a) =
        netOn (entriesOf c.settlement) a := sign_movement _ _
    rw [hstill, netOn_append, hzero, zero_add, zero_add, ← hsign, Side.sign_eq_zero]

end PayrollCycle

section Reversed

/-- The approval of the run of `payrollLedger`. -/
def runApproval : ResolveCall :=
  { decision := .approve, auth := ⟨1, 2⟩, now := 5, requestId := 1 }

def payrollSubmitted : Db := ((requestPayrollApproval ⟨1, 1⟩ 1).run payrollLedger).2

def payrollApproved : Db := (runApproval.handler.run payrollSubmitted).2

def payrollPaid : Db := ((markPayrollPaid ⟨1, 1⟩ 5 1).run payrollApproved).2

def payrollReversed : Db := ((reversePayroll ⟨1, 1⟩ 5 1 "Wrong period").run payrollPaid).2

/-- The run is submitted, approved, paid and reversed, one after another. -/
def paidAndReversed : PayrollCycle 1 where
  approval := runApproval
  request := { institutionId := 1, type := .payrollRunApproval, targetType := "PayrollRun",
               targetId := 1, requestedById := 1 }
  payment := some (⟨1, 1⟩, 5)
  reversal := (⟨1, 1⟩, 5, "Wrong period")
  submitted := payrollSubmitted
  approved := payrollApproved
  due := payrollApproved
  paid := payrollPaid
  closing := payrollPaid
  reversed := payrollReversed
  decision := rfl
  requested := rfl
  type := rfl
  target := rfl
  approves := by
    have happroves : (runApproval.handler.run payrollSubmitted).1.toOption = some () := by
      decide +kernel
    exact run_eq_ok_of_toOption happroves
  categories := fun _ _ h => h
  pays := by
    have hpays : ((markPayrollPaid ⟨1, 1⟩ 5 1).run payrollApproved).1.toOption.isSome = true := by
      decide +kernel
    exact exists_run_eq_ok hpays
  reverses := by
    have hreverses : ((reversePayroll ⟨1, 1⟩ 5 1 "Wrong period").run
        payrollPaid).1.toOption.isSome = true := by decide +kernel
    exact exists_run_eq_ok hreverses

end Reversed

end NexusEfos
