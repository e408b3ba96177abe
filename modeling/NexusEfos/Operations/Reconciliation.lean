/-
The reconciliation of a payroll run with the ledger.

The report compares what the accrual journal debits with what the entries of the run come to.  It
reads the run, the journal and the entries one after the other, while payroll and the ledger go on.
The two totals agree all the same: an approval sets the journal that it has just posted over the
entries, the entries of a run never change, and neither do the lines of a journal.
-/
import NexusEfos.Operations.AccrualApprovals
import NexusEfos.Operations.JournalRecords

namespace NexusEfos

open Proc

/-! ## The report -/

/-- What a journal debits. -/
def Journal.totalDebit (j : Journal) : ℚ := (j.lines.map fun l => toNumber l.debit).sum

theorem Journal.totalDebit_eq {j j' : Journal} (h : j'.recorded = j.recorded) :
    j'.totalDebit = j.totalDebit := by
  simp only [Journal.recorded, Prod.mk.injEq] at h
  rw [totalDebit, totalDebit, h.2.2.2.2.2]

/-- What the accrual of some entries has to debit. -/
def expectedTotalDebit (entries : List PayrollEntry) : ℚ :=
  (entries.map fun e =>
    toNumber e.grossPay + toNumber e.ssnitEmployerTier1 + toNumber e.tier2Employer).sum

/-- The answer of `GET /runs/:id/reconciliation`.  The last three fields are there for a run that
has an accrual journal. -/
structure PayrollReconciliation where
  runId : Id
  hasAccrualJournal : Bool
  hasSettlementJournal : Bool
  journalTotalDebit : Option ℚ := none
  expectedTotalDebit : Option ℚ := none
  reconciles : Option Bool := none
  deriving DecidableEq

def payrollReconciliation (auth : Auth) (runId : Id) : Handler PayrollReconciliation := do
  let found ← findById .payrollRun runId fun r => r.institutionId = auth.institutionId
  let run ← Proc.orFail found (.http 404 "Payroll run not found")
  let result : PayrollReconciliation :=
    { runId, hasAccrualJournal := run.accrualJournalId.isSome,
      hasSettlementJournal := run.settlementJournalId.isSome }
  match run.accrualJournalId with
  | none => return result
  | some journalId =>
    let journal ← findUnique .journal journalId
    let journalTotalDebit := (journal.map Journal.totalDebit).getD 0
    let entries ← findMany .payrollEntry fun _ e => e.payrollRunId = runId
    let expected := NexusEfos.expectedTotalDebit (entries.map Prod.snd)
    return { result with
      journalTotalDebit := some (round2 journalTotalDebit),
      expectedTotalDebit := some (round2 expected),
      reconciles := some (decide (|journalTotalDebit - expected| < 1 / 100)) }

/-! ## Runs that trace to their entries -/

/-- The run is there, the figures that its accrual is built from are sound and come from its
entries, and its accrual journal, if it has one, debits what they come to. -/
structure Db.Traced (s : Db) (runId : Id) : Prop where
  there : (s.find? .payrollRun runId).isSome
  sound : ∀ run ∈ s.find? .payrollRun runId, (accrualInputs run (s.entriesOf runId)).Sound
  gross : ∀ run ∈ s.find? .payrollRun runId,
    toNumber run.totalGross = ((s.entriesOf runId).map fun e => toNumber e.grossPay).sum
  journal : ∀ run ∈ s.find? .payrollRun runId, ∀ id ∈ run.accrualJournalId,
    ∃ j ∈ s.find? .journal id, j.totalDebit = expectedTotalDebit (s.entriesOf runId)

section Totals

variable {lines : List PayrollLine} {runId : Id} {run : PayrollRun}

theorem expectedTotalDebit_eq (entries : List PayrollEntry) :
    expectedTotalDebit entries = (entries.map fun e => toNumber e.grossPay).sum +
      (entries.map fun e => toNumber e.ssnitEmployerTier1).sum +
        (entries.map fun e => toNumber e.tier2Employer).sum := by
  unfold expectedTotalDebit
  rw [List.sum_map_add, List.sum_map_add]

/-- The figures of lines none of which is negative. -/
theorem accrualInputs_sound (hlines : ∀ l ∈ lines, l.Sound) (hnonneg : ∀ l ∈ lines, l.Nonneg)
    (hgross : run.totalGross = ofNumber (round2 (lines.map PayrollLine.grossPay).sum))
    (hnet : run.totalNet = ofNumber (round2 (lines.map PayrollLine.netPay).sum)) :
    (accrualInputs run (lines.map (PayrollLine.entry runId))).Sound := by
  have hsum : ∀ g : PayrollLine → ℚ, (∀ l ∈ lines, 0 ≤ g l) → 0 ≤ (lines.map g).sum :=
    fun g h => List.sum_nonneg (List.forall_mem_map.mpr h)
  have hcents : ∀ g : PayrollLine → ℚ, (∀ l ∈ lines, WholeCent (g l)) →
      WholeCent (lines.map g).sum := fun g h => WholeCent.sum (List.forall_mem_map.mpr h)
  rw [accrualInputs_entries hlines hgross hnet]
  exact
    { totalGross := hsum _ fun l hl => (hnonneg l hl).grossPay
      totalPaye := hsum _ fun l hl => (hnonneg l hl).paye
      totalSsnitEmployee := ⟨hsum _ fun l hl => (hnonneg l hl).ssnitEmployee,
        hcents _ fun l hl => (hlines l hl).ssnitEmployee⟩
      totalSsnitEmployerTier1 := ⟨hsum _ fun l hl => (hnonneg l hl).ssnitEmployerTier1,
        hcents _ fun l hl => (hlines l hl).ssnitEmployerTier1⟩
      totalTier2Employer := hsum _ fun l hl => (hnonneg l hl).tier2Employer
      totalOtherDeductions := hsum _ fun l hl => (hnonneg l hl).otherDeductions
      totalNet := hsum _ fun l hl => by
        rw [(hlines l hl).netPay]
        exact le_max_left .. }

theorem sum_entries_grossPay (hlines : ∀ l ∈ lines, l.Sound) :
    ((lines.map (PayrollLine.entry runId)).map fun e => toNumber e.grossPay).sum =
      (lines.map PayrollLine.grossPay).sum := by
  rw [List.map_map]
  exact congrArg List.sum
    (List.map_congr_left fun l hl => (hlines l hl).grossPay.toNumber_ofNumber)

end Totals

/-- A run that has just been processed. -/
theorem run_processPayroll_traced {s t : Db} {auth : Auth} {now : DateTime} {periodId runId : Id}
    (hfigures : s.PayrollFigures) (hentries : s.EntriesHaveRuns)
    (hprocess : (processPayroll auth now periodId).run s = (.ok runId, t)) : t.Traced runId := by
  obtain ⟨rates, hrates, -, hruns, -⟩ := run_processPayroll_eq_ok hprocess
  have hrun := hruns runId
  rw [if_pos rfl] at hrun
  have hnonneg : ∀ l ∈ s.payrollLines auth.institutionId rates, l.Nonneg := by
    rw [Db.payrollLines_eq, List.forall_mem_map]
    intro e he
    exact (hfigures.rates_nonneg hrates).line (hfigures.salaries_nonneg e he)
  have hsound : ∀ l ∈ s.payrollLines auth.institutionId rates, l.Sound := by
    rw [Db.payrollLines_eq, List.forall_mem_map]
    exact fun e _ => rates.line_sound e
  have hof := run_processPayroll_entriesOf hentries hprocess hrates
  constructor
  · rw [hrun]
    rfl
  · intro run hfound
    rw [hof, ← Option.some.inj (hrun.symm.trans hfound)]
    exact accrualInputs_sound hsound hnonneg rfl rfl
  · intro run hfound
    have hcents : WholeCent ((s.payrollLines auth.institutionId rates).map
        PayrollLine.grossPay).sum :=
      WholeCent.sum (List.forall_mem_map.mpr fun l hl => (hsound l hl).grossPay)
    rw [hof, sum_entries_grossPay hsound, ← Option.some.inj (hrun.symm.trans hfound)]
    show toNumber (ofNumber (round2 _)) = _
    rw [hcents.round2_eq, hcents.toNumber_ofNumber]
  · intro run hfound id hid
    rw [← Option.some.inj (hrun.symm.trans hfound)] at hid
    exact absurd hid nofun

/-! ## What payroll and the ledger do to a run -/

/-- The runs keep their accrual journals. -/
abbrev Db.KeepsAccruals (s t : Db) : Prop := s.KeepsRows .payrollRun
  (fun run run' : PayrollRun => run'.accrualJournalId = run.accrualJournalId) t

namespace Db.KeepsAccruals

variable {s t : Db}

theorem of_agree (h : s.Agree [.payrollRun] t) : s.KeepsAccruals t :=
  .of_table_eq (R := fun run run' : PayrollRun => run'.accrualJournalId = run.accrualJournalId)
    (fun _ => rfl) (h .payrollRun (by decide))

theorem modify {f : PayrollRun → PayrollRun}
    (hf : ∀ run, (f run).accrualJournalId = run.accrualJournalId) (s : Db) (id : Id) :
    s.KeepsAccruals (s.modify .payrollRun id f) :=
  KeepsRows.modify (m := .payrollRun)
    (R := fun run run' : PayrollRun => run'.accrualJournalId = run.accrualJournalId)
    (fun _ => rfl) s id hf

theorem create (s : Db) (run : PayrollRun) (lines : List PayrollLine) :
    s.KeepsAccruals (s.storeRun run lines) := by
  intro id row hrow
  rw [storeRun, find?_insertEntries (by decide)]
  exact KeepsRows.insert
    (R := fun run run' : PayrollRun => run'.accrualJournalId = run.accrualJournalId)
    (fun _ => rfl) s run id row hrow

end Db.KeepsAccruals

/-- What is booked of a run and what the journals record stay, and so does its trace. -/
structure Db.KeepsTrace (runId : Id) (s t : Db) : Prop where
  booked : s.KeepsBooked t
  records : s.KeepsRecords t
  traced : s.Traced runId → t.Traced runId

namespace Db.KeepsTrace

variable {runId : Id} {s t u : Db}

theorem trans (h : s.KeepsTrace runId t) (h' : t.KeepsTrace runId u) : s.KeepsTrace runId u where
  booked := h.booked.trans h'.booked
  records := h.records.trans h'.records
  traced := fun hs => h'.traced (h.traced hs)

/-- Of a run that is kept, the accrual is built from the same figures. -/
theorem accrualInputs_eq (h : s.KeepsBooked t) {run run' : PayrollRun}
    (hrun : s.find? .payrollRun runId = some run) (hbooked : run'.booked = run.booked) :
    accrualInputs run' (t.entriesOf runId) = accrualInputs run (s.entriesOf runId) := by
  obtain ⟨-, hamounts⟩ := Prod.mk.inj hbooked
  obtain ⟨-, htotals⟩ := Prod.mk.inj hamounts
  obtain ⟨hgross, hnet⟩ := Prod.mk.inj htotals
  unfold accrualInputs
  rw [h.entries runId (Option.isSome_iff_exists.mpr ⟨run, hrun⟩), hgross, hnet]

/-- The accrual journal of the run is the one it had, or debits what the entries come to. -/
theorem of_accrual (hbooked : s.KeepsBooked t) (hrecords : s.KeepsRecords t)
    (haccrual : s.Traced runId → ∀ run ∈ s.find? .payrollRun runId,
      ∀ run' ∈ t.find? .payrollRun runId, ∀ id ∈ run'.accrualJournalId,
        run.accrualJournalId = some id ∨
          ∃ j ∈ t.find? .journal id, j.totalDebit = expectedTotalDebit (s.entriesOf runId)) :
    s.KeepsTrace runId t where
  booked := hbooked
  records := hrecords
  traced := by
    intro htraced
    obtain ⟨run, hrun⟩ := Option.isSome_iff_exists.mp htraced.there
    obtain ⟨run', hrun', hsame⟩ := hbooked.runs runId run hrun
    have hentries := hbooked.entries runId htraced.there
    have honly : ∀ row ∈ t.find? .payrollRun runId, row = run' :=
      fun row hrow => Option.some.inj (hrow.symm.trans hrun')
    refine ⟨Option.isSome_iff_exists.mpr ⟨run', hrun'⟩, ?_, ?_, ?_⟩
    · intro row hrow
      rw [honly row hrow, accrualInputs_eq hbooked hrun hsame]
      exact htraced.sound run hrun
    · intro row hrow
      obtain ⟨-, hamounts⟩ := Prod.mk.inj hsame
      obtain ⟨-, htotals⟩ := Prod.mk.inj hamounts
      rw [honly row hrow, hentries, (Prod.mk.inj htotals).1]
      exact htraced.gross run hrun
    · intro row hrow id hid
      rw [hentries]
      rcases haccrual htraced run hrun row hrow id hid with hkept | hset
      · obtain ⟨j, hj, hdebit⟩ := htraced.journal run hrun id hkept
        obtain ⟨j', hj', hrecorded⟩ := hrecords id j hj
        exact ⟨j', hj', (Journal.totalDebit_eq hrecorded).trans hdebit⟩
      · exact hset

/-- Whoever leaves the accrual journals of the runs alone keeps the trace. -/
theorem of_kept (hbooked : s.KeepsBooked t) (hrecords : s.KeepsRecords t)
    (haccruals : s.KeepsAccruals t) : s.KeepsTrace runId t := by
  refine of_accrual hbooked hrecords ?_
  intro _ run hrun run' hrun' id hid
  obtain ⟨row, hrow, hsame⟩ := haccruals runId run hrun
  rw [Option.some.inj (hrun'.symm.trans hrow), hsame] at hid
  exact .inl hid

theorem of_agree (h : s.Agree [.payrollRun, .payrollEntry, .journal] t) : s.KeepsTrace runId t :=
  of_kept (.of_agree (h.mono (by decide))) (.of_agree (h.mono (by decide)))
    (.of_agree (h.mono (by decide)))

end Db.KeepsTrace

/-! ## The approval -/

section Approval

variable {s t : Db} {now : DateTime} {approvedById runId : Id} {run : PayrollRun}

/-- An accrual that is posted debits what the entries come to. -/
theorem run_postAccrual_totalDebit (htraced : s.Traced runId)
    (hrun : s.find? .payrollRun runId = some run) {id : Id}
    (h : (postAccrual now approvedById runId run).run s = (.ok (some id), t)) :
    ∃ j, t.find? .journal id = some j ∧ j.totalDebit = expectedTotalDebit (s.entriesOf runId) := by
  let accountIds := accountIdByPurpose ((s.table .payrollGLAccountMapping).entries.filter fun m =>
    m.2.institutionId = run.institutionId)
  let inputs := accrualInputs run (s.entriesOf runId)
  have hposts : (postDraftLines run.institutionId approvedById now (s.accrualDate now run)
      ("Payroll accrual — " ++
        ((s.find? .payrollPeriod run.payrollPeriodId).map PayrollPeriod.name).getD "period")
      (buildPayrollAccrualLines inputs accountIds)).run s = (.ok (some id), t) := by
    have hmapped := run_query_bind h
    split at hmapped
    case isFalse => exact absurd (Except.ok.inj (Prod.mk.inj hmapped).1) nofun
    have hperiod := run_query_bind hmapped
    dsimp only at hperiod
    have hopened := run_query_bind hperiod
    split at hopened
    case isFalse => exact absurd (Except.ok.inj (Prod.mk.inj hopened).1) nofun
    have hentries := run_query_bind hopened
    show (postDraftLines _ _ _ _ _ (buildPayrollAccrualLines (accrualInputs _ _) _)).run s = _
    rw [accrualInputs_entriesOf]
    exact hentries
  have hsound := htraced.sound run hrun
  have hgross := htraced.gross run hrun
  rcases run_postDraftLines_eq_ok hposts with ⟨-, hnone, -⟩ | ⟨lines, -, hlines, -, hid, ht⟩
  · exact absurd hnone nofun
  · rw [Option.some.inj hid, ht, Db.find?_applyEffects_of_ne (by decide), Db.find?_insert,
      if_pos rfl]
    refine ⟨_, rfl, ?_⟩
    have hcents : ∀ f : PayrollEntry → Cents,
        WholeCent ((s.entriesOf runId).map fun e => toNumber (f e)).sum :=
      fun f => WholeCent.sum (List.forall_mem_map.mpr fun e _ => wholeCent_toNumber _)
    have hwhole : ∀ d ∈ buildPayrollAccrualLines inputs accountIds, d.IsWholeCent :=
      isWholeCent_accrualLines (wholeCent_toNumber _) (hcents _) (hcents _) (hcents _) (hcents _)
        (wholeCent_toNumber _)
    have hdebits := (sum_buildPayrollAccrualLines hsound accountIds).1
    have hamounts := amounts_of_mapM hlines
    calc ((lines.map LineInput.stored).map fun l => toNumber l.debit).sum
        = ((buildPayrollAccrualLines inputs accountIds).map DraftLine.debit).sum := by
          rw [← hamounts, List.map_map, List.map_map]
          exact congrArg List.sum
            (List.map_congr_left fun d hd => (hwhole d hd).1.toNumber_ofNumber)
      _ = _ := hdebits
      _ = expectedTotalDebit (s.entriesOf runId) := by
          rw [expectedTotalDebit_eq, ← hgross]
          rfl

/-- The approval of a run sets a journal that debits what the entries come to, or none. -/
theorem run_approvePayrollRun_keepsTrace {target : Id} {u : Unit}
    (h : (approvePayrollRun now approvedById target).run s = (.ok u, t)) :
    s.KeepsTrace runId t := by
  have hbooked := Every.run (fun s => Db.KeepsBooked.of_agree (.refl s)) Db.KeepsBooked.trans
    (approvePayrollRun_keepsBooked now approvedById target) s
  rw [h] at hbooked
  have hrecords := run_keepsRecords (keepsRecords_approvePayrollRun target) h
  obtain ⟨run, s₁, hread, h₁⟩ := Proc.run_bind_eq_ok h
  obtain ⟨hrun, hs₁⟩ := run_findUniqueOrThrow_eq_ok hread
  obtain ⟨journal, s₂, haccrual, h₂⟩ := Proc.run_bind_eq_ok h₁
  rw [hs₁] at haccrual
  obtain ⟨row, s₃, hupdate, h₃⟩ := Proc.run_bind_eq_ok h₂
  obtain ⟨run₂, hrun₂, -, hs₃⟩ := run_update_eq_ok hupdate
  have ht : t = s₃ := (Prod.mk.inj h₃).2.symm
  have hagree : s.Agree [.payrollRun] s₂ := by
    have hquiet : Quiet [.payrollRun] (postAccrual now approvedById target run) :=
      Quiet.postAccrual (by decide) (by decide) _ _ _ _
    have hsame := hquiet.run s
    rwa [haccrual] at hsame
  refine .of_accrual hbooked hrecords fun htraced run₀ hrun₀ run' hrun' id hid => ?_
  rw [Option.mem_def, ht, hs₃, Db.find?_modify, hagree.find? (by decide)] at hrun'
  rw [ht, hs₃, Db.find?_modify_of_ne (by decide)]
  by_cases htarget : runId = target
  · subst htarget
    rw [if_pos rfl, Option.map_eq_some_iff] at hrun'
    obtain ⟨run₁, -, rfl⟩ := hrun'
    have hset : journal = some id := hid
    rw [hset] at haccrual
    exact .inr (run_postAccrual_totalDebit htraced hrun haccrual)
  · rw [if_neg htarget, hrun₀] at hrun'
    rw [← Option.some.inj hrun'] at hid
    exact .inl hid

end Approval

/-! ## The other calls -/

section Calls

variable {α : Type} {runId : Id}

/-- Every statement keeps the trace of the run. -/
abbrev KeepsTrace (runId : Id) (p : Handler α) : Prop := p.Every (Db.KeepsTrace runId)

theorem keepsTrace_rule (runId : Id) : PayrollRule (Db.KeepsTrace runId) where
  of_agree := .of_agree
  of_modify := fun s id hbooked haccrual =>
    .of_kept (.modify hbooked s id) (keepsRecords_rule.of_modify s id hbooked haccrual)
      (.modify haccrual s id)
  of_store := fun {run lines} s hsums =>
    .of_kept (.create s run lines) (keepsRecords_rule.of_store s hsums) (.create s run lines)
  of_post := by
    intro s j
    have hagree : s.Agree [.payrollRun, .payrollEntry] (s.insert .journal j) :=
      Db.Agree.insert (m := .journal) (by decide) s j
    exact .of_kept (.of_agree hagree) (.insert s j) (.of_agree (hagree.mono (by decide)))

/-- The decision of a request, whatever it is about. -/
theorem ResolveCall.keepsTrace (call : ResolveCall) : KeepsTrace runId call.handler := by
  apply EveryStep.every
  apply call.everyStep
  · exact fun _ s => .of_agree (.refl s)
  intro existing s t hrun
  obtain ⟨-, u, -, -, heffect, ht⟩ := run_inTx_effect hrun
  have hclaimed : s.KeepsTrace runId (s.modify .approvalRequest call.requestId call.resolve) :=
    .of_agree (Db.Agree.modify (m := .approvalRequest) (by decide) s _ _)
  have hlogged : u.KeepsTrace runId t := by
    rw [ht]
    exact .of_agree (Db.Agree.insert (m := .auditLog) (by decide) u _)
  refine (hclaimed.trans ?_).trans hlogged
  by_cases htype : existing.type = .payrollRunApproval
  · unfold effect at heffect
    cases hdecision : call.decision with
    | approve =>
      simp only [hdecision, applyApproval, htype] at heffect
      exact run_approvePayrollRun_keepsTrace heffect
    | reject =>
      simp only [hdecision, applyRejection, htype] at heffect
      have hshelved : KeepsTrace runId (do
          let _ ← update .payrollRun existing.targetId fun r => { r with status := .processed } :
          Handler Unit) :=
        Every.bind ((keepsTrace_rule runId).updateRun _ _ (fun _ => rfl) fun _ => rfl)
          fun _ => trivial
      have hkept := Every.run (fun s => Db.KeepsTrace.of_agree (.refl s)) Db.KeepsTrace.trans
        hshelved (s.modify .approvalRequest call.requestId call.resolve)
      rwa [heffect] at hkept
  · have hquiet : Quiet [.payrollRun, .payrollEntry] (call.effect existing) := by
      apply call.quiet_effect
      cases htype' : existing.type
      case payrollRunApproval => exact absurd htype' htype
      all_goals decide
    have hagree := hquiet.run (s.modify .approvalRequest call.requestId call.resolve)
    rw [heffect] at hagree
    exact .of_kept (.of_agree hagree)
      (run_keepsRecords (call.effect_keepsRecords existing) heffect)
      (.of_agree (hagree.mono (by decide)))

/-- A call while a run waits, is approved or is settled: to payroll, for its reconciliation, or to
anything else that leaves payroll alone and the record of every journal. -/
inductive ReconciliationCall
  | process (auth : Auth) (now : DateTime) (periodId : Id)
  | requestApproval (auth : Auth) (runId : Id)
  | resolve (call : ResolveCall)
  | markPaid (auth : Auth) (now : DateTime) (runId : Id)
  | reverse (auth : Auth) (now : DateTime) (runId : Id) (reason : String)
  | report (auth : Auth) (runId : Id)
  | other (p : Handler Unit) (quiet : Quiet [.payrollRun, .payrollEntry] p)
      (records : NexusEfos.KeepsRecords p)

/-- The answer of a call, if it is a report. -/
def ReconciliationCall.handler : ReconciliationCall → Handler (Option PayrollReconciliation)
  | process auth now periodId => do let _ ← processPayroll auth now periodId; return none
  | requestApproval auth runId => do requestPayrollApproval auth runId; return none
  | resolve call => do call.handler; return none
  | markPaid auth now runId => do let _ ← markPayrollPaid auth now runId; return none
  | reverse auth now runId reason => do let _ ← reversePayroll auth now runId reason; return none
  | report auth runId => do
    let result ← payrollReconciliation auth runId
    return some result
  | other p _ _ => do p; return none

def reconciliationPool {ι : Type} (calls : ι → ReconciliationCall) (s : Db) :
    Pool ι Access Db Failure (Option PayrollReconciliation) :=
  ⟨fun i => (calls i).handler, s⟩

/-- A report on the run shows that it reconciles, if it has an accrual. -/
def PayrollReconciliation.Agrees (report : PayrollReconciliation) : Prop :=
  report.hasAccrualJournal = true →
    report.journalTotalDebit = report.expectedTotalDebit ∧ report.reconciles = some true

/-- While a process waits, the trace of the run is kept. -/
def traceProtocol (runId : Id) : Protocol Access Db Unit where
  rely := Db.KeepsTrace runId
  guar := fun _ _ _ _ _ => True
  refl := fun s => .of_agree (.refl s)
  trans := Db.KeepsTrace.trans

theorem traceProtocol_watches (runId : Id) :
    (traceProtocol runId).Watches [.payrollRun, .payrollEntry, .journal] :=
  fun _ _ _ _ hagree => ⟨.of_agree hagree, trivial⟩

/-- The report reads in three statements, and what it has read stays true. -/
theorem payrollReconciliation_follows (auth : Auth) (id : Id) {s : Db} (hs : s.Traced runId) :
    (payrollReconciliation auth id).Follows (traceProtocol runId)
      (fun _ _ r => ∀ report, r = .ok report → report.runId = runId → report.Agrees) s () := by
  have hW := traceProtocol_watches runId
  by_cases hid : id = runId
  case neg =>
    -- A report on another run carries the id of that run.
    refine hW.query fun t _ => Follows.orFail (fun run _ => ?_) fun _ => by nofun
    dsimp only
    cases run.accrualJournalId with
    | none =>
      intro report hreport hrun
      exact absurd ((congrArg PayrollReconciliation.runId (Except.ok.inj hreport)).trans hrun) hid
    | some journalId =>
      refine hW.query fun u _ => hW.query fun v _ => ?_
      intro report hreport hrun
      exact absurd ((congrArg PayrollReconciliation.runId (Except.ok.inj hreport)).trans hrun) hid
  rw [hid]
  refine hW.query fun t ht => Follows.orFail (fun run hrun => ?_) fun _ => by nofun
  have htraced := ht.traced hs
  obtain ⟨hrow, -⟩ := Option.filter_eq_some_iff.mp hrun
  dsimp only
  cases haccrual : run.accrualJournalId with
  | none =>
    intro report hreport _
    rw [← Except.ok.inj hreport]
    exact nofun
  | some journalId =>
    obtain ⟨j, hj, hdebit⟩ := htraced.journal run hrow journalId haccrual
    refine hW.query fun u hu => hW.query fun v hv => ?_
    obtain ⟨j', hj', hrecorded⟩ := hu.records journalId j hj
    have htotal : ((u.find? .journal journalId).map Journal.totalDebit).getD 0 =
        expectedTotalDebit (t.entriesOf runId) := by
      rw [hj', Option.map_some, Option.getD_some, Journal.totalDebit_eq hrecorded, hdebit]
    have hentries : ((v.table .payrollEntry).entries.filter fun e =>
        decide (e.2.payrollRunId = runId)).map Prod.snd = t.entriesOf runId := by
      rw [← (hu.trans hv).booked.entries runId htraced.there, Db.entriesOf, OrderedMap.values,
        List.filter_map]
      rfl
    intro report hreport _
    rw [← Except.ok.inj hreport, htotal, hentries]
    refine fun _ => ⟨rfl, ?_⟩
    rw [sub_self, abs_zero]
    exact congrArg some (decide_eq_true (by norm_num))

/-- Whoever leaves payroll and the record of every journal alone. -/
theorem keepsTrace_of_quiet {p : Handler α} (hquiet : Quiet [.payrollRun, .payrollEntry] p)
    (hrecords : NexusEfos.KeepsRecords p) : KeepsTrace runId p := by
  refine (Every.and hquiet hrecords).imp ?_
  rintro s t ⟨hagree, hkept⟩
  exact .of_kept (.of_agree hagree) hkept (.of_agree (hagree.mono (by decide)))

end Calls

section Runs

variable {ι : Type} [DecidableEq ι] {runId : Id}

/-- What a call answers about the run agrees. -/
theorem ReconciliationCall.follows (call : ReconciliationCall) {s : Db} (hs : s.Traced runId) :
    call.handler.Follows (traceProtocol runId) (fun _ _ r => ∀ report, r = .ok (some report) →
      report.runId = runId → report.Agrees) s () := by
  have hsilent : ∀ {α : Type} {p : Handler α}, KeepsTrace runId p →
      (do let _ ← p; return none : Handler (Option PayrollReconciliation)).Follows
        (traceProtocol runId) (fun _ _ r => ∀ report, r = .ok (some report) →
          report.runId = runId → report.Agrees) s () := by
    intro α p hp
    have hfollows : p.Follows (traceProtocol runId) (fun _ _ _ => True) s () :=
      (Follows.of_every (fun _ _ _ _ h => ⟨h, trivial⟩) hp).imp fun _ _ _ _ => trivial
    refine hfollows.bind (fun _ _ _ _ => ?_) fun _ _ _ _ => ?_
    · exact fun report hreport => absurd (Except.ok.inj hreport) nofun
    · exact fun report hreport => absurd hreport nofun
  have hrule := keepsTrace_rule runId
  cases call with
  | report auth id =>
    refine (payrollReconciliation_follows auth id hs).bind (fun _ _ result hresult => ?_) ?_
    · intro report hreport hrun
      have hsame : result = report := Option.some.inj (Except.ok.inj hreport)
      exact hresult report (congrArg Except.ok hsame) hrun
    · exact fun _ _ _ _ report hreport => absurd hreport nofun
  | process auth now periodId => exact hsilent (hrule.processPayroll auth now periodId)
  | requestApproval auth id => exact hsilent (hrule.requestPayrollApproval auth id)
  | resolve call => exact hsilent call.keepsTrace
  | markPaid auth now id => exact hsilent (hrule.markPayrollPaid auth now id)
  | reverse auth now id reason => exact hsilent (hrule.reversePayroll auth now id reason)
  | other p quiet records => exact hsilent (keepsTrace_of_quiet quiet records)

/-- Once a run has been processed, every report on it shows that the ledger agrees with its entries,
if it has an accrual at all, whatever happens before the report and between its statements. -/
theorem payroll_run_reconciles {s t : Db} {auth : Auth} {now : DateTime} {periodId : Id}
    (hfigures : s.PayrollFigures) (hentries : s.EntriesHaveRuns)
    (hprocess : (processPayroll auth now periodId).run s = (.ok runId, t))
    (calls : ι → ReconciliationCall) (sched : List ι) (i : ι) (report : PayrollReconciliation)
    (hdone : ((reconciliationPool calls t).run sched).threads i = .done (.ok (some report)))
    (hreport : report.runId = runId) : report.Agrees := by
  have htraced := run_processPayroll_traced hfigures hentries hprocess
  have hstart : (reconciliationPool calls t).Follows (traceProtocol runId)
      (fun _ r => ∀ report, r = .ok (some report) → report.runId = runId → report.Agrees)
      fun _ => () := fun i => (calls i).follows htraced
  obtain ⟨_, hfollows⟩ := hstart.run sched
  have hend := hfollows i
  rw [hdone] at hend
  exact hend report rfl hreport

end Runs

/-- What a process has answered. -/
def Proc.answer? {ℓ σ ε α : Type} : Proc ℓ σ ε α → Option α
  | .done (.ok a) => some a
  | .done (.error _) => none
  | .stmt .. => none

theorem Proc.answer?_eq_some {ℓ σ ε α : Type} {p : Proc ℓ σ ε α} {a : α}
    (h : p.answer? = some a) : p = .done (.ok a) := by
  cases p with
  | done r =>
    cases r with
    | ok b => exact congrArg (fun b => Proc.done (.ok b)) (Option.some.inj h)
    | error e => exact absurd h nofun
  | stmt lab act k => exact absurd h nofun

/-- January is sent for approval, approved by another user, and reported on. -/
def januaryReport : Fin 3 → ReconciliationCall
  | 0 => .requestApproval ⟨1, 1⟩ 1
  | 1 => .resolve { decision := .approve, auth := ⟨1, 2⟩, now := 45, requestId := 1 }
  | 2 => .report ⟨1, 3⟩ 1

/-- The office in which January has been processed. -/
def januaryProcessed : Db :=
  ((processPayroll ⟨1, 1⟩ 40 1).run (accrualOffice [⟨1, 20000, false, true⟩])).2

theorem run_processPayroll_january :
    (processPayroll ⟨1, 1⟩ 40 1).run (accrualOffice [⟨1, 20000, false, true⟩]) =
      (.ok 1, januaryProcessed) := by
  have hid : ((processPayroll ⟨1, 1⟩ 40 1).run
      (accrualOffice [⟨1, 20000, false, true⟩])).1 = .ok 1 := by decide +kernel
  exact Prod.ext hid rfl

/-- The gross pay of 1,000.00 and the employer's shares of 200.00. -/
theorem payroll_run_reconciles_january :
    ∃ report, ((reconciliationPool januaryReport januaryProcessed).run
      [0, 0, 0, 1, 1, 2, 2, 2]).threads 2 = .done (.ok (some report)) ∧
        report.hasAccrualJournal = true ∧ report.journalTotalDebit = some 1200 ∧
          report.Agrees := by
  have hanswer : (((reconciliationPool januaryReport januaryProcessed).run
      [0, 0, 0, 1, 1, 2, 2, 2]).threads 2).answer? = some (some
        { runId := 1, hasAccrualJournal := true, hasSettlementJournal := false,
          journalTotalDebit := some 1200, expectedTotalDebit := some 1200,
          reconciles := some true }) := by decide +kernel
  have hdone := Proc.answer?_eq_some hanswer
  have hentries : (accrualOffice [⟨1, 20000, false, true⟩]).EntriesHaveRuns :=
    fun _ he => absurd he nofun
  have hfigures : (accrualOffice [⟨1, 20000, false, true⟩]).PayrollFigures :=
    accrualOffice_figures (by decide)
  refine ⟨_, hdone, rfl, rfl, ?_⟩
  exact payroll_run_reconciles hfigures hentries run_processPayroll_january januaryReport
    [0, 0, 0, 1, 1, 2, 2, 2] 2 _ hdone rfl

end NexusEfos
