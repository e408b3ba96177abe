/-
The approval of a payroll run, whenever it comes.

What is booked of a run and of its entries is settled when the run is processed: nothing that happens
to payroll afterwards changes it.  The approval therefore posts the accrual that the processing has
laid down.
-/
import NexusEfos.Operations.PayrollAccruals

namespace NexusEfos

open Proc

/-! ## What is booked of a run -/

/-- The run, as its accrual reads it. -/
def PayrollRun.booked (run : PayrollRun) : Id × Id × Cents × Cents :=
  (run.institutionId, run.payrollPeriodId, run.totalGross, run.totalNet)

/-- The runs are kept, with what is booked of them and of their entries. -/
structure Db.KeepsBooked (s t : Db) : Prop where
  runs : s.KeepsRows .payrollRun (fun run run' : PayrollRun => run'.booked = run.booked) t
  entries : ∀ id, (s.find? .payrollRun id).isSome → t.entriesOf id = s.entriesOf id

namespace Db.KeepsBooked

variable {s t u : Db}

theorem of_agree (h : s.Agree [.payrollRun, .payrollEntry] t) : s.KeepsBooked t where
  runs := KeepsRows.of_table_eq (R := fun run run' : PayrollRun => run'.booked = run.booked)
    (fun _ => rfl) (h .payrollRun (by decide))
  entries := by
    intro id _
    unfold entriesOf
    rw [h .payrollEntry (by decide)]

theorem trans (h : s.KeepsBooked t) (h' : t.KeepsBooked u) : s.KeepsBooked u where
  runs := h.runs.trans (fun _ _ _ hfirst hsecond => hsecond.trans hfirst) h'.runs
  entries := by
    intro id hsome
    obtain ⟨run, hrun⟩ := Option.isSome_iff_exists.mp hsome
    obtain ⟨run', hrun', -⟩ := h.runs id run hrun
    rw [h'.entries id (Option.isSome_iff_exists.mpr ⟨run', hrun'⟩), h.entries id hsome]

theorem modify {f : PayrollRun → PayrollRun} (hf : ∀ run, (f run).booked = run.booked) (s : Db)
    (id : Id) : s.KeepsBooked (s.modify .payrollRun id f) where
  runs := KeepsRows.modify (m := .payrollRun)
    (R := fun run run' : PayrollRun => run'.booked = run.booked) (fun _ => rfl) s id hf
  entries := by
    intro id' _
    unfold entriesOf
    rw [Db.table_modify_of_ne (by decide)]

/-- A new run has its own entries. -/
theorem create (s : Db) (run : PayrollRun) (lines : List PayrollLine) :
    s.KeepsBooked (lines.foldl
      (fun t l => t.insert .payrollEntry (l.entry (s.nextId .payrollRun)))
      (s.insert .payrollRun run)) where
  runs := by
    intro id row hrow
    rw [find?_insertEntries (by decide)]
    exact KeepsRows.insert (R := fun run run' : PayrollRun => run'.booked = run.booked)
      (fun _ => rfl) s run id row hrow
  entries := by
    intro id hsome
    have hid : s.nextId .payrollRun ≠ id := by
      rintro rfl
      have hnone : s.find? .payrollRun (s.nextId .payrollRun) = none := OrderedMap.get?_nextKey _
      rw [hnone] at hsome
      exact absurd hsome nofun
    have hother : (lines.map (PayrollLine.entry (s.nextId .payrollRun))).filter
        (fun e => e.payrollRunId = id) = [] := by
      rw [List.filter_eq_nil_iff]
      intro e he
      obtain ⟨l, -, rfl⟩ := List.mem_map.mp he
      exact fun hrun => hid (of_decide_eq_true hrun)
    unfold entriesOf
    rw [values_insertEntries, Db.table_insert_of_ne (by decide), List.filter_append, hother,
      List.append_nil]

end Db.KeepsBooked

/-! ## What happens to payroll -/

section Activities

/-- No statement touches what is booked of a run. -/
abbrev KeepsBooked {α : Type} (p : Handler α) : Prop := p.Every Db.KeepsBooked

theorem Quiet.keepsBooked {α : Type} {p : Handler α} (h : Quiet [.payrollRun, .payrollEntry] p) :
    KeepsBooked p := Every.imp h fun _ _ hagree => .of_agree hagree

theorem keepsBooked_updateAs (lab : Access) (id : Id) {f : PayrollRun → PayrollRun}
    (hf : ∀ run, (f run).booked = run.booked) : KeepsBooked (updateAs lab .payrollRun id f) := by
  refine ⟨fun s => ?_, fun _ => trivial⟩
  cases h : s.find? .payrollRun id with
  | some row => simpa only [h] using Db.KeepsBooked.modify hf s id
  | none => simpa only [h] using Db.KeepsBooked.of_agree (Db.Agree.refl s)

theorem processPayroll_keepsBooked (auth : Auth) (now : DateTime) (periodId : Id) :
    KeepsBooked (processPayroll auth now periodId) := by
  have hquery : ∀ {α : Type} (f : Db → α), KeepsBooked (query f) :=
    fun f => (Quiet.query f).keepsBooked
  refine (hquery _).bind fun period => (Every.orFail _ _).bind fun _ => ?_
  refine (hquery _).bind fun existingRun => (Every.require _ _).bind fun _ => ?_
  refine (hquery _).bind fun foundTable => (Every.orFail _ _).bind fun taxTable => ?_
  refine (hquery _).bind fun statutoryRates => (Every.orFail _ _).bind fun rates => ?_
  refine (hquery _).bind fun activeStructures => (hquery _).bind fun earningCodes => ?_
  have hcreate : ∀ (run : PayrollRun) (lines : List PayrollLine),
      KeepsBooked (createPayrollRun run lines) := by
    intro run lines
    refine ⟨fun s => ?_, fun _ => trivial⟩
    by_cases hdue : run.payrollPeriodId ∈ (s.table .payrollRun).values.map PayrollRun.payrollPeriodId
    · simpa only [if_pos hdue] using Db.KeepsBooked.of_agree (Db.Agree.refl s)
    · simpa only [if_neg hdue] using Db.KeepsBooked.create s run lines
  refine Every.bind (hcreate _ _) fun run => ?_
  refine (Quiet.update (by decide) _ _).keepsBooked.bind fun _ => ?_
  exact (Quiet.create (by decide) _).keepsBooked.bind fun _ => trivial

theorem requestPayrollApproval_keepsBooked (auth : Auth) (runId : Id) :
    KeepsBooked (requestPayrollApproval auth runId) := by
  refine (Quiet.query _).keepsBooked.bind fun found => (Every.orFail _ _).bind fun run => ?_
  refine (Every.require _ _).bind fun _ => ?_
  refine (Quiet.create (by decide) _).keepsBooked.bind fun _ => ?_
  exact Every.bind (keepsBooked_updateAs _ _ fun _ => rfl) fun _ => trivial

theorem markPayrollPaid_keepsBooked (auth : Auth) (now : DateTime) (runId : Id) :
    KeepsBooked (markPayrollPaid auth now runId) := by
  have hsettle : ∀ run, KeepsBooked (postSettlement auth now runId run) := by
    intro run
    refine (Quiet.query _).keepsBooked.bind fun mappings => ?_
    split
    · trivial
    · apply Quiet.keepsBooked
      refine @Writes.quiet _ [.journal, .gLAccount] _ _ ?_ (by decide)
      refine (Writes.query _).bind fun accountById => (Writes.query _).bind fun period => ?_
      refine (Writes.query _).bind fun glPeriod => Writes.ite ?_ (Writes.pure _)
      refine (Writes.createJournalAs (by decide) _ _).bind fun journal => ?_
      exact (Writes.applyLinesById (by decide) _ _).bind fun _ => Writes.pure _
  refine (Quiet.query _).keepsBooked.bind fun found => (Every.orFail _ _).bind fun run => ?_
  refine (Every.require _ _).bind fun _ => ?_
  have hpay : ∀ journal : Option Id, KeepsBooked (do
      let updated ← updateAs { payroll := some (.pay runId journal) } .payrollRun runId fun r =>
        { r with status := .paid, paidById := some auth.userId, paidAt := some now,
                 settlementJournalId := journal }
      let _ ← create .auditLog
        { institutionId := auth.institutionId, userId := some auth.userId,
          action := "payroll_run.mark_paid", resource := "payroll_run", resourceId := some runId }
      return updated) := by
    intro journal
    refine Every.bind (keepsBooked_updateAs _ _ fun _ => rfl) fun _ => ?_
    exact (Quiet.create (by decide) _).keepsBooked.bind fun _ => trivial
  dsimp only
  split
  · exact (hsettle run).bind fun journal => hpay journal
  · exact hpay none

theorem reversePayroll_keepsBooked (auth : Auth) (now : DateTime) (runId : Id) (reason : String) :
    KeepsBooked (reversePayroll auth now runId reason) := by
  refine (Every.require _ _).bind fun _ => (Quiet.query _).keepsBooked.bind fun found => ?_
  refine (Every.orFail _ _).bind fun run => (Every.require _ _).bind fun _ => ?_
  refine Every.bind (keepsBooked_updateAs _ _ fun _ => rfl) fun _ => ?_
  exact (Quiet.create (by decide) _).keepsBooked.bind fun _ => trivial

theorem approvePayrollRun_keepsBooked (now : DateTime) (approvedById runId : Id) :
    KeepsBooked (approvePayrollRun now approvedById runId) := by
  refine (Quiet.findUniqueOrThrow _ _).keepsBooked.bind fun run => ?_
  refine (Quiet.postAccrual (by decide) (by decide) _ _ _ _).keepsBooked.bind fun journal => ?_
  exact Every.bind (keepsBooked_updateAs _ _ fun _ => rfl) fun _ => trivial

/-- The decision of a request, whatever it is about. -/
theorem ResolveCall.effect_keepsBooked (call : ResolveCall) (existing : ApprovalRequest) :
    KeepsBooked (call.effect existing) := by
  by_cases htype : existing.type = .payrollRunApproval
  · unfold effect
    cases call.decision with
    | approve =>
      simp only [applyApproval, htype]
      exact approvePayrollRun_keepsBooked _ _ _
    | reject =>
      simp only [applyRejection, htype]
      exact Every.bind (keepsBooked_updateAs _ _ fun _ => rfl) fun _ => trivial
  · apply Quiet.keepsBooked
    apply call.quiet_effect
    cases htype' : existing.type
    case payrollRunApproval => exact absurd htype' htype
    all_goals decide

theorem ResolveCall.keepsBooked (call : ResolveCall) : KeepsBooked call.handler := by
  have hevery : call.handler.EveryStep fun _ => Db.KeepsBooked := by
    apply call.everyStep
    · exact fun _ s => .of_agree (.refl s)
    · intro existing s t hrun
      obtain ⟨row, v, -, -, heffect, ht⟩ := run_inTx_effect hrun
      have hkept := Every.run (fun s => Db.KeepsBooked.of_agree (.refl s)) Db.KeepsBooked.trans
        (call.effect_keepsBooked existing) (s.modify .approvalRequest call.requestId call.resolve)
      rw [heffect] at hkept
      rw [ht]
      have hclaim : s.KeepsBooked (s.modify .approvalRequest call.requestId call.resolve) :=
        .of_agree (Db.Agree.modify (by decide) _ _ _)
      exact (hclaim.trans hkept).trans (.of_agree (Db.Agree.insert (by decide) _ _))
  exact hevery.every

/-- What happens while a run waits: to payroll, or to anything else. -/
inductive PayrollActivity
  | process (auth : Auth) (now : DateTime) (periodId : Id)
  | requestApproval (auth : Auth) (runId : Id)
  | resolve (call : ResolveCall)
  | markPaid (auth : Auth) (now : DateTime) (runId : Id)
  | reverse (auth : Auth) (now : DateTime) (runId : Id) (reason : String)
  | other (p : Handler Unit) (h : Quiet [.payrollRun, .payrollEntry] p)

def PayrollActivity.handler : PayrollActivity → Handler Unit
  | process auth now periodId => do let _ ← processPayroll auth now periodId
  | requestApproval auth runId => requestPayrollApproval auth runId
  | resolve call => call.handler
  | markPaid auth now runId => do let _ ← markPayrollPaid auth now runId
  | reverse auth now runId reason => do let _ ← reversePayroll auth now runId reason
  | other p _ => p

theorem PayrollActivity.keepsBooked (activity : PayrollActivity) : KeepsBooked activity.handler := by
  cases activity with
  | process auth now periodId =>
    exact (processPayroll_keepsBooked auth now periodId).bind fun _ => trivial
  | requestApproval auth runId => exact requestPayrollApproval_keepsBooked auth runId
  | resolve call => exact call.keepsBooked
  | markPaid auth now runId =>
    exact (markPayrollPaid_keepsBooked auth now runId).bind fun _ => trivial
  | reverse auth now runId reason =>
    exact (reversePayroll_keepsBooked auth now runId reason).bind fun _ => trivial
  | other p h => exact h.keepsBooked

variable {ι : Type} [DecidableEq ι]

def payrollActivityPool (activities : ι → PayrollActivity) (s : Db) :
    Pool ι Access Db Failure Unit :=
  ⟨fun i => (activities i).handler, s⟩

/-- Whatever happens, in whatever interleaving. -/
theorem payrollActivityPool_keepsBooked (activities : ι → PayrollActivity) (s : Db)
    (sched : List ι) : s.KeepsBooked ((payrollActivityPool activities s).run sched).state := by
  have hall : ∀ i, ((payrollActivityPool activities s).threads i).EveryStep fun _ =>
      Db.KeepsBooked := fun i =>
    EveryStep.of_every (fun _ _ _ h => h) (activities i).keepsBooked
  exact Pool.run_rel (fun s => Db.KeepsBooked.of_agree (Db.Agree.refl s)) Db.KeepsBooked.trans
    (fun _ _ _ h _ => h) hall (Pool.allowed_true _ sched)

end Activities

/-! ## The approval -/

namespace Db

/-- Every account that an accrual needs is mapped, and there. -/
def AccrualMapped (s : Db) (institutionId : Id) : Prop :=
  ∀ p ∈ requiredAccrualPurposes,
    ∃ a ∈ accountIdByPurpose ((s.table .payrollGLAccountMapping).entries.filter fun m =>
      m.2.institutionId = institutionId) p, (s.find? .gLAccount a).isSome

instance (s : Db) (institutionId : Id) : Decidable (s.AccrualMapped institutionId) :=
  inferInstanceAs (Decidable (∀ p ∈ requiredAccrualPurposes, ∃ a ∈ accountIdByPurpose _ p, _))

/-- What is booked of a run balances, on whatever accounts. -/
def AccrualBalances (s : Db) (runId : Id) : Prop :=
  ∀ run ∈ s.find? .payrollRun runId, ∀ accountIds : String → Option Id,
    (∀ p ∈ requiredAccrualPurposes, (accountIds p).isSome) →
      isBalanced ((buildPayrollAccrualLines (accrualInputs run (s.entriesOf runId))
        accountIds).map DraftLine.amounts) = true

/-- The run is approved, and its accrual is posted. -/
def AccrualPosted (s : Db) (runId : Id) : Prop :=
  ∃ run ∈ s.find? .payrollRun runId, run.status = .approved ∧
    ∃ id ∈ run.accrualJournalId, ∃ journal ∈ s.find? .journal id, journal.status = .posted

/-- Nothing else of a run counts for its accrual. -/
theorem KeepsBooked.accrualBalances {s t : Db} (h : s.KeepsBooked t) {runId : Id}
    (hthere : (s.find? .payrollRun runId).isSome) (hbalances : s.AccrualBalances runId) :
    t.AccrualBalances runId := by
  intro run hrun accountIds hmapped
  obtain ⟨run₀, hrun₀⟩ := Option.isSome_iff_exists.mp hthere
  obtain ⟨run', hrun', hbooked⟩ := h.runs runId run₀ hrun₀
  rw [Option.mem_def, hrun'] at hrun
  obtain rfl := Option.some.inj hrun
  have hsame : accrualInputs run' (t.entriesOf runId) = accrualInputs run₀ (s.entriesOf runId) := by
    obtain ⟨-, hamounts⟩ := Prod.mk.inj hbooked
    obtain ⟨-, htotals⟩ := Prod.mk.inj hamounts
    obtain ⟨hgross, hnet⟩ := Prod.mk.inj htotals
    unfold accrualInputs
    rw [h.entries runId hthere, hgross, hnet]
  rw [hsame]
  exact hbalances run₀ hrun₀ accountIds hmapped

end Db

theorem mem_buildPayrollAccrualLines {inputs : PayrollAccrualInputs}
    {accountIds : String → Option Id} {d : DraftLine}
    (h : d ∈ buildPayrollAccrualLines inputs accountIds) :
    ∃ p ∈ requiredAccrualPurposes, d.accountId = accountIds p := by
  rw [buildPayrollAccrualLines_eq] at h
  have hd := (List.mem_filter.mp h).1
  simp only [allAccrualLines, List.mem_cons, List.not_mem_nil, or_false] at hd
  rcases hd with rfl | rfl | rfl | rfl | rfl | rfl | rfl | rfl
  all_goals exact ⟨_, by decide, rfl⟩

section Approval

variable {s : Db} {now : DateTime} {approvedById runId : Id} {run : PayrollRun}

theorem accrualInputs_entriesOf (s : Db) (runId : Id) (run : PayrollRun) :
    accrualInputs run (s.entriesOf runId) =
      let total := fun f : PayrollEntry → Cents => (((s.table .payrollEntry).entries.filter fun e =>
        e.2.payrollRunId = runId).map fun e => toNumber (f e.2)).sum
      { totalGross := toNumber run.totalGross, totalPaye := total PayrollEntry.paye,
        totalSsnitEmployee := total PayrollEntry.ssnitEmployee,
        totalSsnitEmployerTier1 := total PayrollEntry.ssnitEmployerTier1,
        totalTier2Employer := total PayrollEntry.tier2Employer,
        totalOtherDeductions := total PayrollEntry.otherDeductions,
        totalNet := toNumber run.totalNet } := by
  unfold accrualInputs Db.entriesOf OrderedMap.values
  simp only [List.filter_map, List.map_map]
  rfl

/-- A balanced accrual is posted. -/
theorem run_postAccrual_posts (hmapped : s.AccrualMapped run.institutionId)
    (hpostable : s.Postable run.institutionId (s.accrualDate now run))
    (hbalances : s.AccrualBalances runId) (hrun : s.find? .payrollRun runId = some run) :
    ∃ t, (postAccrual now approvedById runId run).run s = (.ok (some (s.nextId .journal)), t) ∧
      t.find? .payrollRun runId = some run ∧
        ∃ journal ∈ t.find? .journal (s.nextId .journal), journal.status = .posted := by
  let accountIds := accountIdByPurpose ((s.table .payrollGLAccountMapping).entries.filter fun m =>
    m.2.institutionId = run.institutionId)
  have hall : (requiredAccrualPurposes.all fun p => (accountIds p).isSome) = true := by
    rw [List.all_eq_true]
    intro p hp
    obtain ⟨a, ha, -⟩ := hmapped p hp
    exact Option.isSome_iff_exists.mpr ⟨a, ha⟩
  let inputs := accrualInputs run (s.entriesOf runId)
  have hbalanced : isBalanced ((buildPayrollAccrualLines inputs accountIds).map
      DraftLine.amounts) = true := hbalances run hrun accountIds (List.all_eq_true.mp hall)
  have hlines : (buildPayrollAccrualLines inputs accountIds).mapM DraftLine.line? =
      some ((buildPayrollAccrualLines inputs accountIds).map DraftLine.amounts) := by
    apply mapM_line?
    intro d hd
    obtain ⟨p, hp, haccount⟩ := mem_buildPayrollAccrualLines hd
    rw [haccount]
    exact List.all_eq_true.mp hall p hp
  have hfound : ∀ l ∈ (buildPayrollAccrualLines inputs accountIds).map DraftLine.amounts,
      (s.find? .gLAccount l.accountId).isSome := by
    intro l hl
    obtain ⟨d, hd, rfl⟩ := List.mem_map.mp hl
    obtain ⟨p, hp, haccount⟩ := mem_buildPayrollAccrualLines hd
    obtain ⟨a, ha, hthere⟩ := hmapped p hp
    have hmaps : d.accountId = some a := haccount.trans ha
    unfold DraftLine.amounts
    rw [hmaps]
    exact hthere
  have hposts : (postDraftLines run.institutionId approvedById now (s.accrualDate now run)
      ("Payroll accrual — " ++
        ((s.find? .payrollPeriod run.payrollPeriodId).map PayrollPeriod.name).getD "period")
      (buildPayrollAccrualLines inputs accountIds)).run s = _ :=
    run_postDraftLines hbalanced hlines hfound
  refine ⟨_, Eq.trans ?_ hposts, ?_, ?_⟩
  · unfold postAccrual
    show (if _ then _ else _ : Handler (Option Id)).run s = _
    rw [if_pos hall]
    show (if s.Postable run.institutionId (s.accrualDate now run) then _ else _ :
      Handler (Option Id)).run s = _
    rw [if_pos hpostable]
    show (postDraftLines _ _ _ _ _ (buildPayrollAccrualLines _ accountIds)).run s = _
    rw [← accrualInputs_entriesOf]
    rfl
  · rw [Db.find?_applyEffects_of_ne (by decide), Db.find?_insert_of_ne (by decide)]
    exact hrun
  · rw [Db.find?_applyEffects_of_ne (by decide), Db.find?_insert, if_pos rfl]
    exact ⟨_, rfl, rfl⟩

/-- The approval of a run whose accrual balances. -/
theorem run_approvePayrollRun_posts (hmapped : s.AccrualMapped run.institutionId)
    (hpostable : s.Postable run.institutionId (s.accrualDate now run))
    (hbalances : s.AccrualBalances runId) (hrun : s.find? .payrollRun runId = some run) :
    ∃ t, (approvePayrollRun now approvedById runId).run s = (.ok (), t) ∧ t.AccrualPosted runId := by
  obtain ⟨u, haccrual, hrun', hjournal⟩ :=
    @run_postAccrual_posts s now approvedById runId run hmapped hpostable hbalances hrun
  let approve := fun r : PayrollRun =>
    { r with status := .approved, approvedById := some approvedById, approvedAt := some now,
             accrualJournalId := some (s.nextId .journal) }
  have happroved := run_update .payrollRun runId approve u
  rw [hrun'] at happroved
  refine ⟨u.modify .payrollRun runId approve, ?_, ?_⟩
  · have hread := run_findUniqueOrThrow .payrollRun runId s
    rw [hrun] at hread
    unfold approvePayrollRun
    rw [Proc.run_bind_ok hread, Proc.run_bind_ok haccrual]
    exact Proc.run_bind_ok happroved _
  · refine ⟨approve run, ?_, rfl, s.nextId .journal, rfl, ?_⟩
    · rw [Db.find?_modify, if_pos rfl, hrun']
      rfl
    · rw [Db.find?_modify_of_ne (by decide)]
      exact hjournal

end Approval

/-! ## From the salaries to the accrual -/

/-- The deductions from every salary fit into it, and not every salary costs nothing. -/
def Db.SalariesCover (s : Db) (institutionId : Id) : Prop :=
  ∀ rates ∈ s.payrollRates? institutionId,
    (∀ e ∈ s.activeSalaries institutionId, rates.DeductionsFit e) ∧
      ∃ e ∈ s.activeSalaries institutionId, rates.Costs e

instance (s : Db) (institutionId : Id) : Decidable (s.SalariesCover institutionId) :=
  inferInstanceAs (Decidable (∀ rates ∈ s.payrollRates? institutionId, _ ∧ _))

section Salaries

variable {s t : Db} {auth : Auth} {now : DateTime} {periodId runId : Id}

/-- What processing promises of the entries and of the accrual. -/
theorem run_processPayroll_accrual (hfigures : s.PayrollFigures) (hentries : s.EntriesHaveRuns)
    (hprocess : (processPayroll auth now periodId).run s = (.ok runId, t)) :
    (∀ e ∈ t.entriesOf runId, e.Adds) ∧ t.AccrualBalances runId ↔
      s.SalariesCover auth.institutionId := by
  obtain ⟨rates, hrates, -, hruns, -⟩ := run_processPayroll_eq_ok hprocess
  have hrun := hruns runId
  rw [if_pos rfl] at hrun
  have hnonneg : ∀ l ∈ s.payrollLines auth.institutionId rates, l.Nonneg := by
    rw [Db.payrollLines_eq, List.forall_mem_map]
    intro e he
    exact (hfigures.rates_nonneg hrates).line (hfigures.salaries_nonneg e he)
  have hsound : ∀ l ∈ s.payrollLines auth.institutionId rates, l.Sound := by
    rw [Db.payrollLines_eq, List.forall_mem_map]
    exact fun e _ => rates.line_sound e
  have hfits : (∀ l ∈ s.payrollLines auth.institutionId rates, l.Fits) ↔
      ∀ e ∈ s.activeSalaries auth.institutionId, rates.DeductionsFit e := by
    rw [Db.payrollLines_eq, List.forall_mem_map]
    rfl
  have hcosts : (∃ l ∈ s.payrollLines auth.institutionId rates,
      0 < l.grossPay + l.ssnitEmployerTier1 + l.tier2Employer) ↔
        ∃ e ∈ s.activeSalaries auth.institutionId, rates.Costs e := by
    simp only [Db.payrollLines_eq, List.mem_map, exists_exists_and_eq_and]
    rfl
  have hbalances : (∀ l ∈ s.payrollLines auth.institutionId rates, l.Fits) →
      (t.AccrualBalances runId ↔ ∃ l ∈ s.payrollLines auth.institutionId rates,
        0 < l.grossPay + l.ssnitEmployerTier1 + l.tier2Employer) := by
    intro hfit
    have hline := @isBalanced_accrual (s.payrollLines auth.institutionId rates) runId hsound
      hnonneg hfit (processedRun auth.institutionId periodId auth.userId now
        (s.payrollLines auth.institutionId rates)) rfl rfl
    unfold Db.AccrualBalances
    rw [hrun, run_processPayroll_entriesOf hentries hprocess hrates]
    constructor
    · intro h
      exact (hline fun _ => some 0).mp (h _ rfl _ fun _ _ => rfl)
    · intro hcost run hfound accountIds _
      rw [← Option.some.inj hfound]
      exact (hline accountIds).mpr hcost
  have hadds : (∀ e ∈ t.entriesOf runId, e.Adds) ↔
      ∀ l ∈ s.payrollLines auth.institutionId rates, l.Fits := by
    rw [run_processPayroll_entriesOf hentries hprocess hrates, List.forall_mem_map]
    exact forall₂_congr fun l hl => (hsound l hl).adds_iff
  have hcover : s.SalariesCover auth.institutionId ↔
      (∀ e ∈ s.activeSalaries auth.institutionId, rates.DeductionsFit e) ∧
        ∃ e ∈ s.activeSalaries auth.institutionId, rates.Costs e := by
    unfold Db.SalariesCover
    rw [hrates]
    exact ⟨fun h => h rates rfl, fun h rates' hrates' => Option.some.inj hrates' ▸ h⟩
  rw [hcover, hadds, ← hfits, ← hcosts]
  exact and_congr_right hbalances

/-- The entries of a run add up, its accrual balances, and its approval posts the accrual after
whatever has happened, if and only if the deductions from every salary fit into it and not every
salary costs nothing. -/
theorem payroll_accrual_posts_iff (hfigures : s.PayrollFigures) (hentries : s.EntriesHaveRuns)
    (hprocess : (processPayroll auth now periodId).run s = (.ok runId, t)) :
    ((∀ e ∈ t.entriesOf runId, e.Adds) ∧ t.AccrualBalances runId ∧
      ∀ (ι : Type) [DecidableEq ι] (activities : ι → PayrollActivity) (sched : List ι)
        (later : DateTime) (approvedById : Id) (request : ApprovalRequest) (run : PayrollRun) (u : Db),
        u = ((payrollActivityPool activities t).run sched).state →
          request.type = .payrollRunApproval → request.targetId = runId →
            u.find? .payrollRun runId = some run → u.AccrualMapped run.institutionId →
              u.Postable run.institutionId (u.accrualDate later run) →
                ∃ v, (applyApproval later request approvedById).run u = (.ok (), v) ∧
                  v.AccrualPosted runId) ↔
      s.SalariesCover auth.institutionId := by
  rw [← run_processPayroll_accrual hfigures hentries hprocess]
  constructor
  · rintro ⟨hadds, hbalances, -⟩
    exact ⟨hadds, hbalances⟩
  · rintro ⟨hadds, hbalances⟩
    refine ⟨hadds, hbalances, ?_⟩
    intro ι _ activities sched later approvedById request run u hu htype htarget hrun hmapped hpostable
    obtain ⟨rates, -, -, hruns, -⟩ := run_processPayroll_eq_ok hprocess
    have hthere : (t.find? .payrollRun runId).isSome := by
      rw [hruns, if_pos rfl]
      rfl
    have hkept := payrollActivityPool_keepsBooked activities t sched
    rw [← hu] at hkept
    have hbalances' := hkept.accrualBalances hthere hbalances
    simp only [applyApproval, htype, htarget]
    exact run_approvePayrollRun_posts hmapped hpostable hbalances' hrun

end Salaries

/-- An institution that keeps accounts and is ready to pay its one employee in January, with these
deductions. -/
def accrualOffice (deductions : List EmployeeDeduction) : Db :=
  requiredAccrualPurposes.foldl
    (fun s purpose => s.insert .payrollGLAccountMapping
      ⟨1, purpose, if purpose = "Salary Expense" then 1 else 2⟩)
    (((((payrollOffice.insert .gLAccount
      { institutionId := 1, code := "5000", name := "Salaries", category := .expense }).insert
      .gLAccount
      { institutionId := 1, code := "2100", name := "Payable", category := .liability }).insert
      .financialPeriod { institutionId := 1, startDate := 0, endDate := 30 }).insert .payrollPeriod
      { institutionId := 1, calendarId := 1, name := "January", startDate := 0, endDate := 30,
        payDate := 30 }).modify .employeeSalaryStructure 1 fun e => { e with deductions })

theorem accrualOffice_figures {deductions : List EmployeeDeduction}
    (h : ∀ d ∈ deductions, 0 ≤ d.amount) : (accrualOffice deductions).PayrollFigures where
  structures := by
    intro e he
    obtain rfl := List.mem_singleton.mp he
    exact ⟨show (0 : Cents) ≤ 100000 by decide, nofun, h⟩
  bands := by
    intro t ht
    obtain rfl := List.mem_singleton.mp ht
    exact nofun
  rates := by
    let rate := fun name =>
      ({ institutionId := 1, name, rate := 10, effectiveDate := 0, active := true } :
        StatutoryContributionRate)
    have hrate : ∀ name, (rate name).Nonneg := fun name => ⟨by norm_num [rate], nofun, nofun⟩
    have hrates : ((accrualOffice deductions).table .statutoryContributionRate).values =
        ["SSNIT Employee", "SSNIT Employer Tier 1", "Tier 2 Employer"].map rate := rfl
    rw [hrates, List.forall_mem_map]
    exact fun name _ => hrate name

/-- January, for an employee who pays a due of 200.00. -/
theorem payroll_accrual_posts_iff_accrualOffice :
    let s := accrualOffice [⟨1, 20000, false, true⟩]
    let t := ((processPayroll ⟨1, 1⟩ 40 1).run s).2
    t.entriesOf 1 ≠ [] ∧ (∀ e ∈ t.entriesOf 1, e.Adds) ∧ t.AccrualBalances 1 := by
  intro s t
  have hfigures : s.PayrollFigures := accrualOffice_figures (by decide)
  have hentries : s.EntriesHaveRuns := fun _ he => absurd he nofun
  have hposts := (payroll_accrual_posts_iff hfigures hentries
    (show (processPayroll ⟨1, 1⟩ 40 1).run s = (.ok 1, t) from rfl)).mpr (by decide +kernel)
  exact ⟨by decide +kernel, hposts.1, hposts.2.1⟩

/-- A due of the whole salary leaves nothing for social security.  The entry does not add up, and
the approval posts no accrual though the accounts are mapped and the period is open. -/
theorem payroll_accrual_short :
    let s := accrualOffice [⟨1, 100000, false, true⟩]
    let t := ((processPayroll ⟨1, 1⟩ 40 1).run s).2
    let u := ((approvePayrollRun 45 2 1).run t).2
    ¬ (∀ e ∈ t.entriesOf 1, e.Adds) ∧ t.AccrualMapped 1 ∧ t.Postable 1 30 ∧
      (u.find? .payrollRun 1).map (fun r => (r.status, r.accrualJournalId)) =
        some (.approved, none) := by
  decide +kernel

end NexusEfos
