/-
The payroll reports: `GET /reports/summary`, `/reports/by-department`, `/reports/by-branch` and
`/reports/disbursement` of `routes/payroll.routes.ts`.

The disbursement report adds up the totals that are stored with the runs, the others the entries.
A run is stored together with its entries and its totals, which are theirs, and nothing that happens
to it later changes either.  So the reports agree in every state.
-/
import NexusEfos.Operations.Reconciliation

namespace NexusEfos

open Proc

/-! ## The reports -/

/-- The runs that are approved or paid, with their entries. -/
def Db.reportedRuns (s : Db) (institutionId : Id) : List (PayrollRun × List PayrollEntry) :=
  ((s.table .payrollRun).entries.filter fun r => r.2.institutionId = institutionId ∧
    r.2.status ∈ [PayrollRunStatus.approved, .paid]).map fun r => (r.2, s.entriesOf r.1)

structure PayrollSummary where
  totalRuns : ℕ
  totalGross : ℚ
  totalPaye : ℚ
  totalSsnit : ℚ
  totalTier2 : ℚ
  totalOtherDeductions : ℚ
  totalNet : ℚ
  employeeCount : ℕ

/-- What some entries come to. -/
def entryTotal (f : PayrollEntry → Cents) (entries : List PayrollEntry) : ℚ :=
  (entries.map fun e => toNumber (f e)).sum

def payrollSummary (auth : Auth) : Handler PayrollSummary := do
  let runs ← query fun s => s.reportedRuns auth.institutionId
  let allEntries := runs.flatMap Prod.snd
  return { totalRuns := runs.length,
           totalGross := round2 (entryTotal PayrollEntry.grossPay allEntries),
           totalPaye := round2 (entryTotal PayrollEntry.paye allEntries),
           totalSsnit := round2 (allEntries.map fun e =>
             toNumber e.ssnitEmployee + toNumber e.ssnitEmployerTier1).sum,
           totalTier2 := round2 (entryTotal PayrollEntry.tier2Employer allEntries),
           totalOtherDeductions := round2 (entryTotal PayrollEntry.otherDeductions allEntries),
           totalNet := round2 (entryTotal PayrollEntry.netPay allEntries),
           employeeCount := (allEntries.map PayrollEntry.employeeId).toFinset.card }

/-- What is known of a group of employees. -/
structure CostGroup where
  totalGross : ℚ := 0
  totalNet : ℚ := 0
  employees : Finset Id := ∅

def CostGroup.add (group : Option CostGroup) (entry : PayrollEntry) : CostGroup :=
  let d := group.getD {}
  { totalGross := d.totalGross + toNumber entry.grossPay,
    totalNet := d.totalNet + toNumber entry.netPay,
    employees := insert entry.employeeId d.employees }

structure CostRow where
  group : Option Id
  totalGross : ℚ
  totalNet : ℚ
  employeeCount : ℕ

/-- The loop over the entries.  Who has no group is unassigned. -/
def costGroups (groupOf : PayrollEntry → Option Id) (entries : List PayrollEntry) :
    OrderedMap (Option Id) CostGroup :=
  OrderedMap.empty.accumulate groupOf CostGroup.add entries

/-- The costs of the groups that the employees are in. -/
def payrollCosts (group : Employee → Option Id) (auth : Auth) : Handler (List CostRow) := do
  let runs ← query fun s => s.reportedRuns auth.institutionId
  let allEntries := runs.flatMap Prod.snd
  let employees ← findMany .employee fun id _ => id ∈ allEntries.map PayrollEntry.employeeId
  let empById := fun id => (employees.find? fun e => e.1 = id).map Prod.snd
  let groups := costGroups (fun entry => (empById entry.employeeId).bind group) allEntries
  return groups.entries.map fun g =>
    { group := g.1, totalGross := round2 g.2.totalGross, totalNet := round2 g.2.totalNet,
      employeeCount := g.2.employees.card }

def payrollByDepartment (auth : Auth) : Handler (List CostRow) :=
  payrollCosts Employee.departmentId auth

def payrollByBranch (auth : Auth) : Handler (List CostRow) := payrollCosts Employee.branchId auth

structure DisbursementSummary where
  totalRuns : ℕ
  totalPaid : ℚ
  pendingApproval : ℕ
  approvedNotYetPaid : ℕ
  reversed : ℕ

def disbursementReport (auth : Auth) : Handler DisbursementSummary := do
  let runs ← query fun s => (s.table .payrollRun).values.filter fun r =>
    r.institutionId = auth.institutionId
  let withStatus := fun status => runs.filter fun r : PayrollRun => r.status = status
  return { totalRuns := runs.length,
           totalPaid := ((withStatus .paid).map fun r => toNumber r.totalNet).sum,
           pendingApproval := (withStatus .pendingApproval).length,
           approvedNotYetPaid := (withStatus .approved).length,
           reversed := (withStatus .reversed).length }

/-! ## The runs and their entries -/

/-- The totals of the runs are those of their entries. -/
structure Db.RunsAddUp (s : Db) : Prop where
  entries : s.EntriesHaveRuns
  totals : ∀ id run, s.find? .payrollRun id = some run →
    toNumber run.totalGross = entryTotal PayrollEntry.grossPay (s.entriesOf id) ∧
      toNumber run.totalNet = entryTotal PayrollEntry.netPay (s.entriesOf id)

namespace Db.RunsAddUp

variable {s t : Db}

/-- The runs are the same, as far as they are booked, and so are their entries. -/
theorem of_kept (hs : s.RunsAddUp) (h : s.KeepsBooked t)
    (hruns : ∀ id, (t.find? .payrollRun id).isSome → (s.find? .payrollRun id).isSome)
    (hentries : t.table .payrollEntry = s.table .payrollEntry) : t.RunsAddUp := by
  constructor
  · intro e he
    rw [hentries] at he
    obtain ⟨run, hrun⟩ := Option.isSome_iff_exists.mp (hs.entries e he)
    obtain ⟨run', hrun', -⟩ := h.runs _ run hrun
    rw [hrun']
    rfl
  · intro id run' hrun'
    obtain ⟨run, hrun⟩ := Option.isSome_iff_exists.mp (hruns id (by rw [hrun']; rfl))
    obtain ⟨row, hrow, hbooked⟩ := h.runs id run hrun
    obtain rfl := Option.some.inj (hrun'.symm.trans hrow)
    simp only [PayrollRun.booked, Prod.mk.injEq] at hbooked
    rw [h.entries id (by rw [hrun]; rfl), hbooked.2.2.1, hbooked.2.2.2]
    exact hs.totals id run hrun

theorem of_agree (hs : s.RunsAddUp) (h : s.Agree [.payrollRun, .payrollEntry] t) : t.RunsAddUp :=
  hs.of_kept (.of_agree h) (fun id hid => by rwa [h.find? (by decide)] at hid)
    (h .payrollEntry (by decide))

theorem modify (hs : s.RunsAddUp) {f : PayrollRun → PayrollRun}
    (hf : ∀ run, (f run).booked = run.booked) (id : Id) :
    (s.modify .payrollRun id f).RunsAddUp := by
  refine hs.of_kept (.modify hf s id) (fun id' hid => ?_) (Db.table_modify_of_ne (by decide) ..)
  rw [Db.find?_modify] at hid
  split at hid
  · rwa [Option.isSome_map] at hid
  · exact hid

/-- A line is stored as an entry with the same figures. -/
theorem entryTotal_entries {lines : List PayrollLine} {f : PayrollEntry → Cents}
    {g : PayrollLine → ℚ} (runId : Id) (hcents : ∀ l ∈ lines, WholeCent (g l))
    (hstored : ∀ l : PayrollLine, f (l.entry runId) = ofNumber (g l)) :
    entryTotal f (lines.map (PayrollLine.entry runId)) =
      toNumber (ofNumber (round2 (lines.map g).sum)) := by
  have hsum : WholeCent (lines.map g).sum := WholeCent.sum (List.forall_mem_map.mpr hcents)
  rw [hsum.round2_eq, hsum.toNumber_ofNumber, entryTotal, List.map_map]
  refine congrArg List.sum (List.map_congr_left fun l hl => ?_)
  show toNumber (f (l.entry runId)) = g l
  rw [hstored, (hcents l hl).toNumber_ofNumber]

/-- The new run has the entries of its lines and no others, as no entry was there before its run. -/
theorem entriesOf_storeRun (hentries : s.EntriesHaveRuns) (run : PayrollRun)
    (lines : List PayrollLine) : (s.storeRun run lines).entriesOf (s.nextId .payrollRun) =
      lines.map (PayrollLine.entry (s.nextId .payrollRun)) := by
  have hnone : (s.table .payrollEntry).values.filter
      (fun e => e.payrollRunId = s.nextId .payrollRun) = [] := by
    rw [List.filter_eq_nil_iff]
    intro e he hrun
    have hthere := hentries e he
    have hfresh : s.find? .payrollRun (s.nextId .payrollRun) = none := OrderedMap.get?_nextKey _
    rw [of_decide_eq_true hrun, hfresh] at hthere
    exact absurd hthere nofun
  have hall : (lines.map (PayrollLine.entry (s.nextId .payrollRun))).filter
      (fun e => e.payrollRunId = s.nextId .payrollRun) =
        lines.map (PayrollLine.entry (s.nextId .payrollRun)) := by
    rw [List.filter_eq_self]
    intro e he
    obtain ⟨l, -, rfl⟩ := List.mem_map.mp he
    exact decide_eq_true rfl
  rw [Db.entriesOf, Db.storeRun, values_insertEntries, Db.table_insert_of_ne (by decide),
    List.filter_append, hnone, hall, List.nil_append]

theorem storeRun (hs : s.RunsAddUp) {run : PayrollRun} {lines : List PayrollLine}
    (hsums : run.Sums lines) : (s.storeRun run lines).RunsAddUp := by
  constructor
  · intro e he
    rw [Db.storeRun, values_insertEntries, Db.table_insert_of_ne (by decide), List.mem_append] at he
    rw [Db.find?_storeRun]
    split
    case isTrue => rfl
    case isFalse hother =>
      rcases he with hold | hnew
      · exact hs.entries e hold
      · obtain ⟨l, -, rfl⟩ := List.mem_map.mp hnew
        exact absurd rfl hother
  · intro id row hrow
    rw [Db.find?_storeRun] at hrow
    split at hrow
    case isTrue hid =>
      rw [hid, ← Option.some.inj hrow, entriesOf_storeRun hs.entries, hsums.gross, hsums.net]
      constructor
      · exact (entryTotal_entries _ (fun l hl => (hsums.sound l hl).grossPay) fun _ => rfl).symm
      · have hnet : ∀ l ∈ lines, WholeCent l.netPay :=
          fun l hl => (hsums.sound l hl).wholeCent_netPay
        exact (entryTotal_entries _ hnet fun _ => rfl).symm
    case isFalse hid =>
      have hkept : s.KeepsBooked (s.storeRun run lines) := .create s run lines
      rw [hkept.entries id (by rw [hrow]; rfl)]
      exact hs.totals id row hrow

end Db.RunsAddUp

/-! ## What payroll does to the totals -/

section Calls

variable {α : Type}

/-- Every statement leaves the runs adding up. -/
abbrev KeepsTotals (p : Handler α) : Prop := p.Every fun s t => s.RunsAddUp → t.RunsAddUp

theorem keepsTotals_rule : PayrollRule fun s t => s.RunsAddUp → t.RunsAddUp where
  of_agree := fun h hs => hs.of_agree (h.mono (by decide))
  of_modify := fun _ id hbooked _ hs => hs.modify hbooked id
  of_store := fun _ hsums hs => hs.storeRun hsums
  of_post := fun s j hs => hs.of_agree (Db.Agree.insert (m := .journal) (by decide) s j)

theorem Quiet.keepsTotals {p : Handler α} (h : Quiet [.payrollRun, .payrollEntry] p) :
    KeepsTotals p := Every.imp h fun _ _ hagree hs => hs.of_agree hagree

theorem ResolveCall.effect_keepsTotals (call : ResolveCall) (existing : ApprovalRequest) :
    KeepsTotals (call.effect existing) := by
  have hupdate : ∀ (id : Id) {f : PayrollRun → PayrollRun}, (∀ run, (f run).booked = run.booked) →
      KeepsTotals (update .payrollRun id f) := by
    intro id f hf
    refine ⟨fun s hs => ?_, fun _ => trivial⟩
    cases h : s.find? .payrollRun id with
    | some row => simpa only [h] using hs.modify hf id
    | none => simpa only [h] using hs
  by_cases htype : existing.type = .payrollRunApproval
  · unfold effect
    cases call.decision with
    | approve =>
      simp only [applyApproval, htype]
      refine (Quiet.findUniqueOrThrow _ _).keepsTotals.bind fun run => ?_
      refine (Quiet.postAccrual (by decide) (by decide) _ _ _ _).keepsTotals.bind fun journal => ?_
      exact Every.bind (hupdate _ fun _ => rfl) fun _ => trivial
    | reject =>
      simp only [applyRejection, htype]
      exact Every.bind (hupdate _ fun _ => rfl) fun _ => trivial
  · apply Quiet.keepsTotals
    apply call.quiet_effect
    cases htype' : existing.type
    case payrollRunApproval => exact absurd htype' htype
    all_goals decide

theorem ResolveCall.keepsTotals (call : ResolveCall) : KeepsTotals call.handler := by
  apply EveryStep.every
  apply call.everyStep
  · exact fun _ _ hs => hs
  intro existing s t hrun hs
  obtain ⟨-, u, -, -, heffect, ht⟩ := run_inTx_effect hrun
  have hclaimed : (s.modify .approvalRequest call.requestId call.resolve).RunsAddUp :=
    hs.of_agree (Db.Agree.modify (m := .approvalRequest) (by decide) s _ _)
  have hkept := Every.run (fun _ hs => hs) (fun h h' hs => h' (h hs))
    (call.effect_keepsTotals existing) (s.modify .approvalRequest call.requestId call.resolve)
      hclaimed
  rw [heffect] at hkept
  rw [ht]
  exact hkept.of_agree (Db.Agree.insert (m := .auditLog) (by decide) u _)

theorem PayrollActivity.keepsTotals (activity : PayrollActivity) :
    KeepsTotals activity.handler := by
  have hrule := keepsTotals_rule
  cases activity with
  | process auth now periodId =>
    exact (hrule.processPayroll auth now periodId).bind fun _ => trivial
  | requestApproval auth runId => exact hrule.requestPayrollApproval auth runId
  | resolve call => exact call.keepsTotals
  | markPaid auth now runId => exact (hrule.markPayrollPaid auth now runId).bind fun _ => trivial
  | reverse auth now runId reason =>
    exact (hrule.reversePayroll auth now runId reason).bind fun _ => trivial
  | other p h => exact h.keepsTotals

end Calls

/-! ## The reports of one state -/

section Reports

variable {s : Db}

theorem entryTotal_flatMap (f : PayrollEntry → Cents)
    (runs : List (PayrollRun × List PayrollEntry)) :
    entryTotal f (runs.flatMap Prod.snd) =
      (runs.map fun r => entryTotal f r.2).sum := by
  induction runs with
  | nil => rfl
  | cons r runs ih =>
    rw [List.flatMap_cons, List.map_cons, List.sum_cons, ← ih]
    unfold entryTotal
    rw [List.map_append, List.sum_append]

theorem wholeCent_entryTotal (f : PayrollEntry → Cents) (entries : List PayrollEntry) :
    WholeCent (entryTotal f entries) :=
  WholeCent.sum (List.forall_mem_map.mpr fun _ _ => wholeCent_toNumber _)

/-- Every entry is in one group, with all that it comes to. -/
theorem sum_costGroups (groupOf : PayrollEntry → Option Id) (entries : List PayrollEntry)
    (amount : CostGroup → ℚ) (f : PayrollEntry → Cents) (hzero : amount {} = 0)
    (hadd : ∀ o e, amount (CostGroup.add o e) = amount (o.getD {}) + toNumber (f e)) :
    ((costGroups groupOf entries).entries.map fun g => round2 (amount g.2)).sum =
      round2 (entryTotal f entries) := by
  have hcent : ∀ k g, (costGroups groupOf entries).get? k = some g → WholeCent (amount g) := by
    intro k g hg
    refine OrderedMap.get?_accumulate_induction (fun _ g => WholeCent (amount g)) ?_ nofun hg
    intro e _ o ho
    rw [hadd]
    refine WholeCent.add ?_ (wholeCent_toNumber _)
    cases o with
    | none =>
      show WholeCent (amount {})
      rw [hzero]
      exact .zero
    | some g => exact ho g rfl
  calc ((costGroups groupOf entries).entries.map fun g => round2 (amount g.2)).sum
      = (costGroups groupOf entries).total fun _ => amount := by
        refine congrArg List.sum (List.map_congr_left fun g hg => ?_)
        exact (hcent g.1 g.2 (OrderedMap.get?_eq_some.mpr hg)).round2_eq
    _ = entryTotal f entries := by
        have htotal : (costGroups groupOf entries).total (fun _ => amount) =
            (OrderedMap.empty : OrderedMap (Option Id) CostGroup).total (fun _ => amount) +
              entryTotal f entries := by
          refine OrderedMap.total_accumulate _ (fun _ _ => True) (fun _ _ _ _ => trivial) ?_
            fun _ _ _ => trivial
          intro e _ o _
          rw [hadd]
          cases o with
          | none => exact congrArg (· + toNumber (f e)) hzero
          | some g => rfl
        rw [OrderedMap.total_empty, zero_add] at htotal
        exact htotal
    _ = round2 (entryTotal f entries) := (wholeCent_entryTotal f entries).round2_eq.symm

/-- What the runs of an institution that have a status pay out, by their stored totals. -/
def Db.netOfRuns (s : Db) (institutionId : Id) (status : PayrollRunStatus) : ℚ :=
  ((((s.table .payrollRun).values.filter fun r => r.institutionId = institutionId).filter
    fun r => r.status = status).map fun r => toNumber r.totalNet).sum

/-- A run that is reported is approved or paid, and not both. -/
theorem sum_reportedRuns (s : Db) (institutionId : Id) :
    ((s.reportedRuns institutionId).map fun r => toNumber r.1.totalNet).sum =
      s.netOfRuns institutionId .paid + s.netOfRuns institutionId .approved := by
  unfold Db.reportedRuns Db.netOfRuns OrderedMap.values
  generalize (s.table .payrollRun).entries = runs
  induction runs with
  | nil => simp
  | cons r runs ih =>
    by_cases hinst : r.2.institutionId = institutionId
    · cases hstatus : r.2.status <;> simp_all <;> ring
    · simp_all

/-- The totals that are stored with the runs are those of their entries. -/
theorem Db.RunsAddUp.entryTotal_reportedRuns (hs : s.RunsAddUp) (institutionId : Id) :
    entryTotal PayrollEntry.grossPay ((s.reportedRuns institutionId).flatMap Prod.snd) =
        ((s.reportedRuns institutionId).map fun r => toNumber r.1.totalGross).sum ∧
      entryTotal PayrollEntry.netPay ((s.reportedRuns institutionId).flatMap Prod.snd) =
        ((s.reportedRuns institutionId).map fun r => toNumber r.1.totalNet).sum := by
  have hrun : ∀ r ∈ s.reportedRuns institutionId,
      toNumber r.1.totalGross = entryTotal PayrollEntry.grossPay r.2 ∧
        toNumber r.1.totalNet = entryTotal PayrollEntry.netPay r.2 := by
    intro r hr
    obtain ⟨e, he, rfl⟩ := List.mem_map.mp hr
    exact hs.totals e.1 e.2 (OrderedMap.get?_eq_some.mpr (List.mem_filter.mp he).1)
  rw [entryTotal_flatMap, entryTotal_flatMap]
  constructor
  · exact congrArg List.sum (List.map_congr_left fun r hr => (hrun r hr).1.symm)
  · exact congrArg List.sum (List.map_congr_left fun r hr => (hrun r hr).2.symm)

/-- The rows of a cost report add up to the totals of the summary. -/
def CostRow.AddUpTo (rows : List CostRow) (summary : PayrollSummary) : Prop :=
  (rows.map CostRow.totalGross).sum = summary.totalGross ∧
    (rows.map CostRow.totalNet).sum = summary.totalNet

/-- The reports of one state agree with each other and with what is stored with the runs. -/
def Db.ReportsAgree (s : Db) (auth : Auth) : Prop :=
  ∃ summary departments branches disbursement,
    (payrollSummary auth).run s = (.ok summary, s) ∧
    (payrollByDepartment auth).run s = (.ok departments, s) ∧
    (payrollByBranch auth).run s = (.ok branches, s) ∧
    (disbursementReport auth).run s = (.ok disbursement, s) ∧
    CostRow.AddUpTo departments summary ∧ CostRow.AddUpTo branches summary ∧
    summary.totalGross =
      ((s.reportedRuns auth.institutionId).map fun r => toNumber r.1.totalGross).sum ∧
    disbursement.totalPaid = s.netOfRuns auth.institutionId .paid ∧
    summary.totalNet = disbursement.totalPaid + s.netOfRuns auth.institutionId .approved

theorem run_payrollCosts (group : Employee → Option Id) (auth : Auth) {summary : PayrollSummary}
    (hsummary : (payrollSummary auth).run s = (.ok summary, s)) :
    ∃ rows, (payrollCosts group auth).run s = (.ok rows, s) ∧ CostRow.AddUpTo rows summary := by
  have hanswer := Except.ok.inj (Prod.mk.inj hsummary).1
  refine ⟨_, rfl, ?_, ?_⟩
  · rw [← hanswer, List.map_map]
    exact sum_costGroups _ _ CostGroup.totalGross PayrollEntry.grossPay rfl fun _ _ => rfl
  · rw [← hanswer, List.map_map]
    exact sum_costGroups _ _ CostGroup.totalNet PayrollEntry.netPay rfl fun _ _ => rfl

theorem Db.RunsAddUp.reportsAgree (hs : s.RunsAddUp) (auth : Auth) : s.ReportsAgree auth := by
  obtain ⟨departments, hdepartments, hbydepartment⟩ :=
    run_payrollCosts Employee.departmentId auth (show (payrollSummary auth).run s = _ from rfl)
  obtain ⟨branches, hbranches, hbybranch⟩ :=
    run_payrollCosts Employee.branchId auth (show (payrollSummary auth).run s = _ from rfl)
  obtain ⟨hgross, hnet⟩ := hs.entryTotal_reportedRuns auth.institutionId
  refine ⟨_, departments, branches, _, rfl, hdepartments, hbranches, rfl, hbydepartment, hbybranch,
    ?_, rfl, ?_⟩
  · exact ((wholeCent_entryTotal _ _).round2_eq).trans hgross
  · exact ((wholeCent_entryTotal _ _).round2_eq).trans (hnet.trans (sum_reportedRuns s _))

end Reports

/-! ## Every state -/

section Runs

variable {ι : Type} [DecidableEq ι]

end Runs

/-- January is processed, sent for approval, approved and paid. -/
def januaryPaid : Fin 4 → PayrollActivity
  | 0 => .process ⟨1, 1⟩ 40 1
  | 1 => .requestApproval ⟨1, 1⟩ 1
  | 2 => .resolve { decision := .approve, auth := ⟨1, 2⟩, now := 45, requestId := 1 }
  | 3 => .markPaid ⟨1, 1⟩ 46 1

end NexusEfos
