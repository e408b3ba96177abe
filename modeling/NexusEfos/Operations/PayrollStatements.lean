/-
What the statements of payroll do, whatever is asked of them.

Every handler goes through the same few kinds of statements.  A relation of two states that holds of
each kind holds of every statement of every handler.
-/
import NexusEfos.Operations.AccrualApprovals

namespace NexusEfos

open Proc

/-- A run that is stored with what its lines come to. -/
structure PayrollRun.Sums (run : PayrollRun) (lines : List PayrollLine) : Prop where
  sound : ∀ l ∈ lines, l.Sound
  gross : run.totalGross = ofNumber (round2 (lines.map PayrollLine.grossPay).sum)
  net : run.totalNet = ofNumber (round2 (lines.map PayrollLine.netPay).sum)

/-- The database with a new run and an entry for each of its lines. -/
def Db.storeRun (s : Db) (run : PayrollRun) (lines : List PayrollLine) : Db :=
  lines.foldl (fun t l => t.insert .payrollEntry (l.entry (s.nextId .payrollRun)))
    (s.insert .payrollRun run)

theorem Db.find?_storeRun (s : Db) (run : PayrollRun) (lines : List PayrollLine) (id : Id) :
    (s.storeRun run lines).find? .payrollRun id =
      if id = s.nextId .payrollRun then some run else s.find? .payrollRun id := by
  rw [storeRun, find?_insertEntries (by decide), Db.find?_insert]

/-- What holds of every statement of payroll, as one of them leaves the runs, the entries and the
journals alone, changes neither what is booked of a run nor its accrual, stores a run with its
entries, or posts a journal. -/
structure PayrollRule (A : Db → Db → Prop) : Prop where
  of_agree : ∀ {s t}, s.Agree [.payrollRun, .payrollEntry, .journal] t → A s t
  of_modify : ∀ {f : PayrollRun → PayrollRun} (s : Db) (id : Id),
    (∀ run, (f run).booked = run.booked) →
      (∀ run, (f run).accrualJournalId = run.accrualJournalId) → A s (s.modify .payrollRun id f)
  of_store : ∀ {run : PayrollRun} {lines : List PayrollLine} (s : Db), run.Sums lines →
    A s (s.storeRun run lines)
  of_post : ∀ (s : Db) (j : Journal), A s (s.insert .journal j)

section Rule

variable {α : Type} {A : Db → Db → Prop}

theorem PayrollRule.of_quiet (h : PayrollRule A) {p : Handler α}
    (hp : Quiet [.payrollRun, .payrollEntry, .journal] p) : p.Every A :=
  Every.imp hp fun _ _ => h.of_agree

theorem PayrollRule.query (h : PayrollRule A) (f : Db → α) : (NexusEfos.query f).Every A :=
  h.of_quiet (Quiet.query f)

theorem PayrollRule.updateRun (h : PayrollRule A) (lab : Access) (id : Id)
    {f : PayrollRun → PayrollRun} (hbooked : ∀ run, (f run).booked = run.booked)
    (haccrual : ∀ run, (f run).accrualJournalId = run.accrualJournalId) :
    (updateAs lab .payrollRun id f).Every A := by
  refine ⟨fun s => ?_, fun _ => trivial⟩
  cases hrow : s.find? .payrollRun id with
  | some row => simpa only [hrow] using h.of_modify s id hbooked haccrual
  | none => simpa only [hrow] using h.of_agree (.refl s)

theorem PayrollRule.processPayroll (h : PayrollRule A) (auth : Auth) (now : DateTime)
    (periodId : Id) : (NexusEfos.processPayroll auth now periodId).Every A := by
  refine (h.query _).bind fun period => (Every.orFail _ _).bind fun _ => ?_
  refine (h.query _).bind fun existingRun => (Every.require _ _).bind fun _ => ?_
  refine (h.query _).bind fun foundTable => (Every.orFail _ _).bind fun taxTable => ?_
  refine (h.query _).bind fun statutoryRates => (Every.orFail _ _).bind fun rates => ?_
  refine (h.query _).bind fun activeStructures => (h.query _).bind fun earningCodes => ?_
  have hcreate : ∀ {run : PayrollRun} {lines : List PayrollLine}, run.Sums lines →
      (createPayrollRun run lines).Every A := by
    intro run lines hsums
    refine ⟨fun s => ?_, fun _ => trivial⟩
    by_cases hdue : run.payrollPeriodId ∈
        (s.table .payrollRun).values.map PayrollRun.payrollPeriodId
    · simpa only [if_pos hdue] using h.of_agree (.refl s)
    · simp only [if_neg hdue]
      exact h.of_store s hsums
  refine Every.bind (hcreate ⟨?_, rfl, rfl⟩) fun run => ?_
  · rw [List.forall_mem_map]
    exact fun e _ => PayrollRates.line_sound _ e.2
  refine (h.of_quiet (Quiet.update (by decide) _ _)).bind fun _ => ?_
  exact (h.of_quiet (Quiet.create (by decide) _)).bind fun _ => trivial

theorem PayrollRule.requestPayrollApproval (h : PayrollRule A) (auth : Auth) (id : Id) :
    (NexusEfos.requestPayrollApproval auth id).Every A := by
  refine (h.query _).bind fun found => (Every.orFail _ _).bind fun run => ?_
  refine (Every.require _ _).bind fun _ => ?_
  refine (h.of_quiet (Quiet.create (by decide) _)).bind fun _ => ?_
  exact Every.bind (h.updateRun _ _ (fun _ => rfl) fun _ => rfl) fun _ => trivial

theorem PayrollRule.markPayrollPaid (h : PayrollRule A) (auth : Auth) (now : DateTime) (id : Id) :
    (NexusEfos.markPayrollPaid auth now id).Every A := by
  have hpost : ∀ lab j, (createJournalAs lab j).Every A := by
    intro lab j
    refine ⟨fun s => ?_, fun _ => trivial⟩
    by_cases hlines : ∀ l ∈ j.lines, (s.find? .gLAccount l.accountId).isSome
    · simpa only [if_pos hlines] using h.of_post s j
    · simpa only [if_neg hlines] using h.of_agree (.refl s)
  have hsettle : ∀ run, (postSettlement auth now id run).Every A := by
    intro run
    refine (h.query _).bind fun mappings => ?_
    split
    · trivial
    · refine (h.query _).bind fun accountById => (h.query _).bind fun period => ?_
      refine (h.query _).bind fun glPeriod => ?_
      split
      · refine (hpost _ _).bind fun journal => ?_
        exact (h.of_quiet (Quiet.applyLinesById (by decide) _ _)).bind fun _ => trivial
      · trivial
  refine (h.query _).bind fun found => (Every.orFail _ _).bind fun run => ?_
  refine (Every.require _ _).bind fun _ => ?_
  have hpay : ∀ journal : Option Id, Every A (do
      let updated ← updateAs { payroll := some (.pay id journal) } .payrollRun id fun r =>
        { r with status := .paid, paidById := some auth.userId, paidAt := some now,
                 settlementJournalId := journal }
      let _ ← create .auditLog
        { institutionId := auth.institutionId, userId := some auth.userId,
          action := "payroll_run.mark_paid", resource := "payroll_run", resourceId := some id }
      return updated) := by
    intro journal
    refine Every.bind (h.updateRun _ _ (fun _ => rfl) fun _ => rfl) fun _ => ?_
    exact (h.of_quiet (Quiet.create (by decide) _)).bind fun _ => trivial
  dsimp only
  split
  · exact (hsettle run).bind fun journal => hpay journal
  · exact hpay none

theorem PayrollRule.reversePayroll (h : PayrollRule A) (auth : Auth) (now : DateTime) (id : Id)
    (reason : String) : (NexusEfos.reversePayroll auth now id reason).Every A := by
  refine (Every.require _ _).bind fun _ => (h.query _).bind fun found => ?_
  refine (Every.orFail _ _).bind fun run => (Every.require _ _).bind fun _ => ?_
  refine Every.bind (h.updateRun _ _ (fun _ => rfl) fun _ => rfl) fun _ => ?_
  exact (h.of_quiet (Quiet.create (by decide) _)).bind fun _ => trivial

end Rule

end NexusEfos
