/-
Postings and closed periods.

The approvals of a manual journal, of a payroll and of a disposal look for an open period in
the transaction that posts.  The other paths look in a statement of its own, and the period
may be closed before they post.  The approval of a transfer between branches does not look at
all.  `journals_posted_in_open_periods` says that these are the only two ways in which a
journal comes into a period that is not open.
-/
import NexusEfos.Approvals.PostedOnce
import NexusEfos.Operations.LedgerSteps

namespace NexusEfos

/-- A call: an operation on the ledger, or one about the periods.  The last constructor stands
for every other endpoint. -/
inductive LedgerCall
  | operation (op : LedgerOperation)
  | createPeriod (auth : Auth) (body : PeriodBody)
  | period (call : PeriodCall)
  | other (p : Handler Unit) (quiet : Quiet [.journal] p)

namespace LedgerCall

def handler : LedgerCall → Handler Unit
  | operation op => op.handler
  | createPeriod auth body => discard (createFinancialPeriod auth body)
  | period call => call.handler
  | other p _ => p

end LedgerCall

/-- Calls that are on their way at the same time. -/
def ledgerPool {ι : Type} (calls : ι → LedgerCall) (s : Db) : Pool ι Access Db Failure Unit :=
  ⟨fun i => (calls i).handler, s⟩

/-- If the statement posts what an earlier one has checked, the date still lies in an open
period, and if it approves a transfer between branches, the day of the approval lies in one. -/
def Access.PostsOnOpenDate (lab : Access) (s : Db) : Prop :=
  (∀ p ∈ lab.posting, s.OpenOn p.institutionId p.date) ∧
    ∀ r ∈ lab.resolves, r.Approves s → r.request.type = .interBranchTransfer →
      ∀ transfer ∈ s.find? .interBranchTransfer r.request.targetId,
        s.OpenOn transfer.institutionId r.now

instance (lab : Access) (s : Db) : Decidable (lab.PostsOnOpenDate s) :=
  inferInstanceAs (Decidable ((∀ p ∈ lab.posting, s.OpenOn p.institutionId p.date) ∧
    ∀ r ∈ lab.resolves, r.Approves s → r.request.type = .interBranchTransfer →
      ∀ transfer ∈ s.find? .interBranchTransfer r.request.targetId,
        s.OpenOn transfer.institutionId r.now))

/-- What such a statement posts has a date in an open period. -/
theorem Access.MayPost.openOn {lab : Access} {s : Db} {j : Journal} (h : lab.MayPost s j)
    (hopen : lab.PostsOnOpenDate s) : s.OpenOn j.institutionId j.postingDate := by
  rcases h with ⟨p, hp, hinstitution, hdate⟩ | ⟨r, hr, happroves, hchecked | ⟨htype, hdate, hfound⟩⟩
  · rw [hinstitution, hdate]
    exact hopen.1 p hp
  · exact hchecked
  · obtain ⟨transfer, htransfer, hinstitution⟩ := Option.map_eq_some_iff.mp hfound
    rw [← hinstitution, hdate]
    exact hopen.2 r hr happroves htype transfer htransfer

namespace JournalStep

theorem findPeriod (auth : Auth) (periodId : Id) :
    (findPeriod auth periodId).EveryStep JournalStep :=
  (query _).bind fun _ => Proc.EveryStep.orFail _ _

theorem createFinancialPeriod (auth : Auth) (body : PeriodBody) :
    (createFinancialPeriod auth body).EveryStep JournalStep := by
  refine (Proc.EveryStep.require _ _).bind fun _ => (query _).bind fun overlap => ?_
  cases overlap with
  | some found => trivial
  | none =>
    refine of_quiet ((Quiet.create (by decide) _).bind fun period => ?_)
    exact (Quiet.create (by decide) _).bind fun _ => Quiet.pure _

/-- A change of a period and the evidence of it. -/
theorem updatePeriod (auth : Auth) (action : String) (lab : Access) (periodId : Id)
    (f : FinancialPeriod → FinancialPeriod) :
    (do
      let updated ← updateAs lab .financialPeriod periodId f
      let _ ← create .auditLog (periodLog auth action periodId)
      return updated : Handler FinancialPeriod).EveryStep JournalStep :=
  of_quiet ((Quiet.update (by decide) _ _).bind fun _ =>
    (Quiet.create (by decide) _).bind fun _ => Quiet.pure _)

end JournalStep

theorem PeriodCall.journalStep (call : PeriodCall) : call.handler.EveryStep JournalStep := by
  cases call with
  | close auth now periodId =>
    refine Proc.EveryStep.discard ((JournalStep.findPeriod auth periodId).bind fun period => ?_)
    refine (Proc.EveryStep.require _ _).bind fun _ => ?_
    exact JournalStep.updatePeriod auth "financial_period.close" _ periodId _
  | lock auth now periodId =>
    refine Proc.EveryStep.discard ((JournalStep.findPeriod auth periodId).bind fun period => ?_)
    refine (Proc.EveryStep.require _ _).bind fun _ => ?_
    exact JournalStep.updatePeriod auth "financial_period.lock" {} periodId _
  | requestReopen auth periodId reason =>
    refine (Proc.EveryStep.orFail _ _).bind fun reason => ?_
    refine (JournalStep.findPeriod auth periodId).bind fun period => ?_
    refine (Proc.EveryStep.require _ _).bind fun _ => (Proc.EveryStep.require _ _).bind fun _ => ?_
    exact JournalStep.of_quiet ((Quiet.create (by decide) _).bind fun _ => Quiet.pure _)
  | resolve call => exact (LedgerStep.resolve call).journalStep

theorem LedgerCall.journalStep (call : LedgerCall) : call.handler.EveryStep JournalStep := by
  cases call with
  | operation op => exact op.journalStep
  | createPeriod auth body => exact (JournalStep.createFinancialPeriod auth body).discard
  | period call => exact call.journalStep
  | other p quiet => exact JournalStep.of_quiet quiet

/-- In a run whose statements all post on an open date, a step that makes a journal a posted
one finds an open period of the institution that covers its posting date. -/
theorem journals_posted_in_open_periods {ι : Type} [DecidableEq ι] (calls : ι → LedgerCall) (s : Db)
    {sched : List ι} (h : (ledgerPool calls s).Allowed Access.PostsOnOpenDate sched)
    (before after : List ι) (i : ι) (hsched : sched = before ++ i :: after) (id : Id) (j : Journal)
    (hnew : ¬ ((ledgerPool calls s).run before).state.Posted id)
    (hj : ((ledgerPool calls s).run (before ++ [i])).state.find? .journal id = some j)
    (hposted : j.status = .posted) :
    ((ledgerPool calls s).run before).state.OpenOn j.institutionId j.postingDate := by
  have hstart : ∀ i, ((ledgerPool calls s).threads i).EveryStep JournalStep :=
    fun i => (calls i).journalStep
  have hprefix : (ledgerPool calls s).Allowed Access.PostsOnOpenDate (before ++ [i]) := by
    rw [hsched, ← List.singleton_append, ← List.append_assoc] at h
    exact (Pool.allowed_append.mp h).1
  have hold : ∀ j', ((ledgerPool calls s).run before).state.find? .journal id = some j' →
      j'.status ≠ .posted := by
    intro j' hj' hposted'
    apply hnew
    unfold Db.Posted
    rw [hj', Option.map_some, hposted']
  rcases Pool.last_step_everyStep hstart hprefix with hsame | ⟨lab, hlab, hstep⟩
  · rw [hsame] at hj
    exact absurd hposted (hold j hj)
  · rcases hstep id j hj hposted with hj' | hmay
    · exact absurd hposted (hold j hj')
    · exact hmay.openOn hlab

/-- A vault receives 100.00, and another user closes the period. -/
def receiptAndClose : Fin 2 → LedgerCall
  | 0 => .operation (.post (.recordCashEntry ⟨1, 2⟩ 1 1 .receipt 100 none))
  | 1 => .period (.close ⟨1, 1⟩ 1 1)

/-- The period is closed after the receipt. -/
theorem journals_posted_in_open_periods_receiptAndClose :
    ((ledgerPool receiptAndClose cashLedger).run [0, 0, 0, 0, 0]).state.OpenOn 1 1 := by
  have hpost : (((ledgerPool receiptAndClose cashLedger).run ([0, 0, 0, 0, 0] ++ [0])).state.find?
      .journal 1).map (fun j => (j.status, j.institutionId, j.postingDate)) =
        some (.posted, 1, 1) := by decide +kernel
  obtain ⟨j, hj, hfields⟩ := Option.map_eq_some_iff.mp hpost
  obtain ⟨hposted, hrest⟩ := Prod.mk.inj hfields
  obtain ⟨hinstitution, hdate⟩ := Prod.mk.inj hrest
  have hallowed : (ledgerPool receiptAndClose cashLedger).Allowed Access.PostsOnOpenDate
      [0, 0, 0, 0, 0, 0, 0, 1, 1, 1] := by decide +kernel
  have hopen := journals_posted_in_open_periods receiptAndClose cashLedger hallowed [0, 0, 0, 0, 0]
    [0, 1, 1, 1] 0 rfl 1 j (by decide +kernel) hj hposted
  rwa [hinstitution, hdate] at hopen

/-- The period is closed after the receipt has found it open, and before it is posted. -/
theorem posted_in_closed_period :
    ¬ ∀ (calls : Fin 2 → LedgerCall) (s : Db) (before : List (Fin 2)) (i : Fin 2) (id : Id)
        (j : Journal), ¬ ((ledgerPool calls s).run before).state.Posted id →
      ((ledgerPool calls s).run (before ++ [i])).state.find? .journal id = some j →
      j.status = .posted →
        ((ledgerPool calls s).run before).state.OpenOn j.institutionId j.postingDate := by
  intro h
  have hpost : (((ledgerPool receiptAndClose cashLedger).run ([0, 0, 0, 1, 1, 0, 0] ++ [0])).state.find?
      .journal 1).map (fun j => (j.status, j.institutionId, j.postingDate)) =
        some (.posted, 1, 1) := by decide +kernel
  obtain ⟨j, hj, hfields⟩ := Option.map_eq_some_iff.mp hpost
  obtain ⟨hposted, hrest⟩ := Prod.mk.inj hfields
  obtain ⟨hinstitution, hdate⟩ := Prod.mk.inj hrest
  have hopen := h receiptAndClose cashLedger [0, 0, 0, 1, 1, 0, 0] 0 1 j (by decide +kernel) hj hposted
  rw [hinstitution, hdate] at hopen
  revert hopen
  decide +kernel

end NexusEfos
