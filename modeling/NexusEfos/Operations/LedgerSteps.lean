/-
The steps of the posting paths.

A path that posts in a transaction takes a `LedgerStep` with every statement.  A path that
creates the journal first and applies its lines in statements of their own does so to the
journals alone (`JournalStep`).
-/
import NexusEfos.Operations.PostingTargets
import NexusEfos.Savings.Movements

namespace NexusEfos

open Proc

/-! ## The paths that post at once -/

namespace LedgerStep

theorem refl (lab : Access) (s : Db) : LedgerStep lab s s := Db.PostsTo.refl s

theorem of_quiet {α : Type} {p : Handler α} (hp : Quiet [.gLAccount, .journal] p) :
    p.EveryStep LedgerStep := .of_every (fun _ _ _ h => .of_agree h) hp

theorem query {α : Type} (f : Db → α) : (NexusEfos.query f).EveryStep LedgerStep :=
  of_quiet (Quiet.query f)

theorem findUniqueOrThrow (m : Model) (id : Id) :
    (NexusEfos.findUniqueOrThrow m id).EveryStep LedgerStep := of_quiet (Quiet.findUniqueOrThrow m id)

theorem requirePostablePeriod (institutionId : Id) (date : DateTime) :
    (NexusEfos.requirePostablePeriod institutionId date).EveryStep LedgerStep :=
  of_quiet (Quiet.requirePostablePeriod institutionId date)

/-- The evidence at the end of a path. -/
theorem log {α : Type} (entry : AuditLog) (a : α) :
    (do
      let _ ← create .auditLog entry
      return a : Handler α).EveryStep LedgerStep :=
  of_quiet ((Quiet.create (by decide) _).bind fun _ => Quiet.pure _)

end LedgerStep

section Transactions

variable {auth : Auth} {now : DateTime} {lines : List JournalLineInput}

/-- What a transaction may post that is labelled with the lines of its journal. -/
def PostsLines (auth : Auth) (now : DateTime) (lines : List JournalLineInput) : Db → Db → Prop :=
  Db.PostsTo (fun j => j.institutionId = auth.institutionId ∧ j.postingDate = now)
    fun a => a ∈ lines.map fun l => l.accountId

theorem Quiet.postsLines {α : Type} {p : Handler α} (hp : Quiet [.gLAccount, .journal] p) :
    p.Every (PostsLines auth now lines) := Quiet.postsTo hp

theorem postJournal_postsLines (description : String) :
    (postJournal auth now description lines).Every (PostsLines auth now lines) := by
  apply every_postJournal
  · exact ⟨rfl, rfl⟩
  · intro l hl
    exact List.mem_map_of_mem hl

theorem postJournal_end_postsLines {α : Type} (description : String) (a : α) :
    (do
      let _ ← postJournal auth now description lines
      return a : Handler α).Every (PostsLines auth now lines) :=
  (postJournal_postsLines description).bind fun _ => trivial

theorem depositInTx_postsLines (accountId : Id) (x : ℚ) (description : String) :
    (depositInTx auth now accountId x description lines).Every (PostsLines auth now lines) := by
  refine Every.bind (Quiet.postsLines (Quiet.update (by decide) _ _)) fun acct => ?_
  refine Every.bind (Quiet.postsLines (Quiet.create (by decide) _)) fun row => ?_
  exact postJournal_end_postsLines _ _

theorem withdrawInTx_postsLines (accountId : Id) (x : ℚ) (description : String) :
    (withdrawInTx auth now accountId x description lines).Every (PostsLines auth now lines) := by
  refine Every.bind (Quiet.postsLines (Quiet.updateGuarded (by decide) _ _ _)) fun updated => ?_
  refine Every.bind (Every.require _ _) fun _ => ?_
  refine Every.bind (Quiet.postsLines (Quiet.findUniqueOrThrow _ _)) fun acct => ?_
  refine Every.bind (Quiet.postsLines (Quiet.create (by decide) _)) fun row => ?_
  exact postJournal_end_postsLines _ _

theorem repayInTx_postsLines (loanId : Id) (x : ℚ) (description : String) :
    (repayInTx auth now loanId x description lines).Every (PostsLines auth now lines) := by
  refine Every.bind (Quiet.postsLines (quiet_applyLoanRepaymentInTx (by decide) _ _ _)) fun result => ?_
  exact postJournal_end_postsLines _ _

theorem disburseInTx_postsLines (loanId vaultId : Id) (principal : Cents)
    (schedule : List ScheduleRow) :
    (disburseInTx auth now loanId vaultId principal lines schedule).Every
      (PostsLines auth now lines) := by
  refine Every.bind (Quiet.postsLines (Quiet.updateGuarded (by decide) _ _ _)) fun guardedVault => ?_
  refine Every.bind (Every.require _ _) fun _ => ?_
  refine Every.bind (Quiet.postsLines (Quiet.findUniqueOrThrow _ _)) fun vault => ?_
  refine Every.bind (Quiet.postsLines (Quiet.create (by decide) _)) fun entry => ?_
  refine (postJournal_postsLines _).bind fun journal => ?_
  refine Every.bind (Quiet.postsLines (Quiet.update (by decide) _ _)) fun updated => ?_
  exact Quiet.postsLines ((Quiet.createInstallments (by decide) _ _).bind fun _ => .pure _)

theorem cashEntryInTx_postsLines (vaultId : Id) (type : CashEntryType) (x : ℚ)
    (notes : Option String) (description : String) :
    (cashEntryInTx auth now vaultId type x notes description lines).Every
      (PostsLines auth now lines) := by
  refine Every.bind (Quiet.postsLines (quiet_moveVault (by decide) _ _ _)) fun vault => ?_
  refine Every.bind (Quiet.postsLines (Quiet.create (by decide) _)) fun entry => ?_
  exact postJournal_end_postsLines _ _

/-- A transaction that posts what its label says. -/
theorem LedgerStep.transaction {α : Type} {lab : Access} {body : Handler α}
    (hlab : lab.posting = some ⟨auth.institutionId, now, lines.map fun l => l.accountId⟩)
    (hunscheduled : lab.executes = none)
    (hbody : body.Every (PostsLines auth now lines)) :
    (Proc.transaction lab body).EveryStep LedgerStep := by
  refine EveryStep.transaction (refl lab) ?_
  intro s _ t hrun
  refine (Proc.Every.run_postsTo hbody hrun).mono ?_ ?_
  · intro j hj
    exact .inl ⟨_, hlab, hj⟩
  · intro a ha
    exact .inl ⟨hunscheduled, _, hlab, ha⟩

end Transactions

namespace LedgerStep

variable (auth : Auth) (now : DateTime)

theorem rest {α : Type} {p : Handler α} (hp : Writes [.auditLog] p) : p.EveryStep LedgerStep :=
  of_quiet (hp.quiet (by decide))

theorem deposit (accountId : Id) (x : ℚ) : (deposit auth now accountId x).EveryStep LedgerStep := by
  apply deposit_everyStep rest
  exact fun description lines => transaction rfl rfl (depositInTx_postsLines _ _ description)

theorem withdraw (accountId : Id) (x : ℚ) : (withdraw auth now accountId x).EveryStep LedgerStep := by
  apply withdraw_everyStep rest
  exact fun description lines => transaction rfl rfl (withdrawInTx_postsLines _ _ description)

theorem recordRepayment (loanId : Id) (x : ℚ) :
    (recordRepayment auth now loanId x).EveryStep LedgerStep := by
  apply recordRepayment_everyStep rest
  exact fun description lines => transaction rfl rfl (repayInTx_postsLines _ _ description)

theorem recordCollection (body : RecordCollection) :
    (recordCollection auth now body).EveryStep LedgerStep := by
  apply recordCollection_moves rest
  · exact fun _ description lines => transaction rfl rfl (depositInTx_postsLines _ _ description)
  · exact fun _ description lines => transaction rfl rfl (repayInTx_postsLines _ _ description)
  · exact fun row => of_quiet (Quiet.createAs (by decide) _ _)

theorem recordCashEntry (vaultId : Id) (type : CashEntryType) (x : ℚ) (notes : Option String) :
    (recordCashEntry auth now vaultId type x notes).EveryStep LedgerStep := by
  refine (EveryStep.require _ _).bind fun _ => ?_
  refine (query _).bind fun found => (EveryStep.orFail _ _).bind fun vault => ?_
  refine (EveryStep.require _ _).bind fun _ => ?_
  refine (query _).bind fun mappings => (EveryStep.orFail _ _).bind fun accounts => ?_
  refine (requirePostablePeriod _ _).bind fun _ => ?_
  refine (findUniqueOrThrow _ _).bind fun vaultCash => (findUniqueOrThrow _ _).bind fun bank => ?_
  refine (EveryStep.require _ _).bind fun _ => ?_
  refine EveryStep.bind (transaction rfl rfl (cashEntryInTx_postsLines _ _ _ _ _)) fun entry => ?_
  exact log _ _

theorem disburseLoan (js : Js) (loanId : Id) (vaultId : Option Id) :
    (disburseLoan js auth now loanId vaultId).EveryStep LedgerStep := by
  apply disburseLoan_everyStep (by decide) (by decide) fun _ _ _ => .of_agree
  intro d _ s loan t hrun
  have hposts := (disburseInTx_postsLines d.loanId d.vaultId d.principal d.schedule).run_postsTo hrun
  refine hposts.mono ?_ ?_
  · intro j hj
    exact .inl ⟨_, rfl, hj⟩
  · intro a ha
    exact .inl ⟨rfl, _, rfl, ha⟩

end LedgerStep

/-! ## Requests and decisions -/

namespace LedgerStep

variable (auth : Auth)

theorem createManualJournal (now : DateTime) (body : JournalBody) :
    (createManualJournal auth now body).EveryStep LedgerStep := by
  refine (EveryStep.require _ _).bind fun _ => ?_
  have hlines : (Proc.forEach body.lines checkJournalLine).EveryStep LedgerStep := by
    apply EveryStep.forEach
    intro l _
    exact (EveryStep.require _ _).bind fun _ => EveryStep.require _ _
  refine hlines.bind fun _ => ?_
  refine (EveryStep.require _ _).bind fun _ => ?_
  refine (query _).bind fun period => (EveryStep.orFail _ _).bind fun found => ?_
  refine (EveryStep.require _ _).bind fun _ => ?_
  have hdraft : (createJournal (body.draft auth (body.postingDate.getD now))).Every
      (Db.PostsTo (fun _ => False) fun _ => False) :=
    every_createJournalAs fun hposted => absurd hposted nofun
  refine EveryStep.bind (.of_every ?_ hdraft) fun journal => log _ _
  intro _ _ _ h
  exact h.mono (fun _ hnone => hnone.elim) fun _ hnone => hnone.elim

theorem requestPosting (journalId : Id) : (requestPosting auth journalId).EveryStep LedgerStep := by
  refine (query _).bind fun found => (EveryStep.orFail _ _).bind fun journal => ?_
  refine (EveryStep.require _ _).bind fun _ => ?_
  refine (of_quiet (Quiet.create (by decide) _)).bind fun request => ?_
  refine EveryStep.bind ⟨fun s => ?_, fun _ => trivial⟩ fun _ => trivial
  cases hrow : s.find? .journal journalId with
  | some row =>
    simp only [hrow]
    exact .modify fun _ _ hposted => absurd hposted nofun
  | none =>
    simp only [hrow]
    exact refl _ s

theorem requestInterBranchTransfer (body : InterBranchBody) :
    (requestInterBranchTransfer auth body).EveryStep LedgerStep := by
  refine (EveryStep.require _ _).bind fun _ => (EveryStep.require _ _).bind fun _ => ?_
  refine (query _).bind fun fromSettlement => (query _).bind fun toSettlement => ?_
  refine (EveryStep.require _ _).bind fun _ => ?_
  refine (of_quiet (Quiet.create (by decide) _)).bind fun transfer => ?_
  exact (of_quiet (Quiet.create (by decide) _)).bind fun request => log _ _

theorem requestPayrollApproval (runId : Id) :
    (requestPayrollApproval auth runId).EveryStep LedgerStep := by
  refine (query _).bind fun found => (EveryStep.orFail _ _).bind fun run => ?_
  refine (EveryStep.require _ _).bind fun _ => ?_
  refine (of_quiet (Quiet.create (by decide) _)).bind fun request => ?_
  exact of_quiet (Quiet.update_end (by decide) _ _)

theorem requestDisposal (body : DisposalBody) :
    (requestDisposal auth body).EveryStep LedgerStep := by
  refine (EveryStep.require _ _).bind fun _ => (EveryStep.require _ _).bind fun _ => ?_
  refine (query _).bind fun found => (EveryStep.orFail _ _).bind fun asset => ?_
  refine (EveryStep.require _ _).bind fun _ => ?_
  refine (of_quiet (Quiet.create (by decide) _)).bind fun disposal => ?_
  exact (of_quiet (Quiet.create (by decide) _)).bind fun request => log _ _

theorem requestTransfer (body : TransferRequest) :
    (requestTransfer auth body).EveryStep LedgerStep := by
  refine (EveryStep.require _ _).bind fun _ => (EveryStep.require _ _).bind fun _ => ?_
  refine (of_quiet (quiet_getHolderBalance _ _)).bind fun found => ?_
  refine (EveryStep.orFail _ _).bind fun sourceBalance => (EveryStep.require _ _).bind fun _ => ?_
  refine (of_quiet (quiet_getHolderBalance _ _)).bind fun destExists => ?_
  refine (EveryStep.orFail _ _).bind fun _ => ?_
  refine (of_quiet (Quiet.create (by decide) _)).bind fun transfer => ?_
  exact (of_quiet (Quiet.create (by decide) _)).bind fun request => log _ _

theorem resolve (call : ResolveCall) : call.handler.EveryStep LedgerStep :=
  call.everyStep refl fun _ _ _ hrun => ResolveCall.ledgerStep_inTx hrun

end LedgerStep

/-! ## The paths without a transaction -/

/-- What a statement does to the journals. -/
def JournalStep (lab : Access) (s t : Db) : Prop :=
  ∀ id j, t.find? .journal id = some j → j.status = .posted →
    s.find? .journal id = some j ∨ lab.MayPost s j

theorem LedgerStep.journalStep {lab : Access} {s t : Db} (h : LedgerStep lab s t) :
    JournalStep lab s t := by
  intro id j hj hposted
  rcases h.journal id j hj hposted with hj' | hposts
  · exact .inl hj'
  · exact .inr hposts.1

namespace JournalStep

variable (auth : Auth) (now : DateTime)

theorem of_quiet {α : Type} {p : Handler α} (hp : Quiet [.journal] p) : p.EveryStep JournalStep := by
  refine .of_every ?_ hp
  intro _ s t hagree id j hj _
  rw [hagree.find? (by decide)] at hj
  exact .inl hj

theorem query {α : Type} (f : Db → α) : (NexusEfos.query f).EveryStep JournalStep :=
  of_quiet (Quiet.query f)

/-- A journal that is created as posted, under a label that says so. -/
theorem createJournalAs {lab : Access} {p : Posting} (hlab : lab.posting = some p) {j : Journal}
    (hinstitution : j.institutionId = p.institutionId) (hdate : j.postingDate = p.date) :
    (createJournalAs lab j).EveryStep JournalStep := by
  constructor
  · intro s
    have hmay : lab.MayPost s j := .inl ⟨p, hlab, hinstitution, hdate⟩
    have hevery : (NexusEfos.createJournalAs lab j).Every
        (Db.PostsTo (lab.MayPost s) fun _ => True) :=
      every_createJournalAs fun _ => ⟨hmay, fun _ _ => trivial⟩
    intro id j' hj' hposted
    exact ((hevery.1 s).journal id j' hj' hposted).imp_right And.left
  · intro _
    trivial

theorem postSettlement (runId : Id) (run : PayrollRun) :
    (postSettlement auth now runId run).EveryStep JournalStep := by
  refine (query _).bind fun mappings => ?_
  split
  · trivial
  · refine (query _).bind fun accountById => (query _).bind fun period => ?_
    refine (query _).bind fun glPeriod => ?_
    split
    · refine (createJournalAs rfl rfl rfl).bind fun journal => ?_
      exact of_quiet ((Quiet.applyLinesById (by decide) _ _).bind fun _ => .pure _)
    · trivial

theorem markPayrollPaid (runId : Id) : (markPayrollPaid auth now runId).EveryStep JournalStep := by
  refine (query _).bind fun found => (EveryStep.orFail _ _).bind fun run => ?_
  refine (EveryStep.require _ _).bind fun _ => ?_
  have hrecord : ∀ data : PayrollRun → PayrollRun, (do
      let updated ← update .payrollRun runId data
      let _ ← create .auditLog
        { institutionId := auth.institutionId, userId := some auth.userId,
          action := "payroll_run.mark_paid", resource := "payroll_run", resourceId := some runId }
      return updated : Handler PayrollRun).EveryStep JournalStep := by
    intro data
    refine of_quiet ((Quiet.update (by decide) _ _).bind fun _ => ?_)
    exact (Quiet.create (by decide) _).bind fun _ => .pure _
  dsimp only
  split
  · exact (postSettlement auth now _ run).bind fun _ => hrecord _
  · exact hrecord _

theorem postDepreciation (asset : Asset) (periodLabel : String) (x : ℚ) :
    (postDepreciation auth now asset periodLabel x).EveryStep JournalStep := by
  refine (query _).bind fun mappings => ?_
  split
  · trivial
  · refine (query _).bind fun glPeriod => ?_
    split
    · refine (query _).bind fun accountById => ?_
      refine (createJournalAs rfl rfl rfl).bind fun journal => ?_
      exact of_quiet ((Quiet.applyLinesById (by decide) _ _).bind fun _ => .pure _)
    · trivial

theorem processDepreciation (assetId : Id) (periodLabel : String) :
    (processDepreciation auth now assetId periodLabel).EveryStep JournalStep := by
  refine (EveryStep.require _ _).bind fun _ => ?_
  refine (query _).bind fun found => (EveryStep.orFail _ _).bind fun asset => ?_
  refine (EveryStep.require _ _).bind fun _ => ?_
  refine (query _).bind fun existing => (EveryStep.require _ _).bind fun _ => ?_
  refine (query _).bind fun monthsElapsed => (EveryStep.require _ _).bind fun _ => ?_
  refine (postDepreciation auth now asset periodLabel _).bind fun journalId => ?_
  refine of_quiet ((Quiet.create (by decide) _).bind fun _ => ?_)
  exact (Quiet.update (by decide) _ _).bind fun _ => (Quiet.create (by decide) _).bind fun _ => .pure _

theorem executeRecurring (rjId : Id) (rj : RecurringJournal) :
    (executeRecurring now rjId rj).EveryStep JournalStep := by
  refine (query _).bind fun accountById => (query _).bind fun period => ?_
  dsimp only
  split
  · refine (createJournalAs rfl rfl rfl).bind fun journal => ?_
    refine of_quiet ((Quiet.applyLinesById (by decide) _ _).bind fun _ => ?_)
    exact (Quiet.create (by decide) _).bind fun _ => Quiet.update_end (by decide) _ _
  · refine of_quiet ((Quiet.update (by decide) _ _).bind fun _ => ?_)
    exact (Quiet.create (by decide) _).bind fun _ => .pure _

theorem runRecurringJournals : (runRecurringJournals now).EveryStep JournalStep := by
  refine (query _).bind fun due => ?_
  apply EveryStep.forEach
  intro rj _
  exact executeRecurring now rj.1 rj.2

end JournalStep

/-! ## Every operation -/

theorem Proc.EveryStep.discard {D : Access → Db → Db → Prop} {α : Type} {p : Handler α}
    (hp : p.EveryStep D) : (NexusEfos.discard p).EveryStep D := hp.bind fun _ => trivial

theorem Proc.EveryStep.journalStep {α : Type} {p : Handler α} (hp : p.EveryStep LedgerStep) :
    p.EveryStep JournalStep := hp.imp fun _ _ _ h => h.journalStep

theorem PostingOperation.journalStep (op : PostingOperation) : op.handler.EveryStep JournalStep := by
  cases op with
  | deposit auth now a x => exact (LedgerStep.deposit auth now a x).discard.journalStep
  | withdraw auth now a x => exact (LedgerStep.withdraw auth now a x).discard.journalStep
  | recordCollection auth now body =>
    exact (LedgerStep.recordCollection auth now body).discard.journalStep
  | disburseLoan js auth now loanId vaultId =>
    exact (LedgerStep.disburseLoan auth now js loanId vaultId).discard.journalStep
  | recordRepayment auth now loanId x =>
    exact (LedgerStep.recordRepayment auth now loanId x).discard.journalStep
  | recordCashEntry auth now vaultId type x notes =>
    exact (LedgerStep.recordCashEntry auth now vaultId type x notes).discard.journalStep
  | markPayrollPaid auth now runId => exact (JournalStep.markPayrollPaid auth now runId).discard
  | processDepreciation auth now assetId periodLabel =>
    exact (JournalStep.processDepreciation auth now assetId periodLabel).discard
  | runRecurringJournals now => exact JournalStep.runRecurringJournals now

theorem LedgerOperation.journalStep (op : LedgerOperation) : op.handler.EveryStep JournalStep := by
  cases op with
  | post op => exact op.journalStep
  | createManualJournal auth now body =>
    exact (LedgerStep.createManualJournal auth now body).discard.journalStep
  | requestPosting auth journalId => exact (LedgerStep.requestPosting auth journalId).journalStep
  | requestInterBranchTransfer auth body =>
    exact (LedgerStep.requestInterBranchTransfer auth body).discard.journalStep
  | requestPayrollApproval auth runId =>
    exact (LedgerStep.requestPayrollApproval auth runId).journalStep
  | requestDisposal auth body => exact (LedgerStep.requestDisposal auth body).discard.journalStep
  | requestTransfer auth body => exact (LedgerStep.requestTransfer auth body).discard.journalStep
  | resolve call => exact (LedgerStep.resolve call).journalStep

end NexusEfos
