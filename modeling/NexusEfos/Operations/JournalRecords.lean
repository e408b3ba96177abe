/-
The journal is append-only.

A journal is posted, turned down or sent for approval, and each of these rewrites its status.
What it records (its lines, its date, its description and who created it) is written when it is
created and never afterwards, whatever runs at the same time.
-/
import NexusEfos.Operations.CashCustody
import NexusEfos.Operations.OpenPeriods
import NexusEfos.Operations.PayrollStatements

namespace NexusEfos

open Proc

/-- What a journal records. -/
def Journal.recorded (j : Journal) : Id × JournalType × String × DateTime × Id × List JournalLine :=
  (j.institutionId, j.type, j.description, j.postingDate, j.createdById, j.lines)

/-- The journals are kept, with what they record. -/
abbrev Db.KeepsRecords (s t : Db) : Prop :=
  s.KeepsRows .journal (fun j j' : Journal => j'.recorded = j.recorded) t

namespace Db.KeepsRecords

variable {s t u : Db}

theorem of_agree (h : s.Agree [.journal] t) : s.KeepsRecords t :=
  .of_table_eq (R := fun j j' : Journal => j'.recorded = j.recorded) (fun _ => rfl)
    (h .journal (by decide))

theorem refl (s : Db) : s.KeepsRecords s := of_agree (Agree.refl s)

theorem trans (h : s.KeepsRecords t) (h' : t.KeepsRecords u) : s.KeepsRecords u :=
  KeepsRows.trans (fun _ _ _ hfirst hsecond => hsecond.trans hfirst) h h'

theorem insert (s : Db) (j : Journal) : s.KeepsRecords (s.insert .journal j) :=
  KeepsRows.insert (m := .journal) (R := fun j j' : Journal => j'.recorded = j.recorded)
    (fun _ => rfl) s j

theorem modify {f : Journal → Journal} (hf : ∀ j, (f j).recorded = j.recorded) (s : Db) (id : Id) :
    s.KeepsRecords (s.modify .journal id f) :=
  KeepsRows.modify (m := .journal) (R := fun j j' : Journal => j'.recorded = j.recorded)
    (fun _ => rfl) s id hf

end Db.KeepsRecords

/-! ## The statements -/

section Statements

variable {α : Type}

/-- No statement touches what a journal records. -/
abbrev KeepsRecords (p : Handler α) : Prop := p.Every Db.KeepsRecords

theorem Quiet.keepsRecords {p : Handler α} (h : Quiet [.journal] p) : KeepsRecords p :=
  Every.imp h fun _ _ => .of_agree

theorem Writes.keepsRecords {ms : List Model} {p : Handler α} (h : Writes ms p)
    (hms : Model.journal ∉ ms) : KeepsRecords p :=
  h.every _ (Db.permits_keepsRows (m := .journal)
    (R := fun j j' : Journal => j'.recorded = j.recorded) (fun _ => rfl)
    (fun _ _ _ hfirst hsecond => hsecond.trans hfirst) hms)

theorem keepsRecords_query (f : Db → α) : KeepsRecords (query f) := (Quiet.query f).keepsRecords

theorem keepsRecords_createJournalAs (lab : Access) (j : Journal) :
    KeepsRecords (createJournalAs lab j) := by
  refine ⟨fun s => ?_, fun _ => trivial⟩
  by_cases hlines : ∀ l ∈ j.lines, (s.find? .gLAccount l.accountId).isSome
  · simp only [if_pos hlines]
    exact .insert s j
  · simp only [if_neg hlines]
    exact .refl s

theorem keepsRecords_updateJournal (lab : Access) (id : Id) {f : Journal → Journal}
    (hf : ∀ j, (f j).recorded = j.recorded) : KeepsRecords (updateAs lab .journal id f) := by
  refine ⟨fun s => ?_, fun _ => trivial⟩
  cases h : s.find? .journal id with
  | some row =>
    simp only [h]
    exact .modify hf s id
  | none =>
    simp only [h]
    exact .refl s

theorem keepsRecords_postJournal (auth : Auth) (now : DateTime) (description : String)
    (lines : List JournalLineInput) : KeepsRecords (postJournal auth now description lines) := by
  refine Every.bind (keepsRecords_createJournalAs _ _) fun journal => ?_
  exact (Quiet.applyLines (by decide) _).keepsRecords.bind fun _ => trivial

theorem keepsRecords_postDraftLines (institutionId approvedById : Id) (now postingDate : DateTime)
    (description : String) (drafts : List DraftLine) :
    KeepsRecords
      (postDraftLines institutionId approvedById now postingDate description drafts) := by
  unfold postDraftLines
  split
  · refine (Every.orFail _ _).bind fun lines => (keepsRecords_query _).bind fun accountById => ?_
    refine Every.bind (keepsRecords_createJournalAs _ _) fun journal => ?_
    exact (Quiet.applyLinesById (by decide) _ _).keepsRecords.bind fun _ => trivial
  · trivial

/-- What the statements of a process do to the journals, an execution does. -/
theorem run_keepsRecords {p : Handler α} (h : KeepsRecords p) {s t : Db} {r : Except Failure α}
    (hrun : p.run s = (r, t)) : s.KeepsRecords t := by
  have hkept := Every.run Db.KeepsRecords.refl Db.KeepsRecords.trans h s
  rwa [hrun] at hkept

theorem keepsRecords_transaction (lab : Access) {p : Handler α} (h : KeepsRecords p) :
    KeepsRecords (Proc.transaction lab p) :=
  Every.transaction Db.KeepsRecords.refl Db.KeepsRecords.trans lab h

theorem keepsRecords_rule : PayrollRule Db.KeepsRecords where
  of_agree := fun h => .of_agree (h.mono (by decide))
  of_modify := fun s id _ _ => .of_agree (Db.Agree.modify (m := .payrollRun) (by decide) s id _)
  of_store := by
    intro run lines s _ id j hj
    refine ⟨j, ?_, rfl⟩
    rw [Db.storeRun, find?_insertEntries (by decide), Db.find?_insert_of_ne (by decide)]
    exact hj
  of_post := .insert

end Statements

/-! ## The paths that post -/

section Postings

variable (auth : Auth) (now : DateTime)

theorem keepsRecords_depositInTx (accountId : Id) (x : ℚ) (description : String)
    (lines : List JournalLineInput) :
    KeepsRecords (depositInTx auth now accountId x description lines) := by
  refine Every.bind (Quiet.update (by decide) _ _).keepsRecords fun acct => ?_
  refine Every.bind (Quiet.create (by decide) _).keepsRecords fun row => ?_
  exact (keepsRecords_postJournal ..).bind fun _ => trivial

theorem keepsRecords_withdrawInTx (accountId : Id) (x : ℚ) (description : String)
    (lines : List JournalLineInput) :
    KeepsRecords (withdrawInTx auth now accountId x description lines) := by
  refine Every.bind (Quiet.updateGuarded (by decide) _ _ _).keepsRecords fun updated => ?_
  refine (Every.require _ _).bind fun _ => ?_
  refine Every.bind (Quiet.findUniqueOrThrow _ _).keepsRecords fun acct => ?_
  refine Every.bind (Quiet.create (by decide) _).keepsRecords fun row => ?_
  exact (keepsRecords_postJournal ..).bind fun _ => trivial

theorem keepsRecords_repayInTx (loanId : Id) (x : ℚ) (description : String)
    (lines : List JournalLineInput) :
    KeepsRecords (repayInTx auth now loanId x description lines) := by
  refine Every.bind (quiet_applyLoanRepaymentInTx (by decide) _ _ _).keepsRecords fun result => ?_
  exact (keepsRecords_postJournal ..).bind fun _ => trivial

theorem keepsRecords_disburseInTx (loanId vaultId : Id) (principal : Cents)
    (lines : List JournalLineInput) (schedule : List ScheduleRow) :
    KeepsRecords (disburseInTx auth now loanId vaultId principal lines schedule) := by
  refine Every.bind (Quiet.updateGuarded (by decide) _ _ _).keepsRecords fun guardedVault => ?_
  refine (Every.require _ _).bind fun _ => ?_
  refine Every.bind (Quiet.findUniqueOrThrow _ _).keepsRecords fun vault => ?_
  refine Every.bind (Quiet.create (by decide) _).keepsRecords fun entry => ?_
  refine (keepsRecords_postJournal ..).bind fun journal => ?_
  refine Every.bind (Quiet.update (by decide) _ _).keepsRecords fun updated => ?_
  exact (Quiet.createInstallments (by decide) _ _).keepsRecords.bind fun _ => trivial

theorem keepsRecords_cashEntryInTx (vaultId : Id) (type : CashEntryType) (x : ℚ)
    (notes : Option String) (description : String) (lines : List JournalLineInput) :
    KeepsRecords (cashEntryInTx auth now vaultId type x notes description lines) := by
  refine Every.bind (quiet_moveVault (by decide) _ _ _).keepsRecords fun vault => ?_
  refine Every.bind (Quiet.create (by decide) _).keepsRecords fun entry => ?_
  exact (keepsRecords_postJournal ..).bind fun _ => trivial

/-- The relation of every statement, whatever its label. -/
theorem Quiet.recordsStep {α : Type} {p : Handler α} (h : Quiet [.journal] p) :
    p.EveryStep fun _ => Db.KeepsRecords := .of_every (fun _ _ _ => .of_agree) h

theorem recordsStep_transaction {α : Type} (lab : Access) {p : Handler α} (h : KeepsRecords p) :
    (Proc.transaction lab p).EveryStep fun _ => Db.KeepsRecords :=
  .of_every (fun _ _ _ hkept => hkept) (keepsRecords_transaction lab h)

theorem recordsStep_rest {α : Type} {p : Handler α} (hp : Writes [.auditLog] p) :
    p.EveryStep fun _ => Db.KeepsRecords := Quiet.recordsStep (hp.quiet (by decide))

theorem keepsRecords_postDepreciation (asset : Asset) (periodLabel : String) (x : ℚ) :
    KeepsRecords (postDepreciation auth now asset periodLabel x) := by
  refine (keepsRecords_query _).bind fun mappings => ?_
  split
  · trivial
  · refine (keepsRecords_query _).bind fun glPeriod => ?_
    split
    · refine (keepsRecords_query _).bind fun accountById => ?_
      refine (keepsRecords_createJournalAs _ _).bind fun journal => ?_
      exact (Quiet.applyLinesById (by decide) _ _).keepsRecords.bind fun _ => trivial
    · trivial

theorem keepsRecords_processDepreciation (assetId : Id) (periodLabel : String) :
    KeepsRecords (processDepreciation auth now assetId periodLabel) := by
  refine (Every.require _ _).bind fun _ => ?_
  refine (keepsRecords_query _).bind fun found => (Every.orFail _ _).bind fun asset => ?_
  refine (Every.require _ _).bind fun _ => (keepsRecords_query _).bind fun existing => ?_
  refine (Every.require _ _).bind fun _ => (keepsRecords_query _).bind fun monthsElapsed => ?_
  refine (Every.require _ _).bind fun _ => ?_
  refine (keepsRecords_postDepreciation auth now asset periodLabel _).bind fun journalId => ?_
  apply Quiet.keepsRecords
  refine (Quiet.create (by decide) _).bind fun _ => (Quiet.update (by decide) _ _).bind fun _ => ?_
  exact (Quiet.create (by decide) _).bind fun _ => .pure _

theorem keepsRecords_executeRecurring (rjId : Id) (rj : RecurringJournal) :
    KeepsRecords (executeRecurring now rjId rj) := by
  refine (keepsRecords_query _).bind fun accountById => (keepsRecords_query _).bind fun period => ?_
  dsimp only
  split
  · refine (keepsRecords_createJournalAs _ _).bind fun journal => ?_
    apply Quiet.keepsRecords
    refine (Quiet.applyLinesById (by decide) _ _).bind fun _ => ?_
    exact (Quiet.create (by decide) _).bind fun _ => Quiet.update_end (by decide) _ _
  · apply Quiet.keepsRecords
    refine (Quiet.update (by decide) _ _).bind fun _ => ?_
    exact (Quiet.create (by decide) _).bind fun _ => .pure _

/-- A path that posts at once. -/
theorem PostingOperation.keepsRecords (op : PostingOperation) : KeepsRecords op.handler := by
  cases op with
  | deposit auth now a x =>
    refine (EveryStep.every ?_).bind fun _ => trivial
    apply deposit_everyStep recordsStep_rest
    exact fun _ _ => recordsStep_transaction _ (keepsRecords_depositInTx ..)
  | withdraw auth now a x =>
    refine (EveryStep.every ?_).bind fun _ => trivial
    apply withdraw_everyStep recordsStep_rest
    exact fun _ _ => recordsStep_transaction _ (keepsRecords_withdrawInTx ..)
  | recordCollection auth now body =>
    refine (EveryStep.every ?_).bind fun _ => trivial
    apply recordCollection_moves recordsStep_rest
    · exact fun _ _ _ => recordsStep_transaction _ (keepsRecords_depositInTx ..)
    · exact fun _ _ _ => recordsStep_transaction _ (keepsRecords_repayInTx ..)
    · exact fun _ => Quiet.recordsStep (Quiet.createAs (by decide) _ _)
  | disburseLoan js auth now loanId vaultId =>
    refine (EveryStep.every ?_).bind fun _ => trivial
    apply disburseLoan_everyStep (by decide) (by decide) fun _ _ _ => .of_agree
    exact fun _ _ _ _ _ => run_keepsRecords (keepsRecords_disburseInTx ..)
  | recordRepayment auth now loanId x =>
    refine (EveryStep.every ?_).bind fun _ => trivial
    apply recordRepayment_everyStep recordsStep_rest
    exact fun _ _ => recordsStep_transaction _ (keepsRecords_repayInTx ..)
  | recordCashEntry auth now vaultId type x notes =>
    refine (EveryStep.every ?_).bind fun _ => trivial
    apply recordCashEntry_everyStep (by decide) fun _ _ _ => .of_agree
    exact fun _ _ _ _ _ _ => run_keepsRecords (keepsRecords_cashEntryInTx ..)
  | markPayrollPaid auth now runId =>
    exact (keepsRecords_rule.markPayrollPaid auth now runId).bind fun _ => trivial
  | processDepreciation auth now assetId periodLabel =>
    exact (keepsRecords_processDepreciation auth now assetId periodLabel).bind fun _ => trivial
  | runRecurringJournals now =>
    refine (keepsRecords_query _).bind fun due => ?_
    exact Every.forEach fun rj _ => keepsRecords_executeRecurring now rj.1 rj.2

end Postings

/-! ## Requests and decisions -/

section Decisions

variable {now : DateTime} {approvedById : Id}

theorem keepsRecords_postApprovedJournal (journalId : Id) :
    KeepsRecords (postApprovedJournal now approvedById journalId) := by
  refine Every.bind (Quiet.findJournalWithLines _).keepsRecords fun found => ?_
  refine (keepsRecords_query _).bind fun period => ?_
  dsimp only
  split
  · refine Every.bind (Quiet.applyLines (by decide) _).keepsRecords fun _ => ?_
    exact Every.bind (keepsRecords_updateJournal _ _ fun _ => rfl) fun _ => trivial
  · exact Every.bind (keepsRecords_updateJournal _ _ fun _ => rfl) fun _ => trivial

theorem keepsRecords_transferBetweenBranches (targetId : Id) :
    KeepsRecords (transferBetweenBranches now approvedById targetId) := by
  refine Every.bind (Quiet.findUniqueOrThrow _ _).keepsRecords fun transfer => ?_
  refine Every.bind (Quiet.findSettlementAccount _).keepsRecords fun fromSettlement => ?_
  refine Every.bind (Quiet.findSettlementAccount _).keepsRecords fun toSettlement => ?_
  refine Every.bind (Quiet.findUniqueOrThrow _ _).keepsRecords fun fromAccount => ?_
  refine Every.bind (Quiet.findUniqueOrThrow _ _).keepsRecords fun toAccount => ?_
  dsimp only
  split
  · refine (keepsRecords_createJournalAs _ _).bind fun journal => ?_
    apply Quiet.keepsRecords
    exact (Quiet.applyLines (by decide) _).bind fun _ => Quiet.update_end (by decide) _ _
  · exact (Quiet.update_end (by decide) _ _).keepsRecords

theorem keepsRecords_postAccrual (runId : Id) (run : PayrollRun) :
    KeepsRecords (postAccrual now approvedById runId run) := by
  refine (keepsRecords_query _).bind fun mappings => ?_
  split
  · refine (keepsRecords_query _).bind fun period => (keepsRecords_query _).bind fun glPeriod => ?_
    split
    · exact (keepsRecords_query _).bind fun entries => keepsRecords_postDraftLines ..
    · trivial
  · trivial

theorem keepsRecords_approvePayrollRun (runId : Id) :
    KeepsRecords (approvePayrollRun now approvedById runId) := by
  refine Every.bind (Quiet.findUniqueOrThrow _ _).keepsRecords fun run => ?_
  refine (keepsRecords_postAccrual runId run).bind fun journal => ?_
  exact (Quiet.update_end (by decide) _ _).keepsRecords

theorem keepsRecords_postDisposal (disposal : AssetDisposal) (asset : Asset) :
    KeepsRecords (postDisposal now approvedById disposal asset) := by
  refine (keepsRecords_query _).bind fun mappings => ?_
  dsimp only
  split
  · refine (keepsRecords_query _).bind fun glPeriod => ?_
    split
    · exact keepsRecords_postDraftLines ..
    · trivial
  · trivial

theorem keepsRecords_disposeAsset (targetId : Id) :
    KeepsRecords (disposeAsset now approvedById targetId) := by
  refine Every.bind (Quiet.findUniqueOrThrow _ _).keepsRecords fun disposal => ?_
  refine Every.bind (Quiet.findUniqueOrThrow _ _).keepsRecords fun asset => ?_
  refine (keepsRecords_postDisposal disposal asset).bind fun journal => ?_
  apply Quiet.keepsRecords
  exact (Quiet.update (by decide) _ _).bind fun _ => Quiet.update_end (by decide) _ _

theorem keepsRecords_applyApproval (request : ApprovalRequest) :
    KeepsRecords (applyApproval now request approvedById) := by
  have hquiet : (∀ m ∈ approvalWrites request.type, m ∉ [Model.journal]) →
      KeepsRecords (applyApproval now request approvedById) :=
    fun hm => (Quiet.applyApproval hm _ _).keepsRecords
  unfold applyApproval
  cases htype : request.type
  case journalPosting => exact keepsRecords_postApprovedJournal _
  case interBranchTransfer => exact keepsRecords_transferBetweenBranches _
  case payrollRunApproval => exact keepsRecords_approvePayrollRun _
  case assetDisposal => exact keepsRecords_disposeAsset _
  all_goals
    unfold applyApproval at hquiet
    rw [htype] at hquiet
    exact hquiet (by decide)

theorem keepsRecords_applyRejection (request : ApprovalRequest) :
    KeepsRecords (applyRejection request) := by
  have hquiet : (∀ m ∈ approvalWrites request.type, m ∉ [Model.journal]) →
      KeepsRecords (applyRejection request) := fun hm => (Quiet.applyRejection hm).keepsRecords
  unfold applyRejection
  cases htype : request.type
  case journalPosting =>
    exact Every.bind (keepsRecords_updateJournal _ _ fun _ => rfl) fun _ => trivial
  case interBranchTransfer | payrollRunApproval | assetDisposal =>
    exact (Quiet.update_end (by decide) _ _).keepsRecords
  all_goals
    unfold applyRejection at hquiet
    rw [htype] at hquiet
    exact hquiet (by decide)

theorem ResolveCall.effect_keepsRecords (call : ResolveCall) (existing : ApprovalRequest) :
    KeepsRecords (call.effect existing) := by
  unfold effect
  cases call.decision with
  | approve => exact keepsRecords_applyApproval existing
  | reject => exact keepsRecords_applyRejection existing

theorem ResolveCall.keepsRecords (call : ResolveCall) : KeepsRecords call.handler := by
  apply EveryStep.every
  apply call.everyStep fun _ => Db.KeepsRecords.refl
  intro existing s t hrun
  obtain ⟨-, u, -, -, heffect, ht⟩ := run_inTx_effect hrun
  have hclaimed : s.KeepsRecords (s.modify .approvalRequest call.requestId call.resolve) :=
    .of_agree (Db.Agree.modify (m := .approvalRequest) (by decide) s _ _)
  have hdecided := run_keepsRecords (call.effect_keepsRecords existing) heffect
  rw [ht]
  exact (hclaimed.trans hdecided).trans
    (.of_agree (Db.Agree.insert (m := .auditLog) (by decide) u _))

theorem keepsRecords_createManualJournal (auth : Auth) (body : JournalBody) :
    KeepsRecords (createManualJournal auth now body) := by
  refine (Every.require _ _).bind fun _ => ?_
  have hlines : KeepsRecords (Proc.forEach body.lines checkJournalLine) := by
    apply Every.forEach
    intro l _
    exact (Every.require _ _).bind fun _ => Every.require _ _
  refine hlines.bind fun _ => (Every.require _ _).bind fun _ => ?_
  refine (keepsRecords_query _).bind fun period => (Every.orFail _ _).bind fun found => ?_
  refine (Every.require _ _).bind fun _ => (keepsRecords_createJournalAs _ _).bind fun journal => ?_
  exact (Quiet.create (by decide) _).keepsRecords.bind fun _ => trivial

theorem keepsRecords_requestPosting (auth : Auth) (journalId : Id) :
    KeepsRecords (requestPosting auth journalId) := by
  refine (keepsRecords_query _).bind fun found => (Every.orFail _ _).bind fun journal => ?_
  refine (Every.require _ _).bind fun _ => ?_
  refine Every.bind (Quiet.create (by decide) _).keepsRecords fun request => ?_
  exact Every.bind (keepsRecords_updateJournal _ _ fun _ => rfl) fun _ => trivial

/-- The other requests write the row that waits and the request. -/
theorem writes_requestInterBranchTransfer (auth : Auth) (body : InterBranchBody) :
    Writes [.interBranchTransfer, .approvalRequest, .auditLog]
      (requestInterBranchTransfer auth body) := by
  refine (Writes.require _ _).bind fun _ => (Writes.require _ _).bind fun _ => ?_
  refine (Writes.query _).bind fun _ => (Writes.query _).bind fun _ => ?_
  refine (Writes.require _ _).bind fun _ => (Writes.create (by decide) _).bind fun _ => ?_
  exact (Writes.create (by decide) _).bind fun _ => writes_log (by decide) _ _

theorem writes_requestDisposal (auth : Auth) (body : DisposalBody) :
    Writes [.assetDisposal, .approvalRequest, .auditLog] (requestDisposal auth body) := by
  refine (Writes.require _ _).bind fun _ => (Writes.require _ _).bind fun _ => ?_
  refine (Writes.query _).bind fun _ => (Writes.orFail _ _).bind fun _ => ?_
  refine (Writes.require _ _).bind fun _ => (Writes.create (by decide) _).bind fun _ => ?_
  exact (Writes.create (by decide) _).bind fun _ => writes_log (by decide) _ _

theorem writes_getHolderBalance {ms : List Model} (type : CashHolderType) (id : Id) :
    Writes ms (getHolderBalance type id) := by
  cases type with
  | vault => exact (Writes.query _).bind fun _ => Writes.pure _
  | teller => exact (Writes.query _).bind fun _ => Writes.pure _

theorem writes_requestTransfer (auth : Auth) (body : TransferRequest) :
    Writes [.cashTransfer, .approvalRequest, .auditLog] (requestTransfer auth body) := by
  refine (Writes.require _ _).bind fun _ => (Writes.require _ _).bind fun _ => ?_
  refine (writes_getHolderBalance _ _).bind fun _ => (Writes.orFail _ _).bind fun _ => ?_
  refine (Writes.require _ _).bind fun _ => (writes_getHolderBalance _ _).bind fun _ => ?_
  refine (Writes.orFail _ _).bind fun _ => (Writes.create (by decide) _).bind fun _ => ?_
  exact (Writes.create (by decide) _).bind fun _ => writes_log (by decide) _ _

theorem LedgerOperation.keepsRecords (op : LedgerOperation) : KeepsRecords op.handler := by
  cases op with
  | post op => exact op.keepsRecords
  | createManualJournal auth now body =>
    exact (keepsRecords_createManualJournal auth body).bind fun _ => trivial
  | requestPosting auth journalId => exact keepsRecords_requestPosting auth journalId
  | requestInterBranchTransfer auth body =>
    have hwrites := writes_requestInterBranchTransfer auth body
    exact Every.bind (hwrites.keepsRecords (by decide)) fun _ => trivial
  | requestPayrollApproval auth runId =>
    exact keepsRecords_rule.requestPayrollApproval auth runId
  | requestDisposal auth body =>
    have hwrites := writes_requestDisposal auth body
    exact Every.bind (hwrites.keepsRecords (by decide)) fun _ => trivial
  | requestTransfer auth body =>
    have hwrites := writes_requestTransfer auth body
    exact Every.bind (hwrites.keepsRecords (by decide)) fun _ => trivial
  | resolve call => exact call.keepsRecords

end Decisions

/-! ## Every interleaving -/

section Runs

theorem PeriodCall.keepsRecords (call : PeriodCall) : KeepsRecords call.handler := by
  have hupdate : ∀ (auth : Auth) (action : String) (lab : Access) (periodId : Id)
      (f : FinancialPeriod → FinancialPeriod), KeepsRecords (do
        let updated ← updateAs lab .financialPeriod periodId f
        let _ ← create .auditLog (periodLog auth action periodId)
        return updated : Handler FinancialPeriod) := by
    intro auth action lab periodId f
    apply Quiet.keepsRecords
    refine (Quiet.update (by decide) _ _).bind fun _ => ?_
    exact (Quiet.create (by decide) _).bind fun _ => .pure _
  cases call with
  | close auth now periodId =>
    refine Every.bind ?_ fun _ => trivial
    refine (keepsRecords_query _).bind fun found => (Every.orFail _ _).bind fun period => ?_
    exact (Every.require _ _).bind fun _ => hupdate auth "financial_period.close" _ periodId _
  | lock auth now periodId =>
    refine Every.bind ?_ fun _ => trivial
    refine (keepsRecords_query _).bind fun found => (Every.orFail _ _).bind fun period => ?_
    exact (Every.require _ _).bind fun _ => hupdate auth "financial_period.lock" {} periodId _
  | requestReopen auth periodId reason =>
    refine (Every.orFail _ _).bind fun reason => ?_
    refine (keepsRecords_query _).bind fun found => (Every.orFail _ _).bind fun period => ?_
    refine (Every.require _ _).bind fun _ => (Every.require _ _).bind fun _ => ?_
    exact Every.bind (Quiet.create (by decide) _).keepsRecords fun _ => trivial
  | resolve call => exact call.keepsRecords

theorem LedgerCall.keepsRecords (call : LedgerCall) : KeepsRecords call.handler := by
  cases call with
  | operation op => exact op.keepsRecords
  | createPeriod auth body =>
    refine Every.bind ?_ fun _ => trivial
    refine (Every.require _ _).bind fun _ => (keepsRecords_query _).bind fun overlap => ?_
    cases overlap with
    | some found => trivial
    | none =>
      apply Quiet.keepsRecords
      refine (Quiet.create (by decide) _).bind fun _ => ?_
      exact (Quiet.create (by decide) _).bind fun _ => .pure _
  | period call => exact call.keepsRecords
  | other p quiet => exact quiet.keepsRecords

/-- Whatever calls are on their way, in whatever order their statements come: a journal that is
there at some point is there at every later one, with the same lines, on the same date. -/
theorem journals_append_only {ι : Type} [DecidableEq ι] (calls : ι → LedgerCall) (s : Db)
    (before after : List ι) :
    ((ledgerPool calls s).run before).state.KeepsRecords
      ((ledgerPool calls s).run (before ++ after)).state := by
  have hall : ∀ i, ((ledgerPool calls s).threads i).EveryStep fun _ => Db.KeepsRecords :=
    fun i => .of_every (fun _ _ _ h => h) (calls i).keepsRecords
  have hstart := Pool.run_everyStep hall before
  rw [Pool.run_append]
  exact Pool.run_rel Db.KeepsRecords.refl Db.KeepsRecords.trans (fun _ _ _ h _ => h) hstart
    (Pool.allowed_true _ after)

end Runs

end NexusEfos
