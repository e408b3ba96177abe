/-
Which tables the resolution of a request writes.

Each effect is gone through once, statement by statement.  The result,
`ResolveCall.quiet_effect`, is the frame of every later argument about approvals: a
table outside `approvalWrites` is as it was.
-/
import NexusEfos.Approvals.Resolve
import NexusEfos.Handlers

namespace NexusEfos

/-- The tables an approval may write, beside the request and the audit log. -/
def approvalWrites : ApprovalRequestType → List Model
  | .customerStatusChange | .customerProfileUpdate | .amlAdjudication => [.customer]
  | .accountHolderAdd => [.accountHolder]
  | .productActivation => [.product]
  | .businessRuleActivation => [.businessRule]
  | .businessRuleTriggered => []
  | .loanRestructure => [.loanInstallment, .loan, .loanRestructure]
  | .loanReschedule => [.loanInstallment, .loanReschedule]
  | .loanWriteOff => [.loan, .loanWriteOff]
  | .collectionVarianceAdjustment => [.collectionSettlement]
  | .commissionPayment => [.commissionRecord]
  | .savingsRestrictionCreate | .savingsRestrictionRemove => [.savingsRestriction]
  | .cashTransfer => [.vault, .teller, .cashLedgerEntry, .cashTransfer]
  | .cashBalancingVariance => [.cashBalancing]
  | .journalPosting => [.gLAccount, .journal]
  | .financialPeriodReopen => [.financialPeriod]
  | .recurringJournalActivation => [.recurringJournal]
  | .interBranchTransfer => [.gLAccount, .journal, .interBranchTransfer]
  | .salaryStructureChange => [.employeeSalaryStructure]
  | .payrollRunApproval => [.gLAccount, .journal, .payrollRun]
  | .attendanceCorrection => [.attendanceRecord]
  | .auditEngagementApproval => [.auditEngagement]
  | .assetTransfer => [.asset, .assetTransfer]
  | .assetDisposal => [.gLAccount, .journal, .assetDisposal, .asset]
  | .customerMerge =>
    [.nextOfKin, .customerNote, .beneficiary, .beneficialOwner, .loan, .savingsAccount,
      .accountHolder, .document, .collectionRouteCustomer, .collectionTransaction, .customer,
      .customerMergeRecord]

/-- The tables a rejection may write, beside the request and the audit log. -/
def rejectionWrites : List Model :=
  [.customer, .product, .businessRule, .commissionRecord, .savingsRestriction, .cashTransfer,
    .attendanceRecord, .auditEngagement, .journal, .recurringJournal, .employeeSalaryStructure,
    .payrollRun, .assetTransfer, .assetDisposal, .customerMergeRecord, .interBranchTransfer]

namespace Quiet

variable {α : Type} {watched : List Model}

theorem findJournalWithLines (journalId : Id) :
    Quiet watched (NexusEfos.findJournalWithLines journalId) :=
  (query _).bind fun _ => orFail _ _

theorem findSettlementAccount (branchId : Id) :
    Quiet watched (NexusEfos.findSettlementAccount branchId) :=
  (query _).bind fun _ => orFail _ _

theorem createJournal (hm : Model.journal ∉ watched) (journal : Journal) :
    Quiet watched (NexusEfos.createJournal journal) :=
  (Writes.createJournalAs (List.mem_singleton_self _) {} journal).every _ (permits hm)

theorem applyLines (hm : Model.gLAccount ∉ watched) (lines : List JournalLineInput) :
    Quiet watched (NexusEfos.applyLines lines) :=
  (Writes.applyLines (List.mem_singleton_self _) lines).every _ (permits hm)

theorem applyLinesById (hm : Model.gLAccount ∉ watched) (accountById : Id → Option GLAccount)
    (lines : List LineInput) : Quiet watched (NexusEfos.applyLinesById accountById lines) :=
  (Writes.applyLinesById (List.mem_singleton_self _) accountById lines).every _ (permits hm)

theorem postJournal (hj : Model.journal ∉ watched) (hg : Model.gLAccount ∉ watched) (auth : Auth)
    (now : DateTime) (description : String) (lines : List JournalLineInput) :
    Quiet watched (NexusEfos.postJournal auth now description lines) :=
  (createJournal hj _).bind fun _ => (applyLines hg lines).bind fun _ => pure _

theorem postDraftLines (hj : Model.journal ∉ watched) (hg : Model.gLAccount ∉ watched)
    (institutionId approvedById : Id) (now postingDate : DateTime) (description : String)
    (drafts : List DraftLine) :
    Quiet watched (NexusEfos.postDraftLines institutionId approvedById now postingDate description
      drafts) := by
  apply ite
  · refine (orFail _ _).bind fun lines => (query _).bind fun accountById => ?_
    refine (createJournal hj _).bind fun journal => ?_
    exact (applyLinesById hg accountById lines).bind fun _ => pure _
  · exact pure _

theorem addAccountHolder (hm : Model.accountHolder ∉ watched) (request : ApprovalRequest) :
    Quiet watched (NexusEfos.addAccountHolder request) :=
  (orFail _ _).bind fun _ => (orFail _ _).bind fun _ => (create hm _).bind fun _ => pure ()

theorem reassign {m : Model} (hm : m ∉ watched) (customerId : Row m → Id)
    (setCustomerId : Id → Row m → Row m) (primary merged : Id) :
    Quiet watched (NexusEfos.reassign m customerId setCustomerId primary merged) := by
  refine (query _).bind fun records => ?_
  apply ite
  · exact pure _
  · exact (updateMany hm _ _).bind fun _ => pure _

theorem mergeCustomers (hm : ∀ m ∈ approvalWrites .customerMerge, m ∉ watched) (now : DateTime)
    (approvedById targetId : Id) :
    Quiet watched (NexusEfos.mergeCustomers now approvedById targetId) := by
  refine (findUniqueOrThrow _ _).bind fun mergeRecord => ?_
  have hmerge : Quiet watched (executeCustomerMerge mergeRecord.primaryCustomerId
      mergeRecord.mergedCustomerId) := by
    refine (reassign (hm _ (by decide)) _ _ _ _).bind fun _ => ?_
    refine (reassign (hm _ (by decide)) _ _ _ _).bind fun _ => ?_
    refine (reassign (hm _ (by decide)) _ _ _ _).bind fun _ => ?_
    refine (reassign (hm _ (by decide)) _ _ _ _).bind fun _ => ?_
    refine (reassign (hm _ (by decide)) _ _ _ _).bind fun _ => ?_
    refine (reassign (hm _ (by decide)) _ _ _ _).bind fun _ => ?_
    refine (reassign (hm _ (by decide)) _ _ _ _).bind fun _ => ?_
    refine (reassign (hm _ (by decide)) _ _ _ _).bind fun _ => ?_
    refine (reassign (hm _ (by decide)) _ _ _ _).bind fun _ => ?_
    refine (reassign (hm _ (by decide)) _ _ _ _).bind fun _ => ?_
    exact (update (hm _ (by decide)) _ _).bind fun _ => pure _
  exact hmerge.bind fun _ => update_end (hm _ (by decide)) _ _

theorem createInstallments (hm : Model.loanInstallment ∉ watched) (loanId : Id)
    (schedule : List ScheduleRow) :
    Quiet watched (NexusEfos.createInstallments loanId schedule) := by
  refine ⟨fun s => ?_, fun _ => trivial⟩
  have hinserts : ∀ (rows : List ScheduleRow) (t : Db), s.Agree watched t →
      s.Agree watched (rows.foldl
        (fun s row => s.insert .loanInstallment (row.installment loanId)) t) := by
    intro rows
    induction rows with
    | nil => exact fun _ ht => ht
    | cons row rows ih => exact fun t ht => ih _ (ht.trans (Db.Agree.insert hm t _))
  dsimp only
  split
  · exact hinserts schedule s (Db.Agree.refl s)
  · exact Db.Agree.refl s

theorem restructureLoan (hm : ∀ m ∈ approvalWrites .loanRestructure, m ∉ watched)
    (now : DateTime) (targetId : Id) : Quiet watched (NexusEfos.restructureLoan now targetId) := by
  refine (findUniqueOrThrow _ _).bind fun restructure => ?_
  refine (updateMany (hm _ (by decide)) _ _).bind fun _ => ?_
  refine (createInstallments (hm _ (by decide)) _ _).bind fun _ => ?_
  refine (update (hm _ (by decide)) _ _).bind fun _ => ?_
  exact update_end (hm _ (by decide)) _ _

theorem rescheduleLoan (hm : ∀ m ∈ approvalWrites .loanReschedule, m ∉ watched)
    (now : DateTime) (targetId : Id) : Quiet watched (NexusEfos.rescheduleLoan now targetId) := by
  refine (findUniqueOrThrow _ _).bind fun reschedule => (query _).bind fun installments => ?_
  refine (forEach fun _ _ => update_end (hm _ (by decide)) _ _).bind fun _ => ?_
  exact update_end (hm _ (by decide)) _ _

theorem writeOffLoan (hm : ∀ m ∈ approvalWrites .loanWriteOff, m ∉ watched)
    (now : DateTime) (targetId : Id) : Quiet watched (NexusEfos.writeOffLoan now targetId) := by
  refine (findUniqueOrThrow _ _).bind fun writeOff => ?_
  refine (update (hm _ (by decide)) _ _).bind fun _ => ?_
  exact update_end (hm _ (by decide)) _ _

theorem currentBalance (type : CashHolderType) (id : Id) :
    Quiet watched (NexusEfos.currentBalance type id) := by
  cases type with
  | vault => exact (findUniqueOrThrow _ _).bind fun _ => pure _
  | teller => exact (findUniqueOrThrow _ _).bind fun _ => pure _

theorem applyDelta (hv : Model.vault ∉ watched) (ht : Model.teller ∉ watched)
    (type : CashHolderType) (id : Id) (delta : ℚ) :
    Quiet watched (NexusEfos.applyDelta type id delta) := by
  cases type with
  | vault => exact (update hv _ _).bind fun _ => pure _
  | teller => exact (update ht _ _).bind fun _ => pure _

theorem transferCash (hm : ∀ m ∈ approvalWrites .cashTransfer, m ∉ watched) (now : DateTime)
    (approvedById targetId : Id) :
    Quiet watched (NexusEfos.transferCash now approvedById targetId) := by
  have hdelta := applyDelta (hm .vault (by decide)) (hm .teller (by decide))
  refine (findUniqueOrThrow _ _).bind fun transfer => (currentBalance _ _).bind fun _ => ?_
  apply ite
  · exact update_end (hm _ (by decide)) _ _
  · refine (hdelta _ _ _).bind fun _ => (hdelta _ _ _).bind fun _ => ?_
    refine (create (hm _ (by decide)) _).bind fun _ => (create (hm _ (by decide)) _).bind fun _ => ?_
    exact update_end (hm _ (by decide)) _ _

theorem postApprovedJournal (hm : ∀ m ∈ approvalWrites .journalPosting, m ∉ watched)
    (now : DateTime) (approvedById journalId : Id) :
    Quiet watched (NexusEfos.postApprovedJournal now approvedById journalId) := by
  refine (findJournalWithLines _).bind fun found => (query _).bind fun period => ?_
  apply ite
  · exact (applyLines (hm _ (by decide)) _).bind fun _ => update_end (hm _ (by decide)) _ _
  · exact update_end (hm _ (by decide)) _ _

theorem transferBetweenBranches (hm : ∀ m ∈ approvalWrites .interBranchTransfer, m ∉ watched)
    (now : DateTime) (approvedById targetId : Id) :
    Quiet watched (NexusEfos.transferBetweenBranches now approvedById targetId) := by
  refine (findUniqueOrThrow _ _).bind fun transfer => ?_
  refine (findSettlementAccount _).bind fun _ => (findSettlementAccount _).bind fun _ => ?_
  refine (findUniqueOrThrow _ _).bind fun _ => (findUniqueOrThrow _ _).bind fun _ => ?_
  apply ite
  · refine (createJournal (hm _ (by decide)) _).bind fun _ => ?_
    exact (applyLines (hm _ (by decide)) _).bind fun _ => update_end (hm _ (by decide)) _ _
  · exact update_end (hm _ (by decide)) _ _

theorem postAccrual (hj : Model.journal ∉ watched) (hg : Model.gLAccount ∉ watched) (now : DateTime)
    (approvedById runId : Id) (run : PayrollRun) :
    Quiet watched (NexusEfos.postAccrual now approvedById runId run) := by
  refine (query _).bind fun mappings => ite ?_ (pure _)
  refine (query _).bind fun period => (query _).bind fun glPeriod => ite ?_ (pure _)
  exact (query _).bind fun entries => postDraftLines hj hg _ _ _ _ _ _

theorem approvePayrollRun (hm : ∀ m ∈ approvalWrites .payrollRunApproval, m ∉ watched)
    (now : DateTime) (approvedById targetId : Id) :
    Quiet watched (NexusEfos.approvePayrollRun now approvedById targetId) := by
  refine (findUniqueOrThrow _ _).bind fun run => ?_
  refine (postAccrual (hm _ (by decide)) (hm _ (by decide)) _ _ _ _).bind fun _ => ?_
  exact update_end (hm _ (by decide)) _ _

theorem postDisposal (hj : Model.journal ∉ watched) (hg : Model.gLAccount ∉ watched)
    (now : DateTime) (approvedById : Id) (disposal : AssetDisposal) (asset : Asset) :
    Quiet watched (NexusEfos.postDisposal now approvedById disposal asset) := by
  refine (query _).bind fun mappings => ite ?_ (pure _)
  refine (query _).bind fun glPeriod => ite ?_ (pure _)
  exact postDraftLines hj hg _ _ _ _ _ _

theorem disposeAsset (hm : ∀ m ∈ approvalWrites .assetDisposal, m ∉ watched) (now : DateTime)
    (approvedById targetId : Id) :
    Quiet watched (NexusEfos.disposeAsset now approvedById targetId) := by
  refine (findUniqueOrThrow _ _).bind fun disposal => (findUniqueOrThrow _ _).bind fun asset => ?_
  refine (postDisposal (hm _ (by decide)) (hm _ (by decide)) _ _ _ _).bind fun _ => ?_
  refine (update (hm _ (by decide)) _ _).bind fun _ => ?_
  exact update_end (hm _ (by decide)) _ _

theorem changeSalaryStructure (hm : Model.employeeSalaryStructure ∉ watched)
    (approvedById targetId : Id) :
    Quiet watched (NexusEfos.changeSalaryStructure approvedById targetId) :=
  (findUniqueOrThrow _ _).bind fun _ => (updateMany hm _ _).bind fun _ => update_end hm _ _

theorem correctAttendance (hm : Model.attendanceRecord ∉ watched) (targetId : Id) :
    Quiet watched (NexusEfos.correctAttendance targetId) :=
  (findUniqueOrThrow _ _).bind fun _ => update_end hm _ _

theorem transferAsset (hm : ∀ m ∈ approvalWrites .assetTransfer, m ∉ watched) (now : DateTime)
    (targetId : Id) : Quiet watched (NexusEfos.transferAsset now targetId) :=
  (findUniqueOrThrow _ _).bind fun _ => (update (hm _ (by decide)) _ _).bind fun _ =>
    update_end (hm _ (by decide)) _ _

/-- An approval writes the tables of its type. -/
theorem applyApproval {request : ApprovalRequest}
    (hm : ∀ m ∈ approvalWrites request.type, m ∉ watched) (now : DateTime) (approvedById : Id) :
    Quiet watched (NexusEfos.applyApproval now request approvedById) := by
  unfold NexusEfos.applyApproval
  cases htype : request.type <;> rw [htype] at hm
  case accountHolderAdd => exact addAccountHolder (hm _ (by decide)) request
  case businessRuleTriggered => exact pure ()
  case loanRestructure => exact restructureLoan hm now _
  case loanReschedule => exact rescheduleLoan hm now _
  case loanWriteOff => exact writeOffLoan hm now _
  case cashTransfer => exact transferCash hm now approvedById _
  case journalPosting => exact postApprovedJournal hm now approvedById _
  case interBranchTransfer => exact transferBetweenBranches hm now approvedById _
  case salaryStructureChange => exact changeSalaryStructure (hm _ (by decide)) approvedById _
  case payrollRunApproval => exact approvePayrollRun hm now approvedById _
  case attendanceCorrection => exact correctAttendance (hm _ (by decide)) _
  case assetTransfer => exact transferAsset hm now _
  case assetDisposal => exact disposeAsset hm now approvedById _
  case customerMerge => exact mergeCustomers hm now approvedById _
  all_goals exact update_end (hm _ (by decide)) _ _

/-- A rejection writes no more. -/
theorem applyRejection {request : ApprovalRequest}
    (hm : ∀ m ∈ approvalWrites request.type, m ∉ watched) :
    Quiet watched (NexusEfos.applyRejection request) := by
  unfold NexusEfos.applyRejection
  cases htype : request.type <;> rw [htype] at hm
  case customerStatusChange | customerProfileUpdate =>
    cases request.payload.previousStatus with
    | some previousStatus => exact update_end (hm _ (by decide)) _ _
    | none => exact pure ()
  case accountHolderAdd | amlAdjudication | businessRuleTriggered | loanRestructure
    | loanReschedule | loanWriteOff | collectionVarianceAdjustment | cashBalancingVariance
    | financialPeriodReopen => exact pure ()
  all_goals exact update_end (hm _ (by decide)) _ _

/-- A rejection of any type writes none but the tables of rejections. -/
theorem rejection (hm : ∀ m ∈ rejectionWrites, m ∉ watched) (request : ApprovalRequest) :
    Quiet watched (NexusEfos.applyRejection request) := by
  unfold NexusEfos.applyRejection
  cases request.type
  case customerStatusChange | customerProfileUpdate =>
    cases request.payload.previousStatus with
    | some previousStatus => exact update_end (hm _ (by decide)) _ _
    | none => exact pure ()
  case accountHolderAdd | amlAdjudication | businessRuleTriggered | loanRestructure
    | loanReschedule | loanWriteOff | collectionVarianceAdjustment | cashBalancingVariance
    | financialPeriodReopen => exact pure ()
  all_goals exact update_end (hm _ (by decide)) _ _

end Quiet

/-- The statement with which a merge gives the rows of a customer to another one. -/
theorem reassign_every {m : Model} {A : Db → Db → Prop} {customerId : Row m → Id}
    {set : Id → Row m → Row m} {primary merged : Id} (hrefl : ∀ s, A s s)
    (h : ∀ s : Db, A s (s.modifyAll m fun _ row =>
      if decide (customerId row = merged) = true then set primary row else row)) :
    (reassign m customerId set primary merged).Every A := by
  refine Proc.Every.bind ⟨hrefl, fun _ => trivial⟩ fun records => ?_
  by_cases hnone : records.isEmpty = true
  · rw [if_pos hnone]
    trivial
  · rw [if_neg hnone]
    exact ⟨h, fun _ => trivial⟩

/-- The models whose rows a merge gives to another customer and that a run may have an eye on. -/
def mergedModels : List Model := [.loan, .savingsAccount, .collectionTransaction]

/-- What holds of a statement that touches none of the watched tables, and of those that give
the loans, the accounts and the collections of a customer to another one, holds of every
statement of a merge. -/
theorem mergeCustomers_every_of_reassign {A : Db → Db → Prop} {watched : List Model}
    (hwatched : ∀ m ∈ approvalWrites .customerMerge, m ∉ mergedModels → m ∉ watched)
    (hquiet : ∀ s s', s.Agree watched s' → A s s')
    (hloan : ∀ p q, (reassign .loan Loan.customerId (fun id l => { l with customerId := id }) p
      q).Every A)
    (hsavings : ∀ p q, (reassign .savingsAccount SavingsAccount.customerId
      (fun id a => { a with customerId := id }) p q).Every A)
    (hcollection : ∀ p q, (reassign .collectionTransaction CollectionTransaction.customerId
      (fun id c => { c with customerId := id }) p q).Every A)
    (now : DateTime) (approvedById targetId : Id) :
    (mergeCustomers now approvedById targetId).Every A := by
  have hfree : ∀ {m : Model}, m ∈ approvalWrites .customerMerge → m ∉ mergedModels →
      m ∉ watched := fun hm hother => hwatched _ hm hother
  have hevery : ∀ {α : Type} {p : Handler α}, Quiet watched p → p.Every A :=
    fun hp => Proc.Every.imp hp hquiet
  have hother : ∀ {m : Model} (customerId : Row m → Id) (set : Id → Row m → Row m) (p q : Id),
      m ∈ approvalWrites .customerMerge → m ∉ mergedModels →
        (reassign m customerId set p q).Every A :=
    fun customerId set p q hm hne => hevery (Quiet.reassign (hfree hm hne) customerId set p q)
  refine (hevery (Quiet.findUniqueOrThrow _ _)).bind fun record => ?_
  refine Proc.Every.bind ?_ fun _ => hevery (Quiet.update_end (hfree (by decide) (by decide)) _ _)
  refine (hother _ _ _ _ (by decide) (by decide)).bind fun nextOfKin => ?_
  refine (hother _ _ _ _ (by decide) (by decide)).bind fun customerNote => ?_
  refine (hother _ _ _ _ (by decide) (by decide)).bind fun beneficiary => ?_
  refine (hother _ _ _ _ (by decide) (by decide)).bind fun beneficialOwner => ?_
  refine (hloan _ _).bind fun loan => (hsavings _ _).bind fun savingsAccount => ?_
  refine (hother _ _ _ _ (by decide) (by decide)).bind fun accountHolder => ?_
  refine (hother _ _ _ _ (by decide) (by decide)).bind fun document => ?_
  refine (hother _ _ _ _ (by decide) (by decide)).bind fun collectionRouteCustomer => ?_
  refine (hcollection _ _).bind fun collectionTransaction => ?_
  exact (hevery (Quiet.update (hfree (by decide) (by decide)) _ _)).bind fun _ => trivial

/-- The effect of a decision writes the tables of the request's type. -/
theorem ResolveCall.quiet_effect {watched : List Model} (call : ResolveCall)
    {existing : ApprovalRequest} (hm : ∀ m ∈ approvalWrites existing.type, m ∉ watched) :
    Quiet watched (call.effect existing) := by
  unfold effect
  cases call.decision with
  | approve => exact Quiet.applyApproval hm _ _
  | reject => exact Quiet.applyRejection hm

end NexusEfos
