/-
The paths that post a journal without an approval.

Six of them write the journal and move the balances in one transaction.  The settlement of a
payroll, the depreciation of an asset and the run of the recurring journals create the
journal first, as posted, and apply its lines in statements of their own.
-/
import NexusEfos.Ledger.RecurringJournals
import NexusEfos.Operations.CashCustody
import NexusEfos.Loans.LifecycleRuns
import NexusEfos.Savings.Steps

namespace NexusEfos

open Proc

/-- A double entry over an amount is allowed. -/
structure AllowsAmount (allowed : List JournalLineInput → Prop) (x : ℚ) : Prop where
  entry : ∀ debited credited, allowed (doubleEntry debited credited x)
  lines : ∀ (s : Db) i j, allowed (s.categorise (twoLines i j x))

variable {allowed : List JournalLineInput → Prop}

/-! ## The transactions -/

section Transactions

variable {lines : List JournalLineInput} {auth : Auth} {now : DateTime}

/-- The end of every posting transaction. -/
theorem Posts.postJournal_end {α : Type} (hallowed : allowed lines) (description : String) (a : α) :
    Posts allowed lines (do
      let _ ← NexusEfos.postJournal auth now description lines
      return a) :=
  (Posts.postJournal hallowed _ _ _).bind fun _ => .of_quiet (.pure _)

theorem depositInTx_posts (hallowed : allowed lines) (accountId : Id) (x : ℚ)
    (description : String) :
    Posts allowed lines (depositInTx auth now accountId x description lines) := by
  refine (Posts.of_quiet (Quiet.update (by decide) _ _)).bind fun acct => ?_
  refine (Posts.of_quiet (Quiet.create (by decide) _)).bind fun row => ?_
  exact Posts.postJournal_end hallowed _ _

theorem withdrawInTx_posts (hallowed : allowed lines) (accountId : Id) (x : ℚ)
    (description : String) :
    Posts allowed lines (withdrawInTx auth now accountId x description lines) := by
  refine (Posts.of_quiet (Quiet.updateGuarded (by decide) _ _ _)).bind fun updated => ?_
  refine (Posts.of_quiet (Quiet.require _ _)).bind fun _ => ?_
  refine (Posts.of_quiet (Quiet.findUniqueOrThrow _ _)).bind fun acct => ?_
  refine (Posts.of_quiet (Quiet.create (by decide) _)).bind fun row => ?_
  exact Posts.postJournal_end hallowed _ _

theorem repayInTx_posts (hallowed : allowed lines) (loanId : Id) (x : ℚ) (description : String) :
    Posts allowed lines (repayInTx auth now loanId x description lines) := by
  refine (Posts.of_quiet (quiet_applyLoanRepaymentInTx (by decide) _ _ _)).bind fun result => ?_
  exact Posts.postJournal_end hallowed _ _

theorem disburseInTx_posts (hallowed : allowed lines) (loanId vaultId : Id) (principal : Cents)
    (schedule : List ScheduleRow) :
    Posts allowed lines (disburseInTx auth now loanId vaultId principal lines schedule) := by
  refine (Posts.of_quiet (Quiet.updateGuarded (by decide) _ _ _)).bind fun guardedVault => ?_
  refine (Posts.of_quiet (Quiet.require _ _)).bind fun _ => ?_
  refine (Posts.of_quiet (Quiet.findUniqueOrThrow _ _)).bind fun vault => ?_
  refine (Posts.of_quiet (Quiet.create (by decide) _)).bind fun entry => ?_
  refine (Posts.postJournal hallowed _ _ _).bind fun journal => ?_
  refine (Posts.of_quiet (Quiet.update (by decide) _ _)).bind fun updated => ?_
  exact .of_quiet ((Quiet.createInstallments (by decide) _ _).bind fun _ => .pure _)

theorem quiet_moveVault {watched : List Model} (hv : Model.vault ∉ watched) (vaultId : Id)
    (type : CashEntryType) (x : ℚ) : Quiet watched (moveVault vaultId type x) := by
  cases type with
  | receipt => exact Quiet.update hv _ _
  | withdrawal =>
    refine (Quiet.updateGuarded hv _ _ _).bind fun _ => (Quiet.require _ _).bind fun _ => ?_
    exact Quiet.findUniqueOrThrow _ _

theorem cashEntryInTx_posts (hallowed : allowed lines) (vaultId : Id) (type : CashEntryType)
    (x : ℚ) (notes : Option String) (description : String) :
    Posts allowed lines (cashEntryInTx auth now vaultId type x notes description lines) := by
  refine (Posts.of_quiet (quiet_moveVault (by decide) _ _ _)).bind fun vault => ?_
  refine (Posts.of_quiet (Quiet.create (by decide) _)).bind fun entry => ?_
  exact Posts.postJournal_end hallowed _ _

end Transactions

/-! ## The paths -/

theorem deposit_keepsLedger {x : ℚ} (hx : AllowsAmount allowed x) (auth : Auth) (now : DateTime)
    (accountId : Id) (s : Db) : KeepsLedger allowed s (deposit auth now accountId x) := by
  have hW := ledgerProtocol_watches allowed
  refine Follows.require (fun _ => ?_) fun _ => rfl
  refine hW.query fun s₁ _ => Follows.orFail (fun account _ => ?_) fun _ => rfl
  refine hW.quiet ((Quiet.query _).bind fun _ => Quiet.pure _) (fun s₂ message _ => ?_) fun _ _ => rfl
  refine hW.quiet (quiet_refuse message) (fun s₃ _ _ => ?_) fun _ _ => rfl
  refine hW.query fun s₄ _ => Follows.orFail (fun accounts _ => ?_) fun _ => rfl
  refine hW.quiet (Quiet.requirePostablePeriod _ _) (fun s₅ _ _ => ?_) fun _ _ => rfl
  refine follows_twoAccounts (fun s₆ cash liability _ hcash hliability => ?_) fun _ _ => rfl
  refine Follows.require (fun _ => ?_) fun _ => rfl
  refine follows_posts (depositInTx_posts (hx.entry _ _) _ _ _)
    (categorised_doubleEntry hcash hliability x) (fun t result _ => ?_) fun _ _ => rfl
  exact hW.quiet_end ((Quiet.create (by decide) _).bind fun _ => Quiet.pure _) fun _ _ _ => rfl

theorem withdraw_keepsLedger {x : ℚ} (hx : AllowsAmount allowed x) (auth : Auth) (now : DateTime)
    (accountId : Id) (s : Db) : KeepsLedger allowed s (withdraw auth now accountId x) := by
  have hW := ledgerProtocol_watches allowed
  refine Follows.require (fun _ => ?_) fun _ => rfl
  refine hW.query fun s₁ _ => Follows.orFail (fun account _ => ?_) fun _ => rfl
  refine hW.quiet ((Quiet.query _).bind fun _ => Quiet.pure _) (fun s₂ message _ => ?_) fun _ _ => rfl
  refine hW.quiet (quiet_refuse message) (fun s₃ _ _ => ?_) fun _ _ => rfl
  refine hW.query fun s₄ _ => Follows.orFail (fun accounts _ => ?_) fun _ => rfl
  refine hW.quiet (Quiet.requirePostablePeriod _ _) (fun s₅ _ _ => ?_) fun _ _ => rfl
  refine follows_twoAccounts (fun s₆ cash liability _ hcash hliability => ?_) fun _ _ => rfl
  refine Follows.require (fun _ => ?_) fun _ => rfl
  refine follows_posts (withdrawInTx_posts (hx.entry _ _) _ _ _)
    (categorised_doubleEntry hliability hcash x) (fun t result _ => ?_) fun _ _ => rfl
  exact hW.quiet_end ((Quiet.create (by decide) _).bind fun _ => Quiet.pure _) fun _ _ _ => rfl

theorem recordRepayment_keepsLedger {x : ℚ} (hx : AllowsAmount allowed x) (auth : Auth)
    (now : DateTime) (loanId : Id) (s : Db) :
    KeepsLedger allowed s (recordRepayment auth now loanId x) := by
  have hW := ledgerProtocol_watches allowed
  refine Follows.require (fun _ => ?_) fun _ => rfl
  refine hW.query fun s₁ _ => Follows.orFail (fun loan _ => ?_) fun _ => rfl
  refine hW.query fun s₂ _ => Follows.orFail (fun accounts _ => ?_) fun _ => rfl
  refine hW.quiet (Quiet.requirePostablePeriod _ _) (fun s₃ _ _ => ?_) fun _ _ => rfl
  refine follows_twoAccounts (fun s₄ receivable cash _ hreceivable hcash => ?_) fun _ _ => rfl
  refine Follows.require (fun _ => ?_) fun _ => rfl
  refine follows_posts (repayInTx_posts (hx.entry _ _) _ _ _)
    (categorised_doubleEntry hcash hreceivable x) (fun t result _ => ?_) fun _ _ => rfl
  exact hW.quiet_end ((Quiet.create (by decide) _).bind fun _ => Quiet.pure _) fun _ _ _ => rfl

/-- The two branches of a field collection come to no debt. -/
theorem collectSavingsDeposit_keepsLedger (body : RecordCollection)
    (hx : AllowsAmount allowed body.amount) (auth : Auth) (now : DateTime) (s : Db) :
    KeepsLedger allowed s (collectSavingsDeposit auth now body) := by
  have hW := ledgerProtocol_watches allowed
  refine hW.query fun s₁ _ => Follows.orFail (fun account _ => ?_) fun _ => rfl
  refine hW.query fun s₂ _ => Follows.orFail (fun accounts _ => ?_) fun _ => rfl
  refine follows_twoAccounts (fun s₃ custody liability _ hcustody hliability => ?_) fun _ _ => rfl
  refine Follows.require (fun _ => ?_) fun _ => rfl
  exact follows_posts (depositInTx_posts (hx.entry _ _) _ _ _)
    (categorised_doubleEntry hcustody hliability _) (fun _ _ _ => rfl) fun _ _ => rfl

theorem collectLoanRepayment_keepsLedger (body : RecordCollection)
    (hx : AllowsAmount allowed body.amount) (auth : Auth) (now : DateTime) (s : Db) :
    KeepsLedger allowed s (collectLoanRepayment auth now body) := by
  have hW := ledgerProtocol_watches allowed
  refine hW.query fun s₁ _ => Follows.orFail (fun loan _ => ?_) fun _ => rfl
  refine hW.query fun s₂ _ => Follows.orFail (fun accounts _ => ?_) fun _ => rfl
  refine follows_twoAccounts (fun s₃ custody receivable _ hcustody hreceivable => ?_) fun _ _ => rfl
  refine Follows.require (fun _ => ?_) fun _ => rfl
  exact follows_posts (repayInTx_posts (hx.entry _ _) _ _ _)
    (categorised_doubleEntry hcustody hreceivable _) (fun _ _ _ => rfl) fun _ _ => rfl

theorem recordCollection_keepsLedger (body : RecordCollection)
    (hx : AllowsAmount allowed body.amount) (auth : Auth) (now : DateTime) (s : Db) :
    KeepsLedger allowed s (recordCollection auth now body) := by
  have hW := ledgerProtocol_watches allowed
  refine Follows.require (fun _ => ?_) fun _ => rfl
  refine hW.query fun s₁ _ => Follows.orFail (fun collector _ => ?_) fun _ => rfl
  refine Follows.require (fun _ => ?_) fun _ => rfl
  refine hW.quiet ((Quiet.query _).bind fun _ => Quiet.pure _) (fun s₂ duplicate _ => ?_) fun _ _ => rfl
  refine Follows.require (fun _ => ?_) fun _ => rfl
  refine hW.quiet (Quiet.requirePostablePeriod _ _) (fun s₃ _ _ => ?_) fun _ _ => rfl
  have hlog : ∀ (t : Db) (type : CollectionTransactionType), KeepsLedger allowed t (do
      let collection ←
        createAs { collects := some (body.collectorId, now) } .collectionTransaction
        { institutionId := auth.institutionId, type, collectorId := body.collectorId,
          customerId := body.customerId, targetId := body.targetId, amount := ofNumber body.amount,
          collectedAt := now, recordedById := auth.userId }
      let _ ← create .auditLog
        { institutionId := auth.institutionId, userId := some auth.userId,
          action := "collection.transaction_recorded", resource := "collection_transaction",
          resourceId := some collection }
      return collection) := by
    intro t type
    refine hW.quiet_end ?_ fun _ _ _ => rfl
    exact (Quiet.createAs (by decide) _ _).bind fun _ => (Quiet.create (by decide) _).bind fun _ => .pure _
  cases body.type with
  | savingsDeposit =>
    exact (collectSavingsDeposit_keepsLedger body hx auth now s₃).bind fun t _ => hlog t _
  | loanRepayment =>
    exact (collectLoanRepayment_keepsLedger body hx auth now s₃).bind fun t _ => hlog t _

theorem recordCashEntry_keepsLedger {x : ℚ} (hx : AllowsAmount allowed x) (auth : Auth)
    (now : DateTime) (vaultId : Id) (type : CashEntryType) (notes : Option String) (s : Db) :
    KeepsLedger allowed s (recordCashEntry auth now vaultId type x notes) := by
  have hW := ledgerProtocol_watches allowed
  refine Follows.require (fun _ => ?_) fun _ => rfl
  refine hW.query fun s₁ _ => Follows.orFail (fun vault _ => ?_) fun _ => rfl
  refine Follows.require (fun _ => ?_) fun _ => rfl
  refine hW.query fun s₂ _ => Follows.orFail (fun accounts _ => ?_) fun _ => rfl
  refine hW.quiet (Quiet.requirePostablePeriod _ _) (fun s₃ _ _ => ?_) fun _ _ => rfl
  refine follows_twoAccounts (fun s₄ vaultCash bank _ hvaultCash hbank => ?_) fun _ _ => rfl
  refine Follows.require (fun _ => ?_) fun _ => rfl
  have hlog : ∀ (t : Db) (entry : Id), KeepsLedger allowed t (do
      let _ ← create .auditLog
        { institutionId := auth.institutionId, userId := some auth.userId,
          action := "vault.cash_entry", resource := "vault", resourceId := some vaultId }
      return entry) := by
    intro t entry
    exact hW.quiet_end ((Quiet.create (by decide) _).bind fun _ => Quiet.pure _) fun _ _ _ => rfl
  cases type with
  | receipt =>
    exact follows_posts (cashEntryInTx_posts (hx.entry _ _) _ _ _ _ _)
      (categorised_doubleEntry hvaultCash hbank x) (fun t entry _ => hlog t entry) fun _ _ => rfl
  | withdrawal =>
    exact follows_posts (cashEntryInTx_posts (hx.entry _ _) _ _ _ _ _)
      (categorised_doubleEntry hbank hvaultCash x) (fun t entry _ => hlog t entry) fun _ _ => rfl

/-- A business rule asks for an approval of its own, not for a posting. -/
theorem executeMatchedRules_settles (institutionId userId : Id) (targetType : String)
    (targetId : Id) (matched : List MatchedRule) :
    (executeMatchedRules institutionId userId targetType targetId matched).Every
      (Db.Settles allowed) := by
  have haudit : ∀ row, (create .auditLog row).Every (Db.Settles allowed) := by
    intro row
    have hquiet : Quiet ledgerTables (create .auditLog row) := Quiet.create (by decide) row
    exact hquiet.imp fun _ _ => .of_agree
  apply Every.mapEach
  intro m _
  refine Every.bind (Every.mapEach fun action _ => ?_) fun actionsTaken =>
    (haudit _).bind fun _ => trivial
  unfold executeAction
  cases action.type with
  | flag => exact (haudit _).bind fun _ => trivial
  | requireAdditionalApproval =>
    refine ⟨fun s => ?_, fun _ => trivial⟩
    refine .of_kept (Db.LedgerKept.insert_request s nofun) ?_
    exact Db.Agree.insert (by decide) s _
  | reject => trivial

theorem disburseLoan_keepsLedger (hx : ∀ c : Cents, AllowsAmount allowed (toNumber c)) (js : Js)
    (auth : Auth) (now : DateTime) (loanId : Id) (vaultId : Option Id) (s : Db) :
    KeepsLedger allowed s (disburseLoan js auth now loanId vaultId) := by
  have hW := ledgerProtocol_watches allowed
  refine Follows.orFail (fun vaultId _ => ?_) fun _ => rfl
  refine hW.query fun s₁ _ => Follows.orFail (fun loan _ => ?_) fun _ => rfl
  refine Follows.require (fun _ => ?_) fun _ => rfl
  refine hW.query fun s₂ _ => Follows.orFail (fun vault _ => ?_) fun _ => rfl
  refine Follows.require (fun _ => ?_) fun _ => rfl
  refine hW.query fun s₃ _ => Follows.require (fun _ => ?_) fun _ => rfl
  refine hW.query fun s₄ _ => ?_
  refine hW.quiet (Quiet.matchRules _ _ _ _ _) (fun s₅ matched _ => ?_) fun _ _ => rfl
  refine hW.quiet (Quiet.requireUnblocked _ _) (fun s₆ _ _ => ?_) fun _ _ => rfl
  refine hW.query fun s₇ _ => Follows.orFail (fun accounts _ => ?_) fun _ => rfl
  refine hW.quiet (Quiet.requirePostablePeriod _ _) (fun s₈ _ _ => ?_) fun _ _ => rfl
  refine follows_twoAccounts (fun s₉ receivable cash _ hreceivable hcash => ?_) fun _ _ => rfl
  refine Follows.require (fun _ => ?_) fun _ => rfl
  refine follows_posts (disburseInTx_posts ((hx loan.principal).entry _ _) _ _ _ _)
    (categorised_doubleEntry hreceivable hcash _) (fun t updated _ => ?_) fun _ _ => rfl
  refine hW.quiet (Quiet.create (by decide) _) (fun t' _ _ => ?_) fun _ _ => rfl
  refine Follows.bind (Follows.of_every (fun lab _ _ d => ledgerProtocol_settles lab d)
    (executeMatchedRules_settles _ _ _ _ _)) ?_ ?_
  · intro _ d _ hd
    exact hd.2
  · intro _ d _ hd
    exact hd.2

/-! ## The paths without a transaction -/

theorem postSettlement_keepsLedger (hx : ∀ c : Cents, AllowsAmount allowed (toNumber c))
    (auth : Auth) (now : DateTime) (runId : Id) (run : PayrollRun) (s : Db) :
    KeepsLedger allowed s (postSettlement auth now runId run) := by
  have hW := ledgerProtocol_watches allowed
  refine hW.query ?_
  intro s₁ _
  split
  · exact rfl
  · refine hW.query ?_
    intro s₂ _
    refine hW.query ?_
    intro s₃ h₃
    refine hW.query ?_
    intro s₄ h₄
    have hkept : s₂.LedgerKept s₄ := Db.LedgerKept.trans h₃ h₄
    split
    · refine follows_postBare rfl rfl ((hx _).lines _ _ _) ?_ (fun _ _ _ => rfl) fun _ _ => rfl
      intro a
      exact (hkept.category a).symm
    · exact rfl

theorem markPayrollPaid_keepsLedger (hx : ∀ c : Cents, AllowsAmount allowed (toNumber c))
    (auth : Auth) (now : DateTime) (runId : Id) (s : Db) :
    KeepsLedger allowed s (markPayrollPaid auth now runId) := by
  have hW := ledgerProtocol_watches allowed
  refine hW.query fun s₁ _ => Follows.orFail (fun run _ => ?_) fun _ => rfl
  refine Follows.require (fun _ => ?_) fun _ => rfl
  have hlog : ∀ (t : Db) (data : PayrollRun → PayrollRun), KeepsLedger allowed t (do
      let updated ← update .payrollRun runId data
      let _ ← create .auditLog
        { institutionId := auth.institutionId, userId := some auth.userId,
          action := "payroll_run.mark_paid", resource := "payroll_run", resourceId := some runId }
      return updated) := by
    intro t data
    refine hW.quiet_end ?_ fun _ _ _ => rfl
    refine (Quiet.update (by decide) _ _).bind fun _ => ?_
    exact (Quiet.create (by decide) _).bind fun _ => .pure _
  dsimp only
  split
  · exact (postSettlement_keepsLedger hx auth now _ run s₁).bind fun t _ => hlog t _
  · exact hlog s₁ _

theorem postDepreciation_keepsLedger {x : ℚ} (hx : AllowsAmount allowed x) (auth : Auth)
    (now : DateTime) (asset : Asset) (periodLabel : String) (s : Db) :
    KeepsLedger allowed s (postDepreciation auth now asset periodLabel x) := by
  have hW := ledgerProtocol_watches allowed
  refine hW.query ?_
  intro s₁ _
  split
  · exact rfl
  · refine hW.query ?_
    intro s₂ _
    split
    · refine hW.query ?_
      intro s₃ h₃
      refine follows_postBare rfl rfl (hx.lines _ _ _) ?_ (fun _ _ _ => rfl) fun _ _ => rfl
      exact fun _ => rfl
    · exact rfl

theorem processDepreciation_keepsLedger (hx : ∀ x, WholeCent x → AllowsAmount allowed x)
    (auth : Auth) (now : DateTime) (assetId : Id) (periodLabel : String) (s : Db) :
    KeepsLedger allowed s (processDepreciation auth now assetId periodLabel) := by
  have hW := ledgerProtocol_watches allowed
  refine Follows.require (fun _ => ?_) fun _ => rfl
  refine hW.query fun s₁ _ => Follows.orFail (fun asset _ => ?_) fun _ => rfl
  refine Follows.require (fun _ => ?_) fun _ => rfl
  refine hW.query fun s₂ _ => Follows.require (fun _ => ?_) fun _ => rfl
  refine hW.query fun s₃ _ => Follows.require (fun _ => ?_) fun _ => rfl
  have hpost : ∀ x, WholeCent x →
      KeepsLedger allowed s₃ (postDepreciation auth now asset periodLabel x) :=
    fun x hwhole => postDepreciation_keepsLedger (hx x hwhole) auth now asset periodLabel s₃
  refine (hpost _ (wholeCent_calculateMonthlyDepreciation _)).bind ?_
  intro t journalId
  refine hW.quiet_end ?_ fun _ _ _ => rfl
  refine (Quiet.create (by decide) _).bind fun _ => (Quiet.update (by decide) _ _).bind fun _ => ?_
  exact (Quiet.create (by decide) _).bind fun _ => .pure _

end NexusEfos
