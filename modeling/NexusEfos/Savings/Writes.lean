/-
Which tables the operations on savings accounts write.

Each operation is gone through once.  The result, `SavingsOperation.quiet`, is the frame
of every argument about another table.
-/
import NexusEfos.Approvals.Writes
import NexusEfos.Savings.Operations

namespace NexusEfos

/-- The tables the operations write. -/
def savingsWrites : List Model :=
  [.savingsAccount, .savingsTransaction, .savingsFeeCharge, .standingInstruction,
    .standingInstructionExecution, .savingsInterestPosting, .savingsInterestAccrual,
    .collectionTransaction, .loan, .loanInstallment, .loanRepayment, .journal, .gLAccount,
    .auditLog]

/-- The tables of a deposit or a withdrawal. -/
def movementWrites : List Model :=
  [.savingsAccount, .savingsTransaction, .journal, .gLAccount, .auditLog]

/-- The tables of a fee. -/
def feeWrites : List Model := [.savingsAccount, .savingsTransaction, .savingsFeeCharge, .auditLog]

/-- The tables of the standing instructions. -/
def standingWrites : List Model :=
  [.savingsAccount, .savingsTransaction, .loanRepayment, .standingInstruction,
    .standingInstructionExecution]

/-- The tables of an interest posting. -/
def interestWrites : List Model :=
  [.savingsAccount, .savingsTransaction, .savingsInterestPosting, .savingsInterestAccrual, .auditLog]

/-- The tables behind a collection. -/
def collectedWrites : List Model :=
  [.savingsAccount, .savingsTransaction, .loan, .loanInstallment, .loanRepayment, .journal,
    .gLAccount, .auditLog]

/-- The tables an operation writes. -/
def SavingsOperation.writes : SavingsOperation → List Model
  | deposit .. | withdraw .. => movementWrites
  | chargeFee .. | waiveFee .. => feeWrites
  | runStandingInstructions _ => standingWrites
  | postInterest .. | postAllInterest .. | reverseInterest .. => interestWrites
  | recordCollection .. | reverseCollection .. => .collectionTransaction :: collectedWrites

section Postings

variable {ms : List Model}

theorem writes_depositInTx
    (hw : ∀ m ∈ [Model.savingsAccount, .savingsTransaction, .journal, .gLAccount], m ∈ ms)
    (auth : Auth) (now : DateTime) (accountId : Id) (amount : ℚ) (description : String)
    (lines : List JournalLineInput) :
    Writes ms (depositInTx auth now accountId amount description lines) := by
  refine (Writes.update (hw _ (by decide)) _ _).bind fun acct => ?_
  refine (Writes.create (hw _ (by decide)) _).bind fun row => ?_
  exact (Writes.postJournal (hw _ (by decide)) (hw _ (by decide)) _ _ _ _).bind fun _ => .pure _

theorem writes_withdrawInTx
    (hw : ∀ m ∈ [Model.savingsAccount, .savingsTransaction, .journal, .gLAccount], m ∈ ms)
    (auth : Auth) (now : DateTime) (accountId : Id) (amount : ℚ) (description : String)
    (lines : List JournalLineInput) :
    Writes ms (withdrawInTx auth now accountId amount description lines) := by
  refine (Writes.updateGuarded (hw _ (by decide)) _ _ _).bind fun updated => ?_
  refine (Writes.require _ _).bind fun _ => (Writes.findUniqueOrThrow _ _).bind fun acct => ?_
  refine (Writes.create (hw _ (by decide)) _).bind fun row => ?_
  exact (Writes.postJournal (hw _ (by decide)) (hw _ (by decide)) _ _ _ _).bind fun _ => .pure _

theorem writes_repayInTx
    (hw : ∀ m ∈ [Model.loan, .loanRepayment, .loanInstallment, .journal, .gLAccount], m ∈ ms)
    (auth : Auth) (now : DateTime) (loanId : Id) (amount : ℚ) (description : String)
    (lines : List JournalLineInput) :
    Writes ms (repayInTx auth now loanId amount description lines) := by
  have hloan : ∀ m ∈ [Model.loan, .loanRepayment, .loanInstallment], m ∈ ms := by
    intro m hm
    apply hw m
    simp only [List.mem_cons, List.not_mem_nil, or_false] at hm ⊢
    tauto
  refine (writes_applyLoanRepaymentInTx hloan _ _ _).bind fun result => ?_
  exact (Writes.postJournal (hw _ (by decide)) (hw _ (by decide)) _ _ _ _).bind fun _ => .pure _

/-- A collected deposit touches no loan. -/
theorem writes_collectSavingsDeposit
    (hw : ∀ m ∈ [Model.savingsAccount, .savingsTransaction, .journal, .gLAccount], m ∈ ms)
    (auth : Auth) (now : DateTime) (body : RecordCollection) :
    Writes ms (collectSavingsDeposit auth now body) := by
  refine (Writes.query _).bind fun found => (Writes.orFail _ _).bind fun account => ?_
  refine (Writes.query _).bind fun mappings => (Writes.orFail _ _).bind fun accounts => ?_
  refine (Writes.findUniqueOrThrow _ _).bind fun custody => ?_
  refine (Writes.findUniqueOrThrow _ _).bind fun liability => (Writes.require _ _).bind fun _ => ?_
  exact (Writes.transaction _ (writes_depositInTx hw ..)).bind fun _ => .pure _

theorem writes_collectLoanRepayment
    (hw : ∀ m ∈ [Model.loan, .loanRepayment, .loanInstallment, .journal, .gLAccount], m ∈ ms)
    (auth : Auth) (now : DateTime) (body : RecordCollection) :
    Writes ms (collectLoanRepayment auth now body) := by
  refine (Writes.query _).bind fun found => (Writes.orFail _ _).bind fun loan => ?_
  refine (Writes.query _).bind fun mappings => (Writes.orFail _ _).bind fun accounts => ?_
  refine (Writes.findUniqueOrThrow _ _).bind fun custody => ?_
  refine (Writes.findUniqueOrThrow _ _).bind fun receivable => (Writes.require _ _).bind fun _ => ?_
  exact (Writes.transaction _ (writes_repayInTx hw ..)).bind fun _ => .pure _

end Postings

section Operations

variable {ms : List Model}

/-- The evidence at the end of an operation. -/
theorem writes_log {α : Type} (hlog : Model.auditLog ∈ ms) (entry : AuditLog) (a : α) :
    Writes ms (do
      let _ ← create .auditLog entry
      return a) :=
  (Writes.create hlog _).bind fun _ => .pure _

theorem writes_deposit
    (hw : ∀ m ∈ movementWrites, m ∈ ms)
    (auth : Auth) (now : DateTime) (accountId : Id) (amount : ℚ) :
    Writes ms (deposit auth now accountId amount) := by
  refine (Writes.require _ _).bind fun _ => (Writes.query _).bind fun found => ?_
  refine (Writes.orFail _ _).bind fun account => ?_
  refine ((Writes.query _).bind fun _ => .pure _).bind fun message => (writes_refuse _).bind fun _ => ?_
  refine (Writes.query _).bind fun mappings => (Writes.orFail _ _).bind fun accounts => ?_
  refine (Writes.requirePostablePeriod _ _).bind fun _ => ?_
  refine (Writes.findUniqueOrThrow _ _).bind fun cash => ?_
  refine (Writes.findUniqueOrThrow _ _).bind fun liability => (Writes.require _ _).bind fun _ => ?_
  have hdeposit : ∀ m ∈ [Model.savingsAccount, .savingsTransaction, .journal, .gLAccount],
      m ∈ ms := fun m hm => hw m (List.mem_append_left [Model.auditLog] hm)
  refine (Writes.transaction _ (writes_depositInTx hdeposit ..)).bind fun _ => ?_
  exact writes_log (hw _ (by decide)) _ _

theorem writes_withdraw
    (hw : ∀ m ∈ movementWrites, m ∈ ms)
    (auth : Auth) (now : DateTime) (accountId : Id) (amount : ℚ) :
    Writes ms (withdraw auth now accountId amount) := by
  refine (Writes.require _ _).bind fun _ => (Writes.query _).bind fun found => ?_
  refine (Writes.orFail _ _).bind fun account => ?_
  refine ((Writes.query _).bind fun _ => .pure _).bind fun message => (writes_refuse _).bind fun _ => ?_
  refine (Writes.query _).bind fun mappings => (Writes.orFail _ _).bind fun accounts => ?_
  refine (Writes.requirePostablePeriod _ _).bind fun _ => ?_
  refine (Writes.findUniqueOrThrow _ _).bind fun cash => ?_
  refine (Writes.findUniqueOrThrow _ _).bind fun liability => (Writes.require _ _).bind fun _ => ?_
  have hwithdraw : ∀ m ∈ [Model.savingsAccount, .savingsTransaction, .journal, .gLAccount],
      m ∈ ms := fun m hm => hw m (List.mem_append_left [Model.auditLog] hm)
  refine (Writes.transaction _ (writes_withdrawInTx hwithdraw ..)).bind fun _ => ?_
  exact writes_log (hw _ (by decide)) _ _

theorem writes_setBalanceInTx {now : DateTime} (hw : ∀ m ∈ [Model.savingsAccount, .savingsTransaction], m ∈ ms)
    (accountId : Id) (type : SavingsTxnType) (x y : ℚ) (recordedById : Option Id) :
    Writes ms (setBalanceInTx now accountId type x y recordedById) := by
  refine (Writes.update (hw _ (by decide)) _ _).bind fun _ => ?_
  exact (Writes.create (hw _ (by decide)) _).bind fun _ => .pure _

theorem writes_chargeFee (auth : Auth) (now : DateTime) (accountId feeTypeId : Id) :
    Writes feeWrites
      (chargeFee auth now accountId feeTypeId) := by
  refine (Writes.query _).bind fun found => (Writes.orFail _ _).bind fun account => ?_
  refine (Writes.query _).bind fun foundType => (Writes.orFail _ _).bind fun feeType => ?_
  have hcharge : ∀ x y, Writes feeWrites
      (chargeFeeInTx auth accountId feeTypeId x y) := by
    intro x y
    refine (Writes.update (by decide) _ _).bind fun _ => ?_
    exact Writes.create (by decide) _
  refine (Writes.transaction _ (hcharge _ _)).bind fun charge => ?_
  exact (Writes.create (by decide) _).bind fun _ => writes_log (by decide) _ _

theorem writes_waiveFee (auth : Auth) (now : DateTime) (chargeId : Id) (reason : Option String) :
    Writes feeWrites
      (waiveFee auth now chargeId reason) := by
  refine (Writes.query _).bind fun found => (Writes.orFail _ _).bind fun charge => ?_
  refine (Writes.require _ _).bind fun _ => (Writes.query _).bind fun account => ?_
  have hend : ∀ data, Writes feeWrites (do
      let updated ← update .savingsFeeCharge chargeId data
      let _ ← create .auditLog
        { institutionId := auth.institutionId, userId := some auth.userId,
          action := "savings.fee_waived", resource := "savings_account",
          resourceId := some charge.accountId }
      return updated) := fun data =>
    (Writes.update (by decide) _ _).bind fun _ => writes_log (by decide) _ _
  cases account with
  | some account =>
    refine (Writes.transaction _ (writes_setBalanceInTx ?_ ..)).bind fun _ => hend _
    decide
  | none => exact hend _

theorem writes_executeFrom (now : DateTime) (siId : Id) (si : StandingInstruction) (source : SavingsAccount) :
    Writes standingWrites (executeFrom now siId si source) := by
  have hend : Writes standingWrites (recordExecution siId si) := by
    refine (Writes.createAs (by decide) _ _).bind fun _ => ?_
    exact (Writes.updateAs (by decide) _ _ _).bind fun _ => .pure _
  unfold executeFrom
  dsimp only
  split
  · refine (Writes.query _).bind fun dest => ?_
    cases dest with
    | none => exact (Writes.createAs (by decide) _ _).bind fun _ => .pure _
    | some dest =>
      have htransfer : ∀ destId x y, Writes standingWrites
          (transferInTx now si si.sourceAccountId destId x y) := by
        intro destId x y
        refine (Writes.update (by decide) _ _).bind fun _ => ?_
        refine (Writes.update (by decide) _ _).bind fun _ => ?_
        refine (Writes.create (by decide) _).bind fun _ => ?_
        exact (Writes.create (by decide) _).bind fun _ => .pure _
      exact (Writes.transaction _ (htransfer ..)).bind fun _ => hend
  · have hrepay : ∀ loanId x, Writes standingWrites (repayLoanInTx now si loanId x) :=
      fun _ _ => (writes_setBalanceInTx (by decide) ..).bind fun _ =>
        (Writes.create (by decide) _).bind fun _ => .pure _
    exact (Writes.transaction _ (hrepay ..)).bind fun _ => hend
  · exact (Writes.transaction _ (writes_setBalanceInTx (by decide) ..)).bind fun _ => hend
  · exact hend

theorem writes_runStandingInstructions (now : DateTime) :
    Writes standingWrites (runStandingInstructions now) := by
  refine (Writes.query _).bind fun due => Writes.forEach fun si _ => ?_
  have hfail : ∀ reason, Writes standingWrites (failInsufficient si.1 si.2 reason) :=
    fun _ => (Writes.updateAs (by decide) _ _ _).bind fun _ =>
      (Writes.createAs (by decide) _ _).bind fun _ => .pure _
  refine (Writes.query _).bind fun source => ?_
  cases source with
  | none => exact hfail _
  | some source => exact Writes.ite (hfail _) (writes_executeFrom ..)

theorem writes_postInterestForAccount (now : DateTime) (accountId institutionId : Id) (postedById : Option Id)
    (batchId : Option String) :
    Writes interestWrites (postInterestForAccount now accountId institutionId postedById batchId) := by
  have hpost : ∀ first last ids x y, Writes interestWrites
      (postInterestInTx now accountId institutionId postedById batchId first last ids x y) := by
    intro first last ids x y
    refine (Writes.create (by decide) _).bind fun txn => ?_
    refine (Writes.update (by decide) _ _).bind fun _ => ?_
    refine (Writes.create (by decide) _).bind fun posting => ?_
    exact (Writes.updateMany (by decide) _ _).bind fun _ => .pure _
  refine (Writes.query _).bind fun unposted => ?_
  split
  · refine Writes.ite (.pure _) ?_
    refine (Writes.findUniqueOrThrow _ _).bind fun account => ?_
    exact (Writes.transaction _ (hpost ..)).bind fun _ => .pure _
  · exact .pure _

theorem writes_postAllForInstitution (now : DateTime) (institutionId : Id) (postedById : Option Id)
    (batchId : Option String) :
    Writes interestWrites (postAllForInstitution now institutionId postedById batchId) := by
  refine (Writes.query _).bind fun accounts => ?_
  have hloop : Writes interestWrites (Proc.mapEach accounts fun a =>
      postInterestForAccount now a institutionId postedById batchId) :=
    Writes.mapEach fun a _ => writes_postInterestForAccount ..
  exact hloop.bind fun _ => .pure _

theorem writes_postInterest (auth : Auth) (now : DateTime) (accountId : Id) :
    Writes interestWrites (postInterest auth now accountId) := by
  refine (writes_postInterestForAccount now accountId _ _ none).bind fun found => ?_
  exact (Writes.orFail _ _).bind fun result => writes_log (by decide) _ _

theorem writes_reverseInterest (auth : Auth) (now : DateTime) (postingId : Id) (reason : String) :
    Writes interestWrites (reverseInterest auth now postingId reason) := by
  have hreverse : ∀ posting x, Writes interestWrites
      (reverseInterestInTx auth now postingId posting reason x) := by
    intro posting x
    refine (Writes.create (by decide) _).bind fun txn => ?_
    refine (Writes.update (by decide) _ _).bind fun _ => ?_
    refine (Writes.update (by decide) _ _).bind fun _ => ?_
    exact (Writes.updateMany (by decide) _ _).bind fun _ => .pure _
  refine (Writes.require _ _).bind fun _ => (Writes.query _).bind fun found => ?_
  refine (Writes.orFail _ _).bind fun posting => (Writes.require _ _).bind fun _ => ?_
  refine (Writes.findUniqueOrThrow _ _).bind fun account => ?_
  exact (Writes.transaction _ (hreverse _ _)).bind fun _ => writes_log (by decide) _ _

/-! ### Collections -/

variable {R : Db → Db → Prop}

/-- What the statements of a recording do: they write the tables behind it, and one creates the
collection. -/
theorem recordCollection_everyStep {D : Access → Db → Db → Prop}
    (hwrites : ∀ {α : Type} {p : Handler α}, Writes collectedWrites p → p.EveryStep D)
    (auth : Auth) (now : DateTime) (body : RecordCollection)
    (hcreate : ∀ s row, row.collectorId = body.collectorId → row.collectedAt = now →
      D { collects := some (body.collectorId, now) } s (s.insert .collectionTransaction row)) :
    (recordCollection auth now body).EveryStep D := by
  have hend : ∀ row : CollectionTransaction, row.collectorId = body.collectorId →
      row.collectedAt = now → (do
        let collection ←
          createAs { collects := some (body.collectorId, now) } .collectionTransaction row
        let _ ← create .auditLog
          { institutionId := auth.institutionId, userId := some auth.userId,
            action := "collection.transaction_recorded", resource := "collection_transaction",
            resourceId := some collection }
        return collection : Handler Id).EveryStep D := fun row hcollector hdate =>
    Proc.EveryStep.bind ⟨fun s => hcreate s row hcollector hdate, fun _ => trivial⟩ fun _ =>
      hwrites (writes_log (by decide) _ _)
  refine (Proc.EveryStep.require _ _).bind fun _ => (hwrites (Writes.query _)).bind fun found => ?_
  refine (Proc.EveryStep.orFail _ _).bind fun collector => ?_
  refine (Proc.EveryStep.require _ _).bind fun _ => ?_
  refine (hwrites ((Writes.query _).bind fun _ => .pure _)).bind fun duplicate => ?_
  refine (Proc.EveryStep.require _ _).bind fun _ => ?_
  refine (hwrites (Writes.requirePostablePeriod _ _)).bind fun _ => ?_
  cases body.type with
  | savingsDeposit =>
    exact (hwrites (writes_collectSavingsDeposit (by decide) ..)).bind fun _ => hend _ rfl rfl
  | loanRepayment =>
    exact (hwrites (writes_collectLoanRepayment (by decide) ..)).bind fun _ => hend _ rfl rfl

/-- Recording a collection writes the tables behind it and creates one row. -/
theorem recordCollection_every (hR : Db.Permits R collectedWrites)
    (hcreate : ∀ s row, R s (s.insert .collectionTransaction row)) (auth : Auth) (now : DateTime)
    (body : RecordCollection) : (recordCollection auth now body).Every R := by
  have hsteps : (recordCollection auth now body).EveryStep fun _ => R := by
    apply recordCollection_everyStep
    · exact fun hp => .of_every (fun _ _ _ h => h) (hp.every R hR)
    · exact fun s row _ _ => hcreate s row
  exact hsteps.every

/-- The mark that a reversal leaves on a collection. -/
def CollectionTransaction.reverse (auth : Auth) (now : DateTime) (reason : String)
    (c : CollectionTransaction) : CollectionTransaction :=
  { c with status := .reversed, reversedById := some auth.userId, reversedAt := some now,
           reversalReason := some reason }

/-- What the statements of a reversal do: they write the tables behind it, and one marks the
collection. -/
theorem reverseCollection_everyStep {D : Access → Db → Db → Prop}
    (hwrites : ∀ {α : Type} {p : Handler α}, Writes collectedWrites p → p.EveryStep D)
    (hrefl : ∀ lab s, D lab s s) (auth : Auth) (now : DateTime) (collectionId : Id)
    (reason : String)
    (hmark : ∀ s, D { collection := some (.mark collectionId) } s
      (s.modify .collectionTransaction collectionId
        (CollectionTransaction.reverse auth now reason))) :
    (reverseCollection auth now collectionId reason).EveryStep D := by
  refine (Proc.EveryStep.require _ _).bind fun _ => (hwrites (Writes.query _)).bind fun found => ?_
  refine (Proc.EveryStep.orFail _ _).bind fun collection => ?_
  refine (Proc.EveryStep.require _ _).bind fun _ => ?_
  have hupdate : (updateAs { collection := some (.mark collectionId) } .collectionTransaction
      collectionId (CollectionTransaction.reverse auth now reason)).EveryStep D := by
    refine ⟨fun s => ?_, fun _ => trivial⟩
    cases h : s.find? .collectionTransaction collectionId with
    | some row => simpa only [h] using hmark s
    | none => simpa only [h] using hrefl _ s
  have hend : (do
      let updated ← updateAs { collection := some (.mark collectionId) } .collectionTransaction
        collectionId (CollectionTransaction.reverse auth now reason)
      let _ ← create .auditLog
        { institutionId := auth.institutionId, userId := some auth.userId,
          action := "collection.transaction_reversed", resource := "collection_transaction",
          resourceId := some collectionId }
      return updated : Handler CollectionTransaction).EveryStep D :=
    hupdate.bind fun _ => hwrites (writes_log (by decide) _ _)
  cases collection.type with
  | loanRepayment => exact hend
  | savingsDeposit =>
    refine (hwrites (Writes.query _)).bind fun account => ?_
    cases account with
    | some account =>
      refine (hwrites (Writes.transaction _ (writes_setBalanceInTx ?_ ..))).bind fun _ => hend
      decide
    | none => exact hend

/-- Reversing a collection writes the tables behind it and marks one row. -/
theorem reverseCollection_every (hR : Db.Permits R collectedWrites) (auth : Auth) (now : DateTime)
    (collectionId : Id) (reason : String)
    (hmark : ∀ s, R s (s.modify .collectionTransaction collectionId
      (CollectionTransaction.reverse auth now reason))) :
    (reverseCollection auth now collectionId reason).Every R := by
  have hsteps : (reverseCollection auth now collectionId reason).EveryStep fun _ => R := by
    apply reverseCollection_everyStep
    · exact fun hp => .of_every (fun _ _ _ h => h) (hp.every R hR)
    · exact fun _ s => hR.refl s
    · exact hmark
  exact hsteps.every

theorem writes_recordCollection (auth : Auth) (now : DateTime) (body : RecordCollection) :
    Writes (.collectionTransaction :: collectedWrites) (recordCollection auth now body) := by
  constructor
  intro R hR
  apply recordCollection_every (hR.mono fun _ hm => List.mem_cons_of_mem _ hm)
  exact fun s row => hR.insert _ (List.mem_cons_self ..) s row

theorem writes_reverseCollection (auth : Auth) (now : DateTime) (collectionId : Id)
    (reason : String) : Writes (.collectionTransaction :: collectedWrites)
      (reverseCollection auth now collectionId reason) := by
  constructor
  intro R hR
  apply reverseCollection_every (hR.mono fun _ hm => List.mem_cons_of_mem _ hm)
  exact fun s => hR.modify _ (List.mem_cons_self ..) s _ _

/-! ### Any operation -/

theorem SavingsOperation.writes_handler (op : SavingsOperation) : Writes op.writes op.handler := by
  cases op with
  | deposit auth now a x =>
    exact (writes_deposit (fun _ hm => hm) auth now a x).bind fun _ => .pure _
  | withdraw auth now a x =>
    exact (writes_withdraw (fun _ hm => hm) auth now a x).bind fun _ => .pure _
  | chargeFee auth now a feeTypeId => exact (writes_chargeFee auth now a feeTypeId).bind fun _ => .pure _
  | waiveFee auth now chargeId reason =>
    exact (writes_waiveFee auth now chargeId reason).bind fun _ => .pure _
  | runStandingInstructions now => exact writes_runStandingInstructions now
  | postInterest auth now a => exact (writes_postInterest auth now a).bind fun _ => .pure _
  | postAllInterest now institutionId postedById batchId =>
    exact (writes_postAllForInstitution now institutionId postedById batchId).bind fun _ => .pure _
  | reverseInterest auth now postingId reason =>
    exact writes_reverseInterest auth now postingId reason
  | recordCollection auth now body =>
    exact (writes_recordCollection auth now body).bind fun _ => .pure _
  | reverseCollection auth now collectionId reason =>
    exact (writes_reverseCollection auth now collectionId reason).bind fun _ => .pure _

theorem SavingsOperation.writes_subset (op : SavingsOperation) :
    ∀ m ∈ op.writes, m ∈ savingsWrites := by
  have hmovement : ∀ m ∈ movementWrites, m ∈ savingsWrites := by decide
  have hfee : ∀ m ∈ feeWrites, m ∈ savingsWrites := by decide
  have hstanding : ∀ m ∈ standingWrites, m ∈ savingsWrites := by decide
  have hinterest : ∀ m ∈ interestWrites, m ∈ savingsWrites := by decide
  have hcollection : ∀ m ∈ Model.collectionTransaction :: collectedWrites, m ∈ savingsWrites := by
    decide
  cases op <;> assumption

theorem SavingsOperation.quiet {watched : List Model} (hw : ∀ m ∈ savingsWrites, m ∉ watched)
    (op : SavingsOperation) : Quiet watched op.handler :=
  op.writes_handler.quiet fun m hm => hw m (op.writes_subset m hm)

end Operations

end NexusEfos
