/-
What an operation on loans can do to where a loan stands.

`LoanStep` lists the statements, each with what its handler has found out before: the
approver is another user than the one who initiated the loan, and a loan that is paid out
or changed was approved.  No operation does anything else
(`LoanOperation.takesLoanSteps`), so a result about loans in every run is one about these
steps.  Segregation of duties is the first (`duties_segregated`).
-/
import NexusEfos.Loans.Duties

namespace NexusEfos

/-! ## The steps -/

inductive LoanStep (lab : Access) (s : Db) : Db → Prop
  | quiet {s' : Db} (h : s.Agree loanTables s') : LoanStep lab s s'
  | initiates {row : Loan} (hstatus : row.status = .pending) (happrover : row.approvedById = none)
      (hdisbursed : row.disbursedAt = none) : LoanStep lab s (s.insert .loan row)
  | approves {loanId userId : Id} (hlab : lab.loanMove = some (loanId, .approve))
      (hother : ∀ l, s.find? .loan loanId = some l → l.initiatedById ≠ some userId) :
      LoanStep lab s (s.modify .loan loanId fun l =>
        { l with status := .approved, approvedById := some userId })
  | rejects {loanId : Id} {institutionId : Option Id}
      (hlab : lab.loanMove = some (loanId, .reject institutionId))
      (hinitiated : institutionId = none →
        ∀ l, s.find? .loan loanId = some l → l.initiatedById ≠ none) :
      LoanStep lab s (s.modify .loan loanId fun l => { l with status := .rejected })
  | disburses {d : Disbursement} (hlab : lab.loanMove = some (d.loanId, .disburse))
      (hloan : s.LoanApproved d.loanId) :
      LoanStep lab s ((d.payOut s).modify .loan d.loanId d.disburse)
  | repays {s' : Db} {loanId recordedById : Id} {amount : ℚ}
      (hlab : lab.loanMove = some (loanId, .repay amount))
      (h : (s.repayLoan loanId amount recordedById).Agree loanTables s') : LoanStep lab s s'
  | asksRestructure {row : LoanRestructure} (hloan : s.LoanApproved row.loanId) :
      LoanStep lab s (s.insert .loanRestructure row)
  | asksWriteOff {row : LoanWriteOff} (hloan : s.LoanApproved row.loanId) :
      LoanStep lab s (s.insert .loanWriteOff row)
  | asksApproval {row : ApprovalRequest} (htype : row.type ≠ .businessRuleTriggered) :
      LoanStep lab s (s.insert .approvalRequest row)
  | raises {row : ApprovalRequest} (hlab : lab.raises = some (row.targetType, row.targetId)) :
      LoanStep lab s (s.insert .approvalRequest row)
  | resolves {call : ResolveCall} {existing : ApprovalRequest} {s' : Db}
      (hlab : lab.loanMove = none) (h : (call.inTx existing).run s = (.ok (), s')) :
      LoanStep lab s s'

/-! ## The duties -/

/-- Every step keeps the duties. -/
theorem LoanStep.dutiesKept {lab : Access} {s s' : Db} (h : LoanStep lab s s') :
    s.DutiesKept s' := by
  have hsub : ∀ m ∈ dutyTables, m ∈ loanTables := by decide
  cases h with
  | quiet h => exact .of_agree (h.mono hsub)
  | initiates hstatus _ _ => exact .insert_loan hstatus s
  | approves _ hother =>
    have happroved : ∀ {l : Loan} {user : Id}, l.initiatedById ≠ some user →
        Loan.ApprovedByOther { l with status := .approved, approvedById := some user } := by
      intro l user hl u hu
      refine ⟨user, rfl, fun heq => hl ?_⟩
      rw [heq]
      exact hu
    apply Db.DutiesKept.modify_loan
    · exact fun _ => rfl
    · exact fun l hl _ => happroved (hother l hl)
    · exact fun _ l hl _ => happroved (hother l hl)
  | rejects _ _ =>
    have hnot : LoanStatus.rejected ∉ LoanStatus.granted := by decide
    apply Db.DutiesKept.modify_loan_same
    · exact fun _ => ⟨rfl, rfl⟩
    · exact fun _ => .inr hnot
  | @disburses d _ hloan =>
    have hposted : s.DutiesKept (d.post (d.pay s)) := .of_agree (.postPay (by decide) d s)
    have hpaid : s.DutiesKept (d.payOut s) :=
      hposted.trans (.insertAll_schedule fun _ => hposted.loanApproved hloan)
    refine hpaid.trans (.modify_loan ?_ ?_ ?_)
    · exact fun _ => rfl
    · exact fun _ _ ha => ha
    · intro _ l hl _
      obtain ⟨l', hl', hother⟩ := hpaid.loanApproved hloan
      rwa [Option.some.inj (hl.symm.trans hl')]
  | repays _ h => exact (Db.DutiesKept.repayLoan s _ _ _).trans (.of_agree (h.mono hsub))
  | asksRestructure hloan => exact .insert_loanRestructure fun _ => hloan
  | asksWriteOff hloan => exact .insert_loanWriteOff fun _ => hloan
  | asksApproval _ => exact .of_agree (Db.Agree.insert (m := .approvalRequest) (by decide) s _)
  | raises _ => exact .of_agree (Db.Agree.insert (m := .approvalRequest) (by decide) s _)
  | resolves _ h =>
    obtain ⟨row, t, -, -, heffect, hafter⟩ := ResolveCall.run_inTx_effect h
    refine Db.DutiesKept.trans ?_ ((ResolveCall.effect_dutiesKept heffect).trans ?_)
    · exact .of_agree (Db.Agree.modify (m := .approvalRequest) (by decide) s _ _)
    · rw [hafter]
      exact .of_agree (Db.Agree.insert (m := .auditLog) (by decide) t _)

/-! ## Handlers that go on from what they have read -/

/-- A protocol without debts, in which the duties hold for whoever has read a loan. -/
def loanProtocol : Protocol Access Db Unit where
  rely := Db.DutiesKept
  guar lab s _ s' _ := LoanStep lab s s'
  refl := Db.DutiesKept.refl
  trans := Db.DutiesKept.trans

theorem loanProtocol_watches : loanProtocol.Watches loanTables := by
  intro lab s s' d h
  have hstep : LoanStep lab s s' := .quiet h
  exact ⟨hstep.dutiesKept, hstep⟩

/-- Every statement of a handler is a step that is listed, whatever the others do
meanwhile. -/
def TakesLoanSteps {α : Type} (p : Handler α) : Prop :=
  ∀ s, s.DutiesSegregated → p.Follows loanProtocol (fun _ _ _ => True) s ()

section Follows

variable {α β : Type} {s : Db}

theorem Quiet.loanStep {p : Handler α} (hp : Quiet loanTables p) : p.EveryStep LoanStep :=
  Proc.EveryStep.of_every (fun _ _ _ h => .quiet h) hp

/-- A part of the code that needs nothing that was read before. -/
theorem follows_loanSteps {p : Handler β} (hp : p.EveryStep LoanStep) {k : β → Handler α}
    (hk : ∀ t b, s.DutiesKept t → (k b).Follows loanProtocol (fun _ _ _ => True) t ()) :
    (p >>= k).Follows loanProtocol (fun _ _ _ => True) s () := by
  have hD : ∀ lab s s' (d : Unit), LoanStep lab s s' →
      loanProtocol.rely s s' ∧ loanProtocol.guar lab s d s' d := fun _ _ _ _ h => ⟨h.dutiesKept, h⟩
  exact (Proc.Follows.of_everyStep hD hp).bind (fun t d b h => hk t b h.1) fun _ _ _ _ => trivial

theorem follows_loanSteps_end {p : Handler α} (hp : p.EveryStep LoanStep) :
    p.Follows loanProtocol (fun _ _ _ => True) s () := by
  rw [← Proc.bind_pure p]
  exact follows_loanSteps hp fun _ _ _ => trivial

theorem TakesLoanSteps.of_everyStep {p : Handler α} (hp : p.EveryStep LoanStep) :
    TakesLoanSteps p := fun _ _ => follows_loanSteps_end hp

theorem TakesLoanSteps.discard {p : Handler α} (hp : TakesLoanSteps p) :
    TakesLoanSteps (NexusEfos.discard p) :=
  fun s hs => (hp s hs).bind (fun _ _ _ _ => trivial) fun _ _ _ _ => trivial

end Follows

/-- Business rules ask for approvals under their own label. -/
theorem executeMatchedRules_loanStep (institutionId userId : Id) (targetType : String)
    (targetId : Id) (matched : List MatchedRule) :
    (executeMatchedRules institutionId userId targetType targetId matched).EveryStep LoanStep := by
  have haudit : ∀ row, (create .auditLog row).EveryStep LoanStep := fun row =>
    (Quiet.create (by decide) row).loanStep
  apply Proc.EveryStep.mapEach
  intro m _
  refine Proc.EveryStep.bind (Proc.EveryStep.mapEach fun action _ => ?_) fun actionsTaken =>
    (haudit _).bind fun _ => trivial
  unfold executeAction
  cases action.type with
  | flag => exact (haudit _).bind fun _ => trivial
  | requireAdditionalApproval => exact ⟨fun s => .raises rfl, fun _ => trivial⟩
  | reject => trivial

theorem initiateLoan_takesLoanSteps (js : Js) (auth : Auth) (now : DateTime)
    (body : LoanApplication) : TakesLoanSteps (initiateLoan js auth now body) := by
  intro s _
  have hW := loanProtocol_watches
  refine .require (fun _ => ?_) fun _ => trivial
  refine hW.query fun _ _ => .orFail (fun customer _ => ?_) fun _ => trivial
  refine .require (fun _ => ?_) fun _ => trivial
  refine hW.query fun _ _ => .orFail (fun found _ => ?_) fun _ => trivial
  refine .require (fun _ => ?_) fun _ => trivial
  refine .require (fun _ => ?_) fun _ => trivial
  have hbounds : Quiet loanTables (checkProductBounds js found.1 body) :=
    (Quiet.require _ _).bind fun _ => (Quiet.require _ _).bind fun _ =>
      (Quiet.require _ _).bind fun _ => Quiet.require _ _
  refine hW.quiet hbounds (fun _ _ _ => ?_) fun _ _ => trivial
  intro t _
  have hcreated : LoanStep {} t (t.insert .loan
      { institutionId := auth.institutionId, initiatedById := some auth.userId,
        customerId := body.customerId, principal := ofNumber body.principal,
        termMonths := body.termMonths, interestRate := found.1.interestRate,
        interestMethod := found.1.interestMethod }) := .initiates rfl rfl rfl
  refine ⟨(), hcreated.dutiesKept, hcreated, ?_⟩
  refine hW.quiet (.create (by decide) _) (fun t₁ _ h₁ => ?_) fun _ _ => trivial
  refine hW.quiet (.matchRules _ _ _ _ _) (fun t₂ matched h₂ => ?_) fun _ _ => trivial
  have hrules : ∀ v, ((do
      let _ ← executeMatchedRules auth.institutionId auth.userId "Loan" (t.nextId .loan) matched
      return t.nextId .loan) : Handler Id).Follows loanProtocol (fun _ _ _ => True) v () :=
    fun _ => follows_loanSteps (executeMatchedRules_loanStep _ _ _ _ _) fun _ _ _ => trivial
  by_cases hreject : matched.any MatchedRule.hasReject = true
  · simp only [hreject, if_true]
    refine hW.updateAs (fun v row hv _ => ?_) fun _ => trivial
    have hkept := (h₁.trans h₂).trans hv
    have hstep : LoanStep { loanMove := some (t.nextId .loan, .reject none) } v
        (v.modify .loan (t.nextId .loan) fun l => { l with status := .rejected }) := by
      refine .rejects rfl fun _ l hl => ?_
      obtain ⟨l', hl', hinitiated, -⟩ := hkept.loans (t.nextId .loan) _
        (by rw [Db.find?_insert, if_pos rfl])
      rw [Option.some.inj (hl.symm.trans hl'), hinitiated]
      exact Option.some_ne_none auth.userId
    exact ⟨(), hstep.dutiesKept, hstep, hrules _⟩
  · simp only [hreject]
    exact hrules t₂

/-- The approver is not who initiated the loan, when the loan is read as much as when it is
written. -/
theorem approveLoan_takesLoanSteps (js : Js) (auth : Auth) (now : DateTime) (loanId : Id) :
    TakesLoanSteps (approveLoan js auth now loanId) := by
  intro s _
  have hW := loanProtocol_watches
  refine hW.query fun t _ => .orFail (fun loan hloan => ?_) fun _ => trivial
  refine .require (fun hother => ?_) fun _ => trivial
  refine hW.query fun t₁ h₁ => ?_
  refine hW.quiet (.matchRules _ _ _ _ _) (fun t₂ matched h₂ => ?_) fun _ _ => trivial
  refine hW.quiet (.requireUnblocked _ _) (fun t₃ _ h₃ => ?_) fun _ _ => trivial
  refine hW.updateAs (fun t₄ row h₄ hrow => ?_) fun _ => trivial
  have hkept : t.DutiesKept t₄ := ((h₁.trans h₂).trans h₃).trans h₄
  have hstep : LoanStep { loanMove := some (loanId, .approve) } t₄ (t₄.modify .loan loanId fun l =>
      { l with status := .approved, approvedById := some auth.userId }) := by
    refine .approves rfl fun l hl => ?_
    obtain ⟨loan', hloan', hsame, -⟩ := hkept.loans loanId loan
      (Option.filter_eq_some_iff.mp hloan).1
    rw [Option.some.inj (hl.symm.trans hloan'), hsame]
    exact hother
  refine ⟨(), hstep.dutiesKept, hstep, ?_⟩
  refine hW.quiet (.create (by decide) _) (fun _ _ _ => ?_) fun _ _ => trivial
  exact follows_loanSteps (executeMatchedRules_loanStep _ _ _ _ _) fun _ _ _ => trivial

theorem rejectLoan_takesLoanSteps (auth : Auth) (loanId : Id) :
    TakesLoanSteps (rejectLoan auth loanId) := by
  have hquiet : ∀ found, (do
      Proc.require (found = true) (.http 404 "Loan not found")
      let _ ← create .auditLog
        { institutionId := auth.institutionId, userId := some auth.userId, action := "loan.reject",
          resource := "loan", resourceId := some loanId } : Handler Unit).EveryStep LoanStep :=
    fun _ => ((Quiet.require _ _).bind fun _ =>
      (Quiet.create (by decide) _).bind fun _ => .pure _).loanStep
  apply TakesLoanSteps.of_everyStep
  refine Proc.EveryStep.bind ⟨fun s => ?_, fun _ => trivial⟩ hquiet
  cases hrow : s.find? .loan loanId with
  | some row =>
    by_cases howner : row.institutionId = auth.institutionId
    · simp only [hrow, howner, decide_true, if_true]
      exact .rejects rfl nofun
    · simp only [hrow, howner, decide_false, Bool.false_eq_true, if_false]
      exact .quiet (Db.Agree.refl s)
  | none =>
    simp only [hrow]
    exact .quiet (Db.Agree.refl s)

theorem Disbursement.loanStep {d : Disbursement} {lab : Access} {s s' : Db} {loan : Loan}
    (hlab : lab.loanMove = some (d.loanId, .disburse)) (hloan : s.LoanApproved d.loanId)
    (h : d.inTx.run s = (.ok loan, s')) : LoanStep lab s s' := by
  obtain ⟨-, -, -, -, rfl⟩ := d.run_inTx_eq_ok h
  exact .disburses hlab hloan

/-- The loan was found approved, so somebody else has approved it, and that stays. -/
theorem disburseLoan_takesLoanSteps (js : Js) (auth : Auth) (now : DateTime) (loanId : Id)
    (vaultId : Option Id) : TakesLoanSteps (disburseLoan js auth now loanId vaultId) := by
  intro s hs
  have hW := loanProtocol_watches
  refine .orFail (fun vaultId _ => ?_) fun _ => trivial
  refine hW.query fun t ht => .orFail (fun loan hfound => ?_) fun _ => trivial
  refine .require (fun hstatus => ?_) fun _ => trivial
  have hloan : t.LoanApproved loanId := by
    have hrow := (Option.filter_eq_some_iff.mp hfound).1
    refine ⟨loan, hrow, (ht.segregated hs).granted loanId loan hrow ?_⟩
    rw [hstatus]
    decide
  refine hW.query fun t₁ h₁ => .orFail (fun vault _ => ?_) fun _ => trivial
  refine .require (fun _ => ?_) fun _ => trivial
  refine hW.query fun t₂ h₂ => .require (fun _ => ?_) fun _ => trivial
  refine hW.query fun t₃ h₃ => ?_
  refine hW.quiet (.matchRules _ _ _ _ _) (fun t₄ matched h₄ => ?_) fun _ _ => trivial
  refine hW.quiet (.requireUnblocked _ _) (fun t₅ _ h₅ => ?_) fun _ _ => trivial
  refine hW.query fun t₆ h₆ => .orFail (fun accounts _ => ?_) fun _ => trivial
  refine hW.quiet (.requirePostablePeriod _ _) (fun t₇ _ h₇ => ?_) fun _ _ => trivial
  refine hW.findUniqueOrThrow (fun t₈ receivable h₈ _ => ?_) fun _ => trivial
  refine hW.findUniqueOrThrow (fun t₉ cash h₉ _ => ?_) fun _ => trivial
  refine .require (fun _ => ?_) fun _ => trivial
  have hread : t.DutiesKept t₉ := by
    have hrules : t.DutiesKept t₄ := ((h₁.trans h₂).trans h₃).trans h₄
    have hperiod : t₄.DutiesKept t₇ := (h₅.trans h₆).trans h₇
    exact ((hrules.trans hperiod).trans h₈).trans h₉
  refine .transaction (fun u updated u' hu hrun => ?_) fun u e _ =>
    ⟨.quiet (Db.Agree.refl u), trivial⟩
  have hstill : u.LoanApproved loanId := hu.loanApproved (hread.loanApproved hloan)
  have hstep : ∀ lab : Access, lab.loanMove = some (loanId, .disburse) → LoanStep lab u u' :=
    fun lab hlab => Disbursement.loanStep (d := ⟨auth, now, loanId, vaultId, loan.principal, _, _⟩)
      hlab hstill hrun
  refine ⟨(), (hstep { loanMove := some (loanId, .disburse) } rfl).dutiesKept, hstep _ rfl, ?_⟩
  refine hW.quiet (.create (by decide) _) (fun _ _ _ => ?_) fun _ _ => trivial
  exact follows_loanSteps (executeMatchedRules_loanStep _ _ _ _ _) fun _ _ _ => trivial

theorem repayInTx_loanStep {posting : Option Posting} (auth : Auth) (now : DateTime) (loanId : Id)
    (x : ℚ) (description : String) (lines : List JournalLineInput) :
    (Proc.transaction { loanMove := some (loanId, .repay x), posting }
      (repayInTx auth now loanId x description lines)).EveryStep LoanStep := by
  apply Proc.EveryStep.transaction
  · exact fun s => .quiet (Db.Agree.refl s)
  · intro s r s' hrun
    obtain ⟨loan, -, -, -, rfl⟩ := run_repayInTx_eq hrun
    apply LoanStep.repays rfl
    exact (Db.Agree.insert (m := .journal) (by decide) _ _).trans (.applyEffects (by decide) _ _)

theorem recordRepayment_takesLoanSteps (auth : Auth) (now : DateTime) (loanId : Id) (x : ℚ) :
    TakesLoanSteps (recordRepayment auth now loanId x) := by
  intro s _
  have hW := loanProtocol_watches
  refine .require (fun _ => ?_) fun _ => trivial
  refine hW.query fun _ _ => .orFail (fun loan _ => ?_) fun _ => trivial
  refine hW.query fun _ _ => .orFail (fun accounts _ => ?_) fun _ => trivial
  refine hW.quiet (.requirePostablePeriod _ _) (fun _ _ _ => ?_) fun _ _ => trivial
  refine hW.findUniqueOrThrow (fun _ receivable _ _ => ?_) fun _ => trivial
  refine hW.findUniqueOrThrow (fun _ cash _ _ => ?_) fun _ => trivial
  refine .require (fun _ => ?_) fun _ => trivial
  refine follows_loanSteps (repayInTx_loanStep _ _ _ _ _ _) fun _ r _ => ?_
  exact hW.quiet (.create (by decide) _) (fun _ _ _ => trivial) fun _ _ => trivial

theorem collectLoanRepayment_takesLoanSteps (auth : Auth) (now : DateTime) (body : RecordCollection) :
    TakesLoanSteps (collectLoanRepayment auth now body) := by
  intro s _
  have hW := loanProtocol_watches
  refine hW.query fun _ _ => .orFail (fun loan _ => ?_) fun _ => trivial
  refine hW.query fun _ _ => .orFail (fun accounts _ => ?_) fun _ => trivial
  refine hW.findUniqueOrThrow (fun _ custody _ _ => ?_) fun _ => trivial
  refine hW.findUniqueOrThrow (fun _ receivable _ _ => ?_) fun _ => trivial
  refine .require (fun _ => ?_) fun _ => trivial
  exact follows_loanSteps (repayInTx_loanStep _ _ _ _ _ _) fun _ _ _ => trivial

theorem recordCollection_takesLoanSteps (auth : Auth) (now : DateTime) (body : RecordCollection) :
    TakesLoanSteps (recordCollection auth now body) := by
  intro s hs
  have hW := loanProtocol_watches
  refine .require (fun _ => ?_) fun _ => trivial
  refine hW.query fun _ h₁ => .orFail (fun collector _ => ?_) fun _ => trivial
  refine .require (fun _ => ?_) fun _ => trivial
  refine hW.quiet ((Quiet.query _).bind fun _ => .pure _) (fun _ duplicate h₂ => ?_) fun _ _ => trivial
  refine .require (fun _ => ?_) fun _ => trivial
  refine hW.quiet (.requirePostablePeriod _ _) (fun t _ h₃ => ?_) fun _ _ => trivial
  have hlog : ∀ type u, ((do
      let collection ←
        createAs { collects := some (body.collectorId, now) } .collectionTransaction
        { institutionId := auth.institutionId, type, collectorId := body.collectorId,
          customerId := body.customerId, targetId := body.targetId, amount := ofNumber body.amount,
          collectedAt := now, recordedById := auth.userId }
      let _ ← create .auditLog
        { institutionId := auth.institutionId, userId := some auth.userId,
          action := "collection.transaction_recorded", resource := "collection_transaction",
          resourceId := some collection }
      return collection) : Handler Id).Follows loanProtocol (fun _ _ _ => True) u () :=
    fun _ _ => follows_loanSteps_end ((Quiet.createAs (by decide) _ _).bind fun _ =>
      (Quiet.create (by decide) _).bind fun _ => .pure _).loanStep
  cases body.type with
  | savingsDeposit =>
    exact hW.quiet ((writes_collectSavingsDeposit (fun _ hm => hm) auth now body).quiet (by decide)) (fun u _ _ => hlog _ u)
      fun _ _ => trivial
  | loanRepayment =>
    have hread := ((h₁.trans h₂).trans h₃).segregated hs
    exact (collectLoanRepayment_takesLoanSteps auth now body t hread).bind (fun u _ _ _ => hlog _ u)
      fun _ _ _ _ => trivial

/-- A change is requested of a loan that was disbursed. -/
theorem follows_findChangeable {auth : Auth} {loanId : Id} {what : String} {s : Db} {α : Type}
    {k : Loan → Handler α} (hs : s.DutiesSegregated)
    (hk : ∀ t loan, t.LoanApproved loanId → (k loan).Follows loanProtocol (fun _ _ _ => True) t ()) :
    (findChangeable auth loanId what >>= k).Follows loanProtocol (fun _ _ _ => True) s () := by
  have hchangeable : (findChangeable auth loanId what).Follows loanProtocol
      (fun t _ r => ∀ loan, r = .ok loan → t.LoanApproved loanId) s () := by
    have herr : ∀ (t : Db) (e : Failure) (loan : Loan),
        Except.error e = .ok loan → t.LoanApproved loanId := by
      intro t e loan h
      cases h
    refine loanProtocol_watches.query fun t ht => .orFail (fun loan hfound => ?_) fun _ => herr _ _
    refine .require (fun hstatus => ?_) fun _ => herr _ _
    have hrow := (Option.filter_eq_some_iff.mp hfound).1
    refine fun _ _ => ⟨loan, hrow, (ht.segregated hs).granted loanId loan hrow ?_⟩
    rcases hstatus with h | h
    · rw [h]
      decide
    · rw [h]
      decide
  exact hchangeable.bind (fun t _ loan hloan => hk t loan (hloan loan rfl)) fun _ _ _ _ => trivial

/-- A row is created, and an approval is asked for. -/
theorem follows_createRequest {m : Model} {row : Row m} {k : Id → Handler α}
    (hstep : ∀ t, s.DutiesKept t → LoanStep {} t (t.insert m row))
    (hk : ∀ id, (k id).EveryStep LoanStep) :
    (create m row >>= k).Follows loanProtocol (fun _ _ _ => True) s () := by
  intro t ht
  have hcreated := hstep t ht
  exact ⟨(), hcreated.dutiesKept, hcreated, follows_loanSteps_end (hk _)⟩

/-- The request for a change, which is not one of a business rule. -/
theorem requestChange_loanStep {type : ApprovalRequestType} (htype : type ≠ .businessRuleTriggered)
    (auth : Auth) (loanId : Id) (targetType : String) (targetId : Id) (reason action : String) :
    (requestChange auth loanId type targetType targetId reason action).EveryStep LoanStep := by
  refine ⟨fun s => .asksApproval htype, fun _ => ?_⟩
  exact (Quiet.create (by decide) _).loanStep.bind fun _ => trivial

theorem requestRestructure_takesLoanSteps (auth : Auth) (loanId : Id) (newPrincipal newRate : ℚ)
    (newTermMonths : ℕ) (reason : String) :
    TakesLoanSteps (requestRestructure auth loanId newPrincipal newRate newTermMonths reason) := by
  intro s hs
  refine .require (fun _ => ?_) fun _ => trivial
  refine follows_findChangeable hs fun t loan hloan => follows_createRequest ?_ fun id => ?_
  · exact fun u hu => LoanStep.asksRestructure (hu.loanApproved hloan)
  · have htype : ApprovalRequestType.loanRestructure ≠ .businessRuleTriggered := by decide
    exact requestChange_loanStep htype _ _ _ _ _ _

theorem requestWriteOff_takesLoanSteps (auth : Auth) (loanId : Id) (x : ℚ) (reason : String) :
    TakesLoanSteps (requestWriteOff auth loanId x reason) := by
  intro s hs
  refine .require (fun _ => ?_) fun _ => trivial
  refine follows_findChangeable hs fun t loan hloan => follows_createRequest ?_ fun id => ?_
  · exact fun u hu => LoanStep.asksWriteOff (hu.loanApproved hloan)
  · have htype : ApprovalRequestType.loanWriteOff ≠ .businessRuleTriggered := by decide
    exact requestChange_loanStep htype _ _ _ _ _ _

theorem LoanOperation.takesLoanSteps (op : LoanOperation) : TakesLoanSteps op.handler := by
  cases op with
  | initiate js auth now body => exact (initiateLoan_takesLoanSteps js auth now body).discard
  | approve js auth now loanId => exact (approveLoan_takesLoanSteps js auth now loanId).discard
  | reject auth loanId => exact rejectLoan_takesLoanSteps auth loanId
  | disburse js auth now loanId vaultId =>
    exact (disburseLoan_takesLoanSteps js auth now loanId vaultId).discard
  | recordRepayment auth now loanId x =>
    exact (recordRepayment_takesLoanSteps auth now loanId x).discard
  | recordCollection auth now body =>
    exact (recordCollection_takesLoanSteps auth now body).discard
  | requestRestructure auth loanId principal rate term reason =>
    exact (requestRestructure_takesLoanSteps auth loanId principal rate term reason).discard
  | requestWriteOff auth loanId x reason =>
    exact (requestWriteOff_takesLoanSteps auth loanId x reason).discard
  | resolve call =>
    apply TakesLoanSteps.of_everyStep
    apply call.everyStep
    · exact fun lab s => .quiet (Db.Agree.refl s)
    · exact fun existing s s' h => .resolves rfl h

/-! ## Segregation of duties -/

/-- After every schedule of loan operations, a loan that somebody initiated and that is
approved, disbursed, active or closed has been approved by another user. -/
theorem duties_segregated {ι : Type} [DecidableEq ι] (ops : ι → LoanOperation) {s : Db}
    (hs : s.DutiesSegregated) (sched : List ι) (id : Id) (loan : Loan) (initiator : Id) :
    ((loanOperationPool ops s).run sched).state.find? .loan id = some loan →
    loan.initiatedById = some initiator →
    loan.status ∈ [LoanStatus.approved, .disbursed, .active, .closed] →
    ∃ approver, loan.approvedById = some approver ∧ approver ≠ initiator := by
  intro hloan hinitiator hstatus
  have hfollows : (loanOperationPool ops s).Follows loanProtocol (fun _ _ => True) fun _ => () :=
    fun i => (ops i).takesLoanSteps s hs
  have hkept : s.DutiesKept ((loanOperationPool ops s).run sched).state := hfollows.run_rely sched
  exact (hkept.segregated hs).granted id loan hloan hstatus initiator hinitiator

/-- A lending institution with a customer and a product, and without any loan. -/
def openingLedger : Db :=
  ((lendingLedger.insert .customer { institutionId := 1, status := .active }).insert .product
    { institutionId := 1, type := .loan, status := .active }).insert .productVersion
    { productId := 1, interestRate := 0 }

theorem dutiesSegregated_openingLedger : openingLedger.DutiesSegregated := by
  constructor
  · exact fun id loan hl => absurd hl nofun
  · exact fun i hi => absurd hi nofun
  · exact fun r hr => absurd hr nofun
  · exact fun w hw => absurd hw nofun

/-- A user initiates a loan, which another one approves and disburses, and it is repaid. -/
def lendInTime : Fin 4 → LoanOperation
  | 0 => .initiate plainJs ⟨1, 1⟩ 1 ⟨1, 1, 100, 2⟩
  | 1 => .approve plainJs ⟨1, 2⟩ 1 1
  | 2 => .disburse plainJs ⟨1, 2⟩ 2 1 (some 1)
  | 3 => .recordRepayment ⟨1, 1⟩ 3 1 100

def lendingSchedule : List (Fin 4) :=
  List.replicate 6 0 ++ List.replicate 6 1 ++ List.replicate 14 2 ++ List.replicate 8 3

theorem duties_segregated_lendInTime :
    ∃ loan, ((loanOperationPool lendInTime openingLedger).run lendingSchedule).state.find? .loan 1 =
      some loan ∧ loan.status = .closed ∧
      ∃ approver, loan.approvedById = some approver ∧ approver ≠ 1 := by
  have hfound : (((loanOperationPool lendInTime openingLedger).run lendingSchedule).state.find?
      .loan 1).map (fun l => (l.status, l.initiatedById)) = some (.closed, some 1) := by
    decide +kernel
  obtain ⟨loan, hloan, hfields⟩ := Option.map_eq_some_iff.mp hfound
  obtain ⟨hstatus, hinitiator⟩ := Prod.mk.inj hfields
  refine ⟨loan, hloan, hstatus, ?_⟩
  apply duties_segregated lendInTime dutiesSegregated_openingLedger lendingSchedule 1 loan 1 hloan
    hinitiator
  rw [hstatus]
  decide

end NexusEfos
