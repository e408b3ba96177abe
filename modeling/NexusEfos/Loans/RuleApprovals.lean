/-
Business rules in the life of a loan.

A rule can ask for an additional approval, and a rule of the initiation can reject the
loan.  A disbursement looks for requests that are pending, before its transaction, and
for no others: one that was rejected is no obstacle, and those of its own rules are
raised after the cash has left.  A loan that a rule rejected can be approved like any
other.  Runs that avoid these steps pay out no loan before its requests have been approved,
and none that a rule rejected (`rules_have_teeth`).
-/
import NexusEfos.Loans.LoanSteps
import Mathlib.Data.Fin.VecNotation

namespace NexusEfos

/-! ## What a step does to one loan -/

/-- How a loan comes to be as it is after a step. -/
inductive LoanWrite (lab : Access) (s s' : Db) (id : Id) (l' : Loan) : Prop
  | created (hnew : s.find? .loan id = none) (hstatus : l'.status = .pending)
      (happrover : l'.approvedById = none) (hdisbursed : l'.disbursedAt = none)
  | kept {l : Loan} (hl : s.find? .loan id = some l) (hinitiated : l'.initiatedById = l.initiatedById)
      (happrover : l'.approvedById = l.approvedById) (hdisbursed : l'.disbursedAt = l.disbursedAt)
      (hstatus : l'.status = l.status)
  | approved {l : Loan} (hlab : lab.loanMove = some (id, .approve)) (hl : s.find? .loan id = some l)
      (hdisbursed : l'.disbursedAt = l.disbursedAt) (hstatus : l'.status = .approved)
  | rejected {l : Loan} {institutionId : Option Id}
      (hlab : lab.loanMove = some (id, .reject institutionId)) (hl : s.find? .loan id = some l)
      (hknown : institutionId = none → l.initiatedById ≠ none)
      (hinitiated : l'.initiatedById = l.initiatedById)
      (happrover : l'.approvedById = l.approvedById) (hdisbursed : l'.disbursedAt = l.disbursedAt)
      (hstatus : l'.status = .rejected)
  | disbursed (hlab : lab.loanMove = some (id, .disburse)) (hloan : s.LoanApproved id)
      (hstatus : l'.status = .disbursed) (hrequests : s.Agree [.approvalRequest] s')
  | later {l : Loan} (hloan : s.LoanApproved id) (hl : s.find? .loan id = some l)
      (hdisbursed : l'.disbursedAt = l.disbursedAt)
      (hstatus : l'.status ∈ [LoanStatus.active, .closed, .writtenOff])

namespace LoanWrite

variable {lab : Access} {s s' : Db} {id : Id} {l' : Loan}

theorem same (hl : s.find? .loan id = some l') : LoanWrite lab s s' id l' :=
  .kept hl rfl rfl rfl rfl

theorem of_agree (h : s.Agree [.loan] s') (hl : s'.find? .loan id = some l') :
    LoanWrite lab s s' id l' := by
  rw [h.find? (by decide)] at hl
  exact same hl

/-- One loan is rewritten. -/
theorem of_modify {t : Db} {k : Id} {f : Loan → Loan} (ht : s.Agree [.loan] t)
    (hl : (t.modify .loan k f).find? .loan id = some l')
    (h : ∀ l, s.find? .loan k = some l → LoanWrite lab s s' k (f l)) :
    LoanWrite lab s s' id l' := by
  rw [Db.find?_modify, ht.find? (by decide)] at hl
  by_cases hid : id = k
  · rw [if_pos hid] at hl
    obtain ⟨l, hl', rfl⟩ := Option.map_eq_some_iff.mp hl
    subst hid
    exact h l hl'
  · rw [if_neg hid] at hl
    exact same hl

end LoanWrite

/-- Each loan stands where it stood, or has been written off after an approval. -/
def Db.LoansStand (s s' : Db) : Prop :=
  ∀ id l', s'.find? .loan id = some l' → ∃ l, s.find? .loan id = some l ∧
    l'.initiatedById = l.initiatedById ∧ l'.approvedById = l.approvedById ∧
    l'.disbursedAt = l.disbursedAt ∧
    (l'.status = l.status ∨ l'.status = .writtenOff ∧ l.ApprovedByOther)

namespace Db.LoansStand

variable {s t s' : Db}

theorem of_agree (h : s.Agree [.loan] s') : s.LoansStand s' := by
  intro id l' hl
  rw [h.find? (by decide)] at hl
  exact ⟨l', hl, rfl, rfl, rfl, .inl rfl⟩

theorem refl (s : Db) : s.LoansStand s := of_agree (Agree.refl s)

theorem trans (h : s.LoansStand t) (h' : t.LoansStand s') : s.LoansStand s' := by
  intro id l'' hl''
  obtain ⟨l', hl', hinitiated', happrover', hdisbursed', hstatus'⟩ := h' id l'' hl''
  obtain ⟨l, hl, hinitiated, happrover, hdisbursed, hstatus⟩ := h id l' hl'
  refine ⟨l, hl, hinitiated'.trans hinitiated, happrover'.trans happrover,
    hdisbursed'.trans hdisbursed, ?_⟩
  rcases hstatus' with hsame' | ⟨hwritten, hother⟩
  · rcases hstatus with hsame | ⟨hwritten, hother⟩
    · exact .inl (hsame'.trans hsame)
    · exact .inr ⟨hsame'.trans hwritten, hother⟩
  · refine .inr ⟨hwritten, fun u hu => ?_⟩
    rw [← happrover]
    apply hother u
    rw [hinitiated]
    exact hu

/-- Loans are rewritten and stand where they stood. -/
theorem modifyAll {f : Id → Loan → Loan} (hf : ∀ k l, (f k l).initiatedById = l.initiatedById ∧
      (f k l).approvedById = l.approvedById ∧ (f k l).disbursedAt = l.disbursedAt ∧
      (f k l).status = l.status) (s : Db) : s.LoansStand (s.modifyAll .loan f) := by
  intro id l' hl
  rw [find?, table_modifyAll_self, OrderedMap.get?_updateAll] at hl
  obtain ⟨l, hl', rfl⟩ := Option.map_eq_some_iff.mp hl
  obtain ⟨hinitiated, happrover, hdisbursed, hstatus⟩ := hf id l
  exact ⟨l, hl', hinitiated, happrover, hdisbursed, .inl hstatus⟩

end Db.LoansStand

/-- The effect of a decision leaves the loans where they stand, or writes one off that was
approved. -/
theorem ResolveCall.run_effect_loansStand {call : ResolveCall} {request : ApprovalRequest}
    {s s' : Db} {u : Unit} (hs : s.DutiesSegregated)
    (h : (call.effect request).run s = (.ok u, s')) : s.LoansStand s' := by
  have hquiet : Quiet [.loan] (call.effect request) → s.LoansStand s' := by
    intro hp
    have hagree := hp.run s
    rw [h] at hagree
    exact .of_agree hagree
  have hloan : ∀ {p : Handler Unit}, Quiet loanTables p → Quiet [.loan] p := fun hp =>
    Proc.Every.imp hp fun _ _ hagree => hagree.mono (by decide)
  by_cases hwrites : ∀ m ∈ approvalWrites request.type, m ∉ loanTables
  · exact hquiet (hloan (call.quiet_effect hwrites))
  cases hdecision : call.decision with
  | reject =>
    apply hquiet
    unfold effect
    rw [hdecision]
    exact hloan (Quiet.rejection (by decide) request)
  | approve =>
    have htype := approvalWrites_of_loan hwrites
    simp only [List.mem_cons, List.not_mem_nil, or_false] at htype
    unfold effect applyApproval at h
    rw [hdecision] at h
    rcases htype with heq | heq | heq | heq
    · simp only [heq] at h
      obtain ⟨r, -, rfl⟩ := run_restructureLoan_eq_ok h
      have hscheduled : s.Agree [.loan] (r.reschedule call.now s) :=
        (Db.Agree.modifyAll (m := .loanInstallment) (by decide) _ _).trans
          (Db.Agree.insertAll (by decide) _ _)
      have hterms : (r.reschedule call.now s).LoansStand
          ((r.reschedule call.now s).modify .loan r.loanId r.terms) := by
        apply Db.LoansStand.modifyAll
        intro k l
        split <;> exact ⟨rfl, rfl, rfl, rfl⟩
      have hdone := Db.LoansStand.of_agree (Db.Agree.modify (m := .loanRestructure) (by decide)
        ((r.reschedule call.now s).modify .loan r.loanId r.terms) request.targetId
        fun r => { r with appliedAt := some call.now })
      exact ((Db.LoansStand.of_agree hscheduled).trans hterms).trans hdone
    · apply hquiet
      apply call.quiet_effect
      rw [heq]
      decide
    · simp only [heq] at h
      obtain ⟨w, hfound, rfl⟩ := run_writeOffLoan_eq_ok h
      intro id l' hl
      rw [Db.find?_modify_of_ne (by decide), Db.find?_modify] at hl
      by_cases hid : id = w.loanId
      · rw [if_pos hid] at hl
        obtain ⟨l, hl', rfl⟩ := Option.map_eq_some_iff.mp hl
        obtain ⟨l₀, hl₀, hother⟩ := hs.writeOffs w (OrderedMap.mem_values.mpr ⟨_, hfound⟩)
        rw [hid, hl₀] at hl'
        rw [← Option.some.inj hl']
        exact ⟨l₀, by rw [hid, hl₀], rfl, rfl, rfl, .inr ⟨rfl, hother⟩⟩
      · rw [if_neg hid] at hl
        exact ⟨l', hl, rfl, rfl, rfl, .inl rfl⟩
    · simp only [heq] at h
      have hmerge : (mergeCustomers call.now call.auth.userId request.targetId).Every
          Db.LoansStand := by
        have hwatched : ∀ m ∈ [Model.loan], m ∈ loanTables := by decide
        apply mergeCustomers_every hwatched fun _ _ => Db.LoansStand.of_agree
        intro s p q
        apply Db.LoansStand.modifyAll
        intro k l
        split <;> exact ⟨rfl, rfl, rfl, rfl⟩
      have hstand := hmerge.run Db.LoansStand.refl Db.LoansStand.trans s
      rwa [h] at hstand

/-- What a step does to a loan. -/
theorem LoanStep.loanWrite {lab : Access} {s s' : Db} (h : LoanStep lab s s')
    (hs : s.DutiesSegregated) {id : Id} {l' : Loan} (hl : s'.find? .loan id = some l') :
    LoanWrite lab s s' id l' := by
  cases h with
  | quiet h => exact .of_agree (h.mono (by decide)) hl
  | @initiates row hstatus happrover hdisbursed =>
    rw [Db.find?_insert] at hl
    by_cases hid : id = s.nextId .loan
    · rw [if_pos hid] at hl
      obtain rfl := Option.some.inj hl
      refine .created ?_ hstatus happrover hdisbursed
      rw [hid]
      exact OrderedMap.get?_nextKey _
    · rw [if_neg hid] at hl
      exact .same hl
  | approves hlab hother =>
    refine .of_modify (Db.Agree.refl s) hl fun l hl => ?_
    exact .approved hlab hl rfl rfl
  | rejects hlab hinitiated =>
    refine .of_modify (Db.Agree.refl s) hl fun l hl => ?_
    exact .rejected hlab hl (fun hnone => hinitiated hnone l hl) rfl rfl rfl rfl
  | @disburses d hlab hloan =>
    refine .of_modify (.payOut (by decide) d s) hl fun l hl => ?_
    refine .disbursed hlab hloan rfl ?_
    exact (Db.Agree.payOut (by decide) d s).trans (Db.Agree.modify (m := .loan) (by decide) _ _ _)
  | @repays _ loanId recordedById amount hlab h =>
    rw [h.find? (by decide)] at hl
    have hrepaid : s.DutiesKept (s.repay loanId amount recordedById) := .repay s loanId recordedById amount
    have hsame : s.Agree [.loan] (s.repay loanId amount recordedById) :=
      Db.Agree.repay (by decide) (by decide) s loanId amount recordedById
    refine .of_modify hsame hl fun l hl => ?_
    by_cases hpaid : (s.repay loanId amount recordedById).allPaid loanId = true
    · obtain ⟨i, hi, rfl⟩ := Db.exists_installment_of_allPaid hpaid
      obtain ⟨l₀, hl₀, hother⟩ := (hrepaid.segregated hs).installments i hi
      rw [hsame.find? (by decide)] at hl₀
      refine .later ⟨l₀, hl₀, hother⟩ hl rfl ?_
      simp only [Db.statusAfter, if_pos hpaid]
      decide
    · by_cases hdisbursed : l.status = .disbursed
      · refine .later ⟨l, hl, hs.granted loanId l hl ?_⟩ hl rfl ?_
        · rw [hdisbursed]
          decide
        · simp only [Db.statusAfter, if_neg hpaid, if_pos hdisbursed]
          decide
      · refine .kept hl rfl rfl rfl ?_
        simp only [Db.statusAfter, if_neg hpaid, if_neg hdisbursed]
  | asksRestructure hloan => exact .of_agree (Db.Agree.insert (m := .loanRestructure) (by decide) s _) hl
  | asksWriteOff hloan => exact .of_agree (Db.Agree.insert (m := .loanWriteOff) (by decide) s _) hl
  | asksApproval htype =>
    exact .of_agree (Db.Agree.insert (m := .approvalRequest) (by decide) s _) hl
  | raises hlab => exact .of_agree (Db.Agree.insert (m := .approvalRequest) (by decide) s _) hl
  | @resolves call existing _ hlab h =>
    obtain ⟨row, t, -, -, heffect, rfl⟩ := ResolveCall.run_inTx_effect h
    have hclaimed : s.Agree (.loan :: dutyTables)
        (s.modify .approvalRequest call.requestId call.resolve) :=
      Db.Agree.modify (m := .approvalRequest) (by decide) s _ _
    have hduties : s.DutiesKept (s.modify .approvalRequest call.requestId call.resolve) :=
      .of_agree (hclaimed.mono (by decide))
    have hstand := ResolveCall.run_effect_loansStand (hduties.segregated hs) heffect
    rw [Db.find?_insert_of_ne (by decide)] at hl
    obtain ⟨l, hl', hinitiated, happrover, hdisbursed, hstatus⟩ := hstand id l' hl
    rw [hclaimed.find? (by decide)] at hl'
    rcases hstatus with hsame | ⟨hwritten, hother⟩
    · exact .kept hl' hinitiated happrover hdisbursed hsame
    · refine .later ⟨l, hl', hother⟩ hl' hdisbursed ?_
      rw [hwritten]
      decide

/-! ## What a step does to one request -/

/-- How an approval request comes to be as it is after a step. -/
inductive RequestWrite (lab : Access) (s : Db) (r : Id) (row' : ApprovalRequest) : Prop
  | kept (hrow : s.find? .approvalRequest r = some row')
  | resolved {row : ApprovalRequest} (hlab : lab.loanMove = none)
      (hrow : s.find? .approvalRequest r = some row) (hpending : row.status = .pending)
      (hsame : row'.type = row.type ∧ row'.targetType = row.targetType ∧ row'.targetId = row.targetId)
  | asked (htype : row'.type ≠ .businessRuleTriggered)
  | raised (hlab : lab.raises = some (row'.targetType, row'.targetId))

theorem RequestWrite.of_agree {lab : Access} {s s' : Db} (h : s.Agree [.approvalRequest] s')
    {r : Id} {row' : ApprovalRequest} (hrow : s'.find? .approvalRequest r = some row') :
    RequestWrite lab s r row' := by
  rw [h.find? (by decide)] at hrow
  exact .kept hrow

theorem RequestWrite.of_insert {lab : Access} {s : Db} {row row' : ApprovalRequest} {r : Id}
    (hrow : (s.insert .approvalRequest row).find? .approvalRequest r = some row')
    (hnew : row' = row → RequestWrite lab s r row') : RequestWrite lab s r row' := by
  rw [Db.find?_insert] at hrow
  by_cases hr : r = s.nextId .approvalRequest
  · rw [if_pos hr] at hrow
    exact hnew (Option.some.inj hrow).symm
  · rw [if_neg hr] at hrow
    exact .kept hrow

/-- What a step does to a request. -/
theorem LoanStep.requestWrite {lab : Access} {s s' : Db} (h : LoanStep lab s s') {r : Id}
    {row' : ApprovalRequest} (hrow : s'.find? .approvalRequest r = some row') :
    RequestWrite lab s r row' := by
  cases h with
  | quiet h => exact .of_agree (h.mono (by decide)) hrow
  | initiates _ _ _ => exact .of_agree (Db.Agree.insert (m := .loan) (by decide) s _) hrow
  | approves _ _ => exact .of_agree (Db.Agree.modify (m := .loan) (by decide) s _ _) hrow
  | rejects _ _ => exact .of_agree (Db.Agree.modify (m := .loan) (by decide) s _ _) hrow
  | @disburses d _ _ =>
    exact .of_agree ((Db.Agree.payOut (by decide) d s).trans
      (Db.Agree.modify (m := .loan) (by decide) _ _ _)) hrow
  | @repays _ loanId recordedById amount _ h =>
    have hrepaid : s.Agree [.approvalRequest] (s.repayLoan loanId amount recordedById) :=
      (Db.Agree.repay (by decide) (by decide) s loanId amount recordedById).trans
        (Db.Agree.modify (m := .loan) (by decide) _ _ _)
    exact .of_agree (hrepaid.trans (h.mono (by decide))) hrow
  | asksRestructure _ =>
    exact .of_agree (Db.Agree.insert (m := .loanRestructure) (by decide) s _) hrow
  | asksWriteOff _ => exact .of_agree (Db.Agree.insert (m := .loanWriteOff) (by decide) s _) hrow
  | asksApproval htype =>
    refine .of_insert hrow fun heq => .asked ?_
    rw [heq]
    exact htype
  | raises hlab =>
    refine .of_insert hrow fun heq => .raised ?_
    rw [heq]
    exact hlab
  | @resolves call existing _ hlab h =>
    obtain ⟨row, hfound, hpending, hrows⟩ := ResolveCall.run_inTx_eq_ok h
    rw [hrows] at hrow
    by_cases hr : r = call.requestId
    · rw [if_pos hr] at hrow
      rw [← hr] at hfound
      refine .resolved hlab hfound hpending ?_
      rw [← Option.some.inj hrow]
      exact ⟨rfl, rfl, rfl⟩
    · rw [if_neg hr] at hrow
      exact .kept hrow

/-! ## The condition -/

/-- A business rule asked for the approval, of the loan. -/
def ApprovalRequest.RaisedFor (row : ApprovalRequest) (loanId : Id) : Prop :=
  row.type = .businessRuleTriggered ∧ row.targetType = "Loan" ∧ row.targetId = loanId

/-- What a disbursement checks: a request of a business rule that is pending. -/
def Db.pendingRuleApproval (s : Db) (loanId : Id) : Option (Id × ApprovalRequest) :=
  (s.table .approvalRequest).entries.find? fun e =>
    e.2.targetType = "Loan" ∧ e.2.targetId = loanId ∧ e.2.type = .businessRuleTriggered ∧
      e.2.status = .pending

/-- Cash has been paid out on the loan. -/
def Db.PaidOut (s : Db) (loanId : Id) : Prop :=
  ∃ loan, s.find? .loan loanId = some loan ∧ loan.disbursedAt ≠ none

instance (s : Db) (loanId : Id) : Decidable (s.PaidOut loanId) :=
  decidable_of_iff (∃ loan ∈ s.find? .loan loanId, loan.disbursedAt ≠ none) Iff.rfl

/-- A step in the life of a loan that the business rules have nothing against.  At a
disbursement no request has been rejected, and the check it made still holds. -/
def LoanMove.Heeds (s : Db) (loanId : Id) (loan : Loan) : LoanMove → Prop
  | .approve => loan.status ≠ .rejected
  | .reject institutionId => institutionId = none → loan.status = .pending
  | .disburse => s.pendingRuleApproval loanId = none ∧
      ∀ row ∈ (s.table .approvalRequest).values, row.RaisedFor loanId → row.status ≠ .rejected
  | .repay _ => True

/-- A statement that heeds the business rules.  None of them asks for the approval of a
loan that has been paid out. -/
def Access.HeedsRules (lab : Access) (s : Db) : Prop :=
  (∀ move ∈ lab.loanMove, ∀ loan ∈ s.find? .loan move.1, move.2.Heeds s move.1 loan) ∧
    ∀ target ∈ lab.raises, target.1 = "Loan" →
      ∀ loan ∈ s.find? .loan target.2, loan.disbursedAt = none

instance (row : ApprovalRequest) (loanId : Id) : Decidable (row.RaisedFor loanId) :=
  inferInstanceAs (Decidable (_ ∧ _))

instance (s : Db) (loanId : Id) : Decidable (s.pendingRuleApproval loanId = none) :=
  decidable_of_iff ((s.pendingRuleApproval loanId).isNone = true) Option.isNone_iff_eq_none

instance (s : Db) (loanId : Id) (loan : Loan) : (m : LoanMove) → Decidable (m.Heeds s loanId loan)
  | .approve => inferInstanceAs (Decidable (_ ≠ _))
  | .reject _ => inferInstanceAs (Decidable (_ → _))
  | .disburse => inferInstanceAs (Decidable (_ ∧ _))
  | .repay _ => inferInstanceAs (Decidable True)

instance (lab : Access) (s : Db) : Decidable (lab.HeedsRules s) :=
  inferInstanceAs (Decidable (_ ∧ _))

theorem Db.status_ne_pending {s : Db} {loanId r : Id} {row : ApprovalRequest}
    (h : s.pendingRuleApproval loanId = none) (hrow : s.find? .approvalRequest r = some row)
    (hraised : row.RaisedFor loanId) : row.status ≠ .pending := by
  intro hpending
  have hmem : (r, row) ∈ (s.table .approvalRequest).entries := OrderedMap.get?_eq_some.mp hrow
  have hnone := List.find?_eq_none.mp h (r, row) hmem
  apply hnone
  exact decide_eq_true ⟨hraised.2.1, hraised.2.2, hraised.1, hpending⟩

/-! ## What holds in every state -/

/-- Every request of a business rule for a loan that has been paid out has been approved. -/
def Db.RulesObeyed (s : Db) : Prop :=
  ∀ loanId r row, s.PaidOut loanId → s.find? .approvalRequest r = some row →
    row.RaisedFor loanId → row.status = .approved

/-- A loan that waits for its approval has not been approved or paid out. -/
def Db.PendingUntouched (s : Db) : Prop :=
  ∀ id loan, s.find? .loan id = some loan → loan.status = .pending →
    loan.approvedById = none ∧ loan.disbursedAt = none

/-- A loan that has been rejected without ever being approved. -/
def Db.RuledOut (s : Db) (loanId : Id) : Prop :=
  ∃ loan, s.find? .loan loanId = some loan ∧ loan.initiatedById ≠ none ∧
    loan.status = .rejected ∧ loan.approvedById = none ∧ loan.disbursedAt = none

/-- A loan that was never approved has not been approved by another user. -/
theorem Db.RuledOut.not_loanApproved {s : Db} {loanId : Id} (h : s.RuledOut loanId) :
    ¬ s.LoanApproved loanId := by
  intro happroved
  obtain ⟨loan, hl, hinitiated, -, hnone, -⟩ := h
  obtain ⟨loan', hl', hother⟩ := happroved
  obtain ⟨u, hu⟩ := Option.ne_none_iff_exists'.mp hinitiated
  rw [Option.some.inj (hl'.symm.trans hl)] at hother
  obtain ⟨v, hv, -⟩ := hother u hu
  rw [hnone] at hv
  exact absurd hv nofun

section Steps

variable {lab : Access} {s s' : Db}

/-- A loan that is paid out after a step was paid out before it, or is paid out by it. -/
theorem LoanStep.paidOut (h : LoanStep lab s s') (hs : s.DutiesSegregated) {loanId : Id}
    (hpaid : s'.PaidOut loanId) : s.PaidOut loanId ∨
      lab.loanMove = some (loanId, .disburse) ∧ s.LoanApproved loanId ∧
        s.Agree [.approvalRequest] s' := by
  obtain ⟨l', hl', hdisbursed'⟩ := hpaid
  cases h.loanWrite hs hl' with
  | created _ _ _ hdisbursed => exact absurd hdisbursed hdisbursed'
  | kept hl _ _ hdisbursed _ => exact .inl ⟨_, hl, by rwa [← hdisbursed]⟩
  | approved _ hl hdisbursed _ => exact .inl ⟨_, hl, by rwa [← hdisbursed]⟩
  | rejected _ hl _ _ _ hdisbursed _ => exact .inl ⟨_, hl, by rwa [← hdisbursed]⟩
  | disbursed hlab hloan _ hrequests => exact .inr ⟨hlab, hloan, hrequests⟩
  | later _ hl hdisbursed _ => exact .inl ⟨_, hl, by rwa [← hdisbursed]⟩

theorem LoanStep.rulesObeyed (h : LoanStep lab s s') (hs : s.DutiesSegregated)
    (hheeds : lab.HeedsRules s) (hobeyed : s.RulesObeyed) : s'.RulesObeyed := by
  intro loanId r row' hpaid' hrow' hraised
  rcases h.paidOut hs hpaid' with hpaid | ⟨hlab, ⟨loan, hloan, -⟩, hrequests⟩
  · cases h.requestWrite hrow' with
    | kept hrow => exact hobeyed loanId r row' hpaid hrow hraised
    | @resolved row _ hrow hpending hsame =>
      have hraised' : row.RaisedFor loanId := by
        rw [ApprovalRequest.RaisedFor, ← hsame.1, ← hsame.2.1, ← hsame.2.2]
        exact hraised
      rw [hobeyed loanId r row hpaid hrow hraised'] at hpending
      exact absurd hpending (by decide)
    | asked htype => exact absurd hraised.1 htype
    | raised hlab =>
      obtain ⟨loan, hloan, hdisbursed⟩ := hpaid
      rw [hraised.2.1, hraised.2.2] at hlab
      exact absurd (hheeds.2 _ hlab rfl loan hloan) hdisbursed
  · rw [hrequests.find? (by decide)] at hrow'
    obtain ⟨hnone, hnot⟩ := hheeds.1 _ hlab loan hloan
    have hpending := Db.status_ne_pending hnone hrow' hraised
    have hrejected := hnot row' (OrderedMap.mem_values.mpr ⟨r, hrow'⟩) hraised
    cases hstatus : row'.status with
    | pending => exact absurd hstatus hpending
    | approved => rfl
    | rejected => exact absurd hstatus hrejected

theorem LoanStep.pendingUntouched (h : LoanStep lab s s') (hs : s.DutiesSegregated)
    (huntouched : s.PendingUntouched) : s'.PendingUntouched := by
  intro id l' hl' hpending
  cases h.loanWrite hs hl' with
  | created _ _ happrover hdisbursed => exact ⟨happrover, hdisbursed⟩
  | kept hl _ happrover hdisbursed hstatus =>
    rw [happrover, hdisbursed]
    exact huntouched id _ hl (hstatus.symm.trans hpending)
  | approved _ _ _ hstatus => exact absurd (hstatus.symm.trans hpending) nofun
  | rejected _ _ _ _ _ _ hstatus => exact absurd (hstatus.symm.trans hpending) nofun
  | disbursed _ _ hstatus _ => exact absurd (hstatus.symm.trans hpending) nofun
  | later _ _ _ hstatus =>
    rw [hpending] at hstatus
    exact absurd hstatus (by decide)

theorem LoanStep.ruledOut (h : LoanStep lab s s') (hs : s.DutiesSegregated)
    (hheeds : lab.HeedsRules s) {loanId : Id} (hout : s.RuledOut loanId) : s'.RuledOut loanId := by
  have hnot := hout.not_loanApproved
  obtain ⟨l, hl, hinitiated, hstatus, happrover, hdisbursed⟩ := hout
  obtain ⟨l', hl', -, -⟩ := h.dutiesKept.loans loanId l hl
  refine ⟨l', hl', ?_⟩
  cases h.loanWrite hs hl' with
  | created hnew _ _ _ => exact absurd (hl.symm.trans hnew) nofun
  | kept hl₀ hinitiated' happrover' hdisbursed' hstatus' =>
    rw [← Option.some.inj (hl.symm.trans hl₀)] at hinitiated' happrover' hdisbursed' hstatus'
    rw [hinitiated', happrover', hdisbursed', hstatus']
    exact ⟨hinitiated, hstatus, happrover, hdisbursed⟩
  | approved hlab _ _ _ => exact absurd hstatus (hheeds.1 _ hlab l hl)
  | rejected _ hl₀ _ hinitiated' happrover' hdisbursed' hstatus' =>
    rw [← Option.some.inj (hl.symm.trans hl₀)] at hinitiated' happrover' hdisbursed'
    rw [hinitiated', happrover', hdisbursed']
    exact ⟨hinitiated, hstatus', happrover, hdisbursed⟩
  | disbursed _ hloan _ _ => exact absurd hloan hnot
  | later hloan _ _ _ => exact absurd hloan hnot

/-- A rule of the initiation rejects a loan that waits for its approval. -/
theorem LoanStep.ruledOut_of_rejects (h : LoanStep lab s s') (hs : s.DutiesSegregated)
    (huntouched : s.PendingUntouched) (hheeds : lab.HeedsRules s) {loanId : Id}
    (hlab : lab.loanMove = some (loanId, .reject none)) {l' : Loan}
    (hl' : s'.find? .loan loanId = some l') (hrejected : l'.status = .rejected) :
    s'.RuledOut loanId := by
  have hpending : ∀ l, s.find? .loan loanId = some l → l.status = .pending := fun l hl =>
    hheeds.1 _ hlab l hl rfl
  refine ⟨l', hl', ?_⟩
  cases h.loanWrite hs hl' with
  | created _ hstatus _ _ => exact absurd (hstatus.symm.trans hrejected) nofun
  | kept hl _ _ _ hstatus =>
    rw [hpending _ hl] at hstatus
    exact absurd (hstatus.symm.trans hrejected) nofun
  | approved hlab' _ _ _ => exact absurd (hlab.symm.trans hlab') (by simp)
  | rejected hlab' hl hknown hinitiated happrover hdisbursed hstatus =>
    obtain ⟨happrover₀, hdisbursed₀⟩ := huntouched loanId _ hl (hpending _ hl)
    rw [hinitiated, happrover, hdisbursed]
    rw [hlab, Option.some.injEq, Prod.mk.injEq, LoanMove.reject.injEq] at hlab'
    exact ⟨hknown hlab'.2.symm, hstatus, happrover₀, hdisbursed₀⟩
  | disbursed hlab' _ _ _ => exact absurd (hlab.symm.trans hlab') (by simp)
  | later _ _ _ hstatus =>
    rw [hrejected] at hstatus
    exact absurd hstatus (by decide)

end Steps

/-! ## Any number of operations -/

/-- What the steps above keep, and use of each other. -/
structure Db.RulesSound (s : Db) : Prop where
  duties : s.DutiesSegregated
  pending : s.PendingUntouched
  obeyed : s.RulesObeyed

theorem LoanStep.rulesSound {lab : Access} {s s' : Db} (h : LoanStep lab s s')
    (hheeds : lab.HeedsRules s) (hs : s.RulesSound) : s'.RulesSound where
  duties := h.dutiesKept.segregated hs.duties
  pending := h.pendingUntouched hs.duties hs.pending
  obeyed := h.rulesObeyed hs.duties hheeds hs.obeyed

section Operations

variable {ι : Type} [DecidableEq ι]

/-- With the next statement of a process, a rule of the initiation rejects a loan. -/
def Pool.RejectsByRule (c : Pool ι Access Db Failure Unit) (i : ι) (loanId : Id) : Prop :=
  c.NextIs (fun lab _ => lab.loanMove = some (loanId, .reject none)) i ∧
    ∃ loan, (c.step i).state.find? .loan loanId = some loan ∧ loan.status = .rejected

instance (c : Pool ι Access Db Failure Unit) (i : ι) (loanId : Id) :
    Decidable (c.RejectsByRule i loanId) :=
  decidable_of_iff (c.NextIs (fun lab _ => lab.loanMove = some (loanId, .reject none)) i ∧
    ∃ loan ∈ (c.step i).state.find? .loan loanId, loan.status = .rejected) Iff.rfl

/-- The loan is ruled out by the rejection. -/
theorem Pool.Follows.ruledOut_step {c : Pool ι Access Db Failure Unit} {d : ι → Unit}
    (hc : c.Follows loanProtocol (fun _ _ => True) d) (hs : c.state.RulesSound) {i : ι} {loanId : Id}
    (hheeds : c.Meets Access.HeedsRules i) (h : c.RejectsByRule i loanId) :
    (c.step i).state.RuledOut loanId := by
  obtain ⟨hnext, loan, hloan, hrejected⟩ := h
  rcases hc.step_cases i with hsame | ⟨lab, d', hlab, hguar, -, -⟩
  · exfalso
    rw [hsame] at hloan
    cases hth : c.threads i with
    | done r =>
      rw [NextIs, hth] at hnext
      exact hnext
    | stmt lab act k =>
      rw [NextIs, hth] at hnext
      rw [Meets, hth] at hheeds
      have hpending : loan.status = .pending := hheeds.1 _ hnext loan hloan rfl
      rw [hpending] at hrejected
      exact absurd hrejected nofun
  · exact hguar.ruledOut_of_rejects hs.duties hs.pending (hlab _ hheeds) (hlab _ hnext.meets) hloan
      hrejected

/-- In every schedule whose steps heed the business rules, every request that a rule raised
for a loan has been approved once the loan has been paid out, and a loan that a rule of the
initiation rejects is never paid out. -/
theorem rules_have_teeth (ops : ι → LoanOperation) {s : Db} (hs : s.RulesSound) {sched : List ι}
    (hheeds : (loanOperationPool ops s).Allowed Access.HeedsRules sched) :
    (∀ loanId r row, ((loanOperationPool ops s).run sched).state.PaidOut loanId →
      ((loanOperationPool ops s).run sched).state.find? .approvalRequest r = some row →
      row.RaisedFor loanId → row.status = .approved) ∧
    ∀ before i after loanId, sched = before ++ i :: after →
      ((loanOperationPool ops s).run before).RejectsByRule i loanId →
      ¬ ((loanOperationPool ops s).run sched).state.PaidOut loanId := by
  have hfollows : (loanOperationPool ops s).Follows loanProtocol (fun _ _ => True) fun _ => () :=
    fun i => (ops i).takesLoanSteps s hs.duties
  have hstep : ∀ lab s (d : Unit) s' (d' : Unit), Access.HeedsRules lab s →
      loanProtocol.guar lab s d s' d' → loanProtocol.rely s s' → s.RulesSound → s'.RulesSound :=
    fun _ _ _ _ _ hheeds hguar _ hs => hguar.rulesSound hheeds hs
  constructor
  · exact (hfollows.run_invariant hstep hs hheeds).obeyed
  · rintro before i after loanId rfl hrejects
    obtain ⟨hbefore, hmeets, hafter⟩ := Pool.allowed_append.mp hheeds
    obtain ⟨d, hfollowsBefore⟩ := hfollows.run before
    have hsound := hfollows.run_invariant hstep hs hbefore
    have hout := hfollowsBefore.ruledOut_step hsound hmeets hrejects
    obtain ⟨d', hfollowsStep⟩ := hfollowsBefore.run [i]
    have hone : ((loanOperationPool ops s).run before).Allowed Access.HeedsRules [i] :=
      ⟨hmeets, trivial⟩
    have hsoundStep := hfollowsBefore.run_invariant hstep hsound hone
    have hstay : ∀ lab s (d : Unit) s' (d' : Unit), Access.HeedsRules lab s →
        loanProtocol.guar lab s d s' d' → loanProtocol.rely s s' →
        (s.RulesSound ∧ s.RuledOut loanId) → s'.RulesSound ∧ s'.RuledOut loanId :=
      fun _ _ _ _ _ hheeds hguar _ hinv =>
        ⟨hguar.rulesSound hheeds hinv.1, hguar.ruledOut hinv.1.duties hheeds hinv.2⟩
    have hend := (hfollowsStep.run_invariant hstay ⟨hsoundStep, hout⟩ hafter).2
    rw [Pool.run_append, Pool.run_cons]
    intro hpaid
    obtain ⟨loan, hloan, hdisbursed⟩ := hpaid
    obtain ⟨loan', hloan', -, -, -, hnone⟩ := hend
    have hsame := Option.some.inj (hloan.symm.trans hloan')
    rw [hsame] at hdisbursed
    exact hdisbursed hnone

end Operations

/-! ## A rejected request, and a rejected loan -/

/-- Conditions on the principal. -/
def principalJs : Js :=
  { plainJs with property := fun context _ => some ⟨some context.principal, "principal"⟩ }

/-- Loans below 1000 need an additional approval, and those above it are rejected. -/
def ruledLedger : Db :=
  (openingLedger.insert .businessRule
    { institutionId := 1, ruleCode := "BR-1", name := "Second look", triggerPoint := .loanInitiation,
      conditions := [⟨"principal", .lessThan, .number 1000⟩],
      actions := [⟨.requireAdditionalApproval, none⟩], status := .active }).insert .businessRule
    { institutionId := 1, ruleCode := "BR-2", name := "Too large", triggerPoint := .loanInitiation,
      conditions := [⟨"principal", .greaterThan, .number 1000⟩], actions := [⟨.reject, none⟩],
      status := .active }

theorem rulesSound_ruledLedger : ruledLedger.RulesSound where
  duties :=
    { granted := fun _ _ hl => absurd hl nofun
      installments := fun _ hi => absurd hi nofun
      restructures := fun _ hr => absurd hr nofun
      writeOffs := fun _ hw => absurd hw nofun }
  pending _ _ hl := absurd hl nofun
  obeyed _ _ _ _ hrow := absurd hrow nofun

/-- One loan is rejected, and the other is paid out after its additional approval. -/
def lendWithApproval : Fin 5 → LoanOperation
  | 0 => .initiate principalJs ⟨1, 1⟩ 1 ⟨1, 1, 100, 2⟩
  | 1 => .initiate principalJs ⟨1, 1⟩ 1 ⟨1, 1, 2000, 2⟩
  | 2 => .resolve { decision := .approve, auth := ⟨1, 2⟩, now := 2, requestId := 1 }
  | 3 => .approve principalJs ⟨1, 2⟩ 2 1
  | 4 => .disburse principalJs ⟨1, 2⟩ 2 1 (some 1)

/-- Up to the rejection, and after it. -/
def beforeRejection : List (Fin 5) := List.replicate 7 0 ++ List.replicate 5 1

def afterRejection : List (Fin 5) :=
  List.replicate 2 1 ++ List.replicate 2 2 ++ List.replicate 6 3 ++ List.replicate 14 4

theorem rules_have_teeth_lendWithApproval :
    ((loanOperationPool lendWithApproval ruledLedger).run
      (beforeRejection ++ 1 :: afterRejection)).state.PaidOut 1 ∧
    (∀ r row, ((loanOperationPool lendWithApproval ruledLedger).run
      (beforeRejection ++ 1 :: afterRejection)).state.find? .approvalRequest r = some row →
      row.RaisedFor 1 → row.status = .approved) ∧
    ¬ ((loanOperationPool lendWithApproval ruledLedger).run
      (beforeRejection ++ 1 :: afterRejection)).state.PaidOut 2 := by
  have hpaid : ((loanOperationPool lendWithApproval ruledLedger).run
      (beforeRejection ++ 1 :: afterRejection)).state.PaidOut 1 := by decide +kernel
  have hheeds : (loanOperationPool lendWithApproval ruledLedger).Allowed Access.HeedsRules
      (beforeRejection ++ 1 :: afterRejection) := by decide +kernel
  have hrejects : ((loanOperationPool lendWithApproval ruledLedger).run
      beforeRejection).RejectsByRule 1 2 := by decide +kernel
  obtain ⟨happroved, hnever⟩ := rules_have_teeth lendWithApproval rulesSound_ruledLedger hheeds
  exact ⟨hpaid, fun r row => happroved 1 r row hpaid, hnever _ 1 _ 2 rfl hrejects⟩

/-- The additional approval is refused, and the loan is approved and paid out. -/
def lendWithoutApproval : Fin 4 → LoanOperation
  | 0 => .initiate principalJs ⟨1, 1⟩ 1 ⟨1, 1, 100, 2⟩
  | 1 => .resolve { decision := .reject, auth := ⟨1, 2⟩, now := 2, requestId := 1 }
  | 2 => .approve principalJs ⟨1, 2⟩ 2 1
  | 3 => .disburse principalJs ⟨1, 2⟩ 2 1 (some 1)

def withoutApproval : List (Fin 4) :=
  (List.finRange 4).flatMap fun i => List.replicate (![7, 2, 6, 14] i) i

/-- A loan of 400.00 that a rule rejects is approved and paid out. -/
def lendRejected : Fin 3 → LoanOperation
  | 0 => .initiate principalJs ⟨1, 1⟩ 1 ⟨1, 1, 400, 2⟩
  | 1 => .approve principalJs ⟨1, 2⟩ 2 1
  | 2 => .disburse principalJs ⟨1, 2⟩ 2 1 (some 1)

/-- Loans of more than 300 are rejected. -/
def strictLedger : Db :=
  openingLedger.insert .businessRule
    { institutionId := 1, ruleCode := "BR-2", name := "Too large", triggerPoint := .loanInitiation,
      conditions := [⟨"principal", .greaterThan, .number 300⟩], actions := [⟨.reject, none⟩],
      status := .active }

theorem rules_without_teeth :
    ((loanOperationPool lendWithoutApproval ruledLedger).run withoutApproval).state.PaidOut 1 ∧
    (∃ row, ((loanOperationPool lendWithoutApproval ruledLedger).run withoutApproval).state.find?
      .approvalRequest 1 = some row ∧ row.RaisedFor 1 ∧ row.status = .rejected) ∧
    ((loanOperationPool lendRejected strictLedger).run (List.replicate 5 0)).RejectsByRule 0 1 ∧
    ((loanOperationPool lendRejected strictLedger).run (List.replicate 5 0 ++ 0 ::
      (List.replicate 2 0 ++ List.replicate 6 1 ++ List.replicate 14 2))).state.PaidOut 1 := by
  have hrow : ∃ row ∈ ((loanOperationPool lendWithoutApproval ruledLedger).run
      withoutApproval).state.find? .approvalRequest 1, row.RaisedFor 1 ∧ row.status = .rejected := by
    decide +kernel
  refine ⟨?_, hrow, ?_, ?_⟩
  · decide +kernel
  · decide +kernel
  · decide +kernel

end NexusEfos
