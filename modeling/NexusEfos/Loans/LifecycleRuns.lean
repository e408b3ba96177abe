/-
The life of a loan, under any number of operations at the same time.

Six statements write the status of a loan.  Only that of a disbursement has a guard, and
its check comes before the transaction; an approval and a rejection reach a loan in any
state, and so do a repayment that completes the schedule and the approval of a write-off.
As long as each of them finds the loan in a state it is made for, a loan goes through its
life in one direction (`lifecycle_one_way`).
-/
import NexusEfos.Approvals.ExactlyOnce
import NexusEfos.Loans.Disbursements
import NexusEfos.Loans.Payments
import NexusEfos.Savings.Writes

namespace NexusEfos

/-! ## The one direction -/

/-- Where the life of a loan goes on from a status. -/
def LoanStatus.successors : LoanStatus → List LoanStatus
  | .pending => [.approved, .rejected]
  | .approved => [.disbursed]
  | .disbursed => [.active, .closed, .writtenOff]
  | .active => [.closed, .writtenOff]
  | .rejected | .closed | .writtenOff | .defaulted => []

/-- A status that stays, or goes on. -/
def LoanStatus.Moves (a b : LoanStatus) : Prop := b = a ∨ b ∈ a.successors

instance (a b : LoanStatus) : Decidable (a.Moves b) := inferInstanceAs (Decidable (_ ∨ _))

/-- Every loan stays or goes on, and a loan that is new is pending. -/
def Db.LoansMove (s s' : Db) : Prop :=
  ∀ id loan', s'.find? .loan id = some loan' →
    (∃ loan, s.find? .loan id = some loan ∧ loan.status.Moves loan'.status) ∨
      s.find? .loan id = none ∧ loan'.status = .pending

namespace Db.LoansMove

variable {s t s' : Db}

theorem of_agree (h : s.Agree [.loan] s') : s.LoansMove s' := by
  intro id loan' hl
  rw [h.find? (List.mem_singleton_self _)] at hl
  exact .inl ⟨loan', hl, .inl rfl⟩

theorem trans_agree (h : s.LoansMove t) (h' : t.Agree [.loan] s') : s.LoansMove s' := by
  intro id loan' hl
  rw [h'.find? (List.mem_singleton_self _)] at hl
  exact h id loan' hl

theorem modify {f : Loan → Loan} {id : Id}
    (h : ∀ loan, s.find? .loan id = some loan → loan.status.Moves (f loan).status) :
    s.LoansMove (s.modify .loan id f) := by
  intro id' loan' hl
  rw [Db.find?_modify] at hl
  by_cases hid : id' = id
  · rw [if_pos hid] at hl
    obtain ⟨loan, hloan, rfl⟩ := Option.map_eq_some_iff.mp hl
    exact .inl ⟨loan, hloan, h loan (hid ▸ hloan)⟩
  · rw [if_neg hid] at hl
    exact .inl ⟨loan', hl, .inl rfl⟩

theorem insert {row : Loan} (h : row.status = .pending) (s : Db) :
    s.LoansMove (s.insert .loan row) := by
  intro id loan' hl
  rw [Db.find?_insert] at hl
  by_cases hid : id = s.nextId .loan
  · rw [if_pos hid] at hl
    refine .inr ⟨?_, by rw [← Option.some.inj hl, h]⟩
    rw [hid]
    exact OrderedMap.get?_nextKey _
  · rw [if_neg hid] at hl
    exact .inl ⟨loan', hl, .inl rfl⟩

end Db.LoansMove

/-! ## The condition -/

/-- The loan is in a state that a step of its life is made for. -/
def LoanMove.Fits (s : Db) (loanId : Id) (loan : Loan) : LoanMove → Prop
  | .approve => loan.status ∈ [.pending, .approved]
  | .reject institutionId =>
    (∀ i ∈ institutionId, loan.institutionId = i) → loan.status ∈ [.pending, .rejected]
  | .disburse => loan.status ∈ [.approved, .disbursed] ∨ s.FirstTaken loanId
  | .repay amount => loan.status ∈ [.disbursed, .active, .closed] ∨ ¬ s.Completes loanId amount

/-- The loan of a write-off that is approved is one that can be written off. -/
def Resolution.FitsWriteOff (s : Db) (r : Resolution) : Prop :=
  r.approved = true → r.request.type = .loanWriteOff →
    (∀ row ∈ s.find? .approvalRequest r.requestId, row.status = .pending) →
    ∀ w ∈ s.find? .loanWriteOff r.request.targetId, ∀ loan ∈ s.find? .loan w.loanId,
      loan.status ∈ [LoanStatus.disbursed, .active, .writtenOff]

/-- Every step a statement takes in the life of a loan fits the loan. -/
def Access.FitsLoans (lab : Access) (s : Db) : Prop :=
  (∀ move ∈ lab.loanMove, ∀ loan ∈ s.find? .loan move.1, move.2.Fits s move.1 loan) ∧
    ∀ r ∈ lab.resolves, r.FitsWriteOff s

instance (s : Db) (loanId : Id) : Decidable (s.FirstTaken loanId) :=
  inferInstanceAs (Decidable (∃ i ∈ (s.table .loanInstallment).values, _ ∧ _))

instance (s : Db) (loanId : Id) (loan : Loan) : (m : LoanMove) → Decidable (m.Fits s loanId loan)
  | .approve => inferInstanceAs (Decidable (_ ∈ _))
  | .reject _ => inferInstanceAs (Decidable (_ → _))
  | .disburse => inferInstanceAs (Decidable (_ ∨ _))
  | .repay _ => inferInstanceAs (Decidable (_ ∨ ¬ _))

instance (s : Db) (r : Resolution) : Decidable (r.FitsWriteOff s) :=
  inferInstanceAs (Decidable (_ → _ → _ → _))

instance (lab : Access) (s : Db) : Decidable (lab.FitsLoans s) :=
  inferInstanceAs (Decidable (_ ∧ _))

/-! ## What a statement does -/

/-- What the endpoints check of every loan and every restructuring. -/
structure Db.LoansSound (s : Db) : Prop where
  terms : s.TermsPositive
  restructures : ∀ id r, s.find? .loanRestructure id = some r → 0 < r.newTermMonths

/-- A statement whose step fits moves the loans along their life. -/
def lifecycleProtocol : Protocol Access Db Unit where
  rely s s' := s.LoansSound → s'.LoansSound
  guar lab s _ s' _ := lab.FitsLoans s → s.LoansMove s'
  refl _ := id
  trans h h' := h' ∘ h

theorem Db.LoansSound.of_agree {s s' : Db} (hs : s.LoansSound)
    (h : s.Agree [.loan, .loanRestructure] s') : s'.LoansSound := by
  constructor
  · intro id loan hl
    rw [h.find? (by decide)] at hl
    exact hs.terms id loan hl
  · intro id r hr
    rw [h.find? (by decide)] at hr
    exact hs.restructures id r hr

theorem lifecycleProtocol_watches : lifecycleProtocol.Watches [.loan, .loanRestructure] := by
  intro lab s s' d h
  exact ⟨fun hs => hs.of_agree h, fun _ => Db.LoansMove.of_agree (h.mono (by decide))⟩

/-- A loan is rewritten and keeps a term of at least a month. -/
theorem Db.LoansSound.modify_loan {s : Db} (hs : s.LoansSound) {f : Loan → Loan}
    (hf : ∀ l, 0 < l.termMonths → 0 < (f l).termMonths) (id : Id) :
    (s.modify .loan id f).LoansSound := by
  refine ⟨fun k loan hl => ?_, fun k r hr => ?_⟩
  · rw [find?_modify] at hl
    split at hl
    · obtain ⟨l, hl', rfl⟩ := Option.map_eq_some_iff.mp hl
      exact hf l (hs.terms k l hl')
    · exact hs.terms k loan hl
  · rw [find?_modify_of_ne (by decide)] at hr
    exact hs.restructures k r hr

theorem Db.LoansSound.insert_loan {s : Db} (hs : s.LoansSound) {row : Loan}
    (hrow : 0 < row.termMonths) : (s.insert .loan row).LoansSound := by
  refine ⟨fun k loan hl => ?_, fun k r hr => ?_⟩
  · rw [find?_insert] at hl
    split at hl
    · rw [← Option.some.inj hl]
      exact hrow
    · exact hs.terms k loan hl
  · rw [find?_insert_of_ne (by decide)] at hr
    exact hs.restructures k r hr

theorem Db.LoansSound.insert_loanRestructure {s : Db} (hs : s.LoansSound) {row : LoanRestructure}
    (hrow : 0 < row.newTermMonths) : (s.insert .loanRestructure row).LoansSound := by
  refine ⟨fun k loan hl => ?_, fun k r hr => ?_⟩
  · rw [find?_insert_of_ne (by decide)] at hl
    exact hs.terms k loan hl
  · rw [find?_insert] at hr
    split at hr
    · rw [← Option.some.inj hr]
      exact hrow
    · exact hs.restructures k r hr

theorem Disbursement.loansSound {d : Disbursement} {s s' : Db} {loan : Loan}
    (h : d.inTx.run s = (.ok loan, s')) (hs : s.LoansSound) : s'.LoansSound := by
  obtain ⟨-, -, -, -, rfl⟩ := d.run_inTx_eq_ok h
  have hpaid : (d.payOut s).LoansSound := hs.of_agree (.payOut (by decide) d s)
  exact hpaid.modify_loan (f := d.disburse) (fun _ h => h) d.loanId

/-! ## One statement after the other -/

section Follows

variable {α β : Type} {s : Db}

/-- A handler keeps loans in their life. -/
def KeepsLife (p : Handler α) : Prop :=
  ∀ s, s.LoansSound → p.Follows lifecycleProtocol (fun _ _ _ => True) s ()

/-- The status of a loan is written by its key. -/
theorem follows_updateAs_loan {lab : Access} {id : Id} {f : Loan → Loan} {k : Loan → Handler α}
    (hf : ∀ l, (f l).termMonths = l.termMonths)
    (hmoves : ∀ t loan, lab.FitsLoans t → t.find? .loan id = some loan →
      loan.status.Moves (f loan).status)
    (hk : ∀ t row, lifecycleProtocol.rely s t →
      (k row).Follows lifecycleProtocol (fun _ _ _ => True) t ()) :
    (updateAs lab .loan id f >>= k).Follows lifecycleProtocol (fun _ _ _ => True) s () := by
  intro t ht
  cases hrow : t.find? .loan id with
  | some row =>
    simp only [hrow]
    have hrely : lifecycleProtocol.rely t (t.modify .loan id f) := fun hs =>
      hs.modify_loan (fun l hl => by rwa [hf]) id
    refine ⟨(), hrely, fun hfits => ?_, hk _ _ fun hs => hrely (ht hs)⟩
    exact Db.LoansMove.modify fun loan hl => hmoves t loan hfits hl
  | none =>
    simp only [hrow]
    exact ⟨(), lifecycleProtocol.refl t, fun _ => Db.LoansMove.of_agree (Db.Agree.refl t), trivial⟩

theorem KeepsLife.discard {p : Handler α} (hp : KeepsLife p) : KeepsLife (NexusEfos.discard p) :=
  fun s hs => (hp s hs).bind (fun _ _ _ _ => trivial) fun _ _ _ _ => trivial

/-- Code at the end that touches no loan. -/
theorem follows_quiet_end {p : Handler α} (hp : Quiet [.loan, .loanRestructure] p) :
    p.Follows lifecycleProtocol (fun _ _ _ => True) s () :=
  lifecycleProtocol_watches.quiet_end hp fun _ _ _ => trivial

end Follows

theorem approveLoan_keepsLife (js : Js) (auth : Auth) (now : DateTime) (loanId : Id) :
    KeepsLife (approveLoan js auth now loanId) := by
  intro s _
  have hW := lifecycleProtocol_watches
  refine hW.query fun _ _ => .orFail (fun loan _ => ?_) fun _ => trivial
  refine .require (fun _ => ?_) fun _ => trivial
  refine hW.query fun _ _ => ?_
  refine hW.quiet (.matchRules _ _ _ _ _) (fun _ matched _ => ?_) fun _ _ => trivial
  refine hW.quiet (.requireUnblocked _ _) (fun _ _ _ => ?_) fun _ _ => trivial
  refine follows_updateAs_loan (fun _ => rfl) (fun t loan hfits hloan => ?_) fun _ updated _ => ?_
  · have hstatus := hfits.1 (loanId, .approve) rfl loan hloan
    show loan.status.Moves .approved
    rcases List.mem_pair.mp hstatus with h | h
    · rw [h]
      decide
    · rw [h]
      decide
  · apply follows_quiet_end
    refine (Quiet.create (by decide) _).bind fun _ => ?_
    exact (Quiet.executeMatchedRules (by decide) (by decide) _ _ _ _ _).bind fun _ => .pure _

theorem rejectLoan_keepsLife (auth : Auth) (loanId : Id) :
    KeepsLife (rejectLoan auth loanId) := by
  intro s _ t _
  have hrest : ∀ found u, ((do
      Proc.require (found = true) (.http 404 "Loan not found")
      let _ ← create .auditLog
        { institutionId := auth.institutionId, userId := some auth.userId, action := "loan.reject",
          resource := "loan", resourceId := some loanId }) : Handler Unit).Follows lifecycleProtocol
        (fun _ _ _ => True) u () := by
    intro found u
    apply follows_quiet_end
    exact (Quiet.require _ _).bind fun _ => (Quiet.create (by decide) _).bind fun _ => .pure _
  have hsame : lifecycleProtocol.rely t t ∧ lifecycleProtocol.guar
      { loanMove := some (loanId, .reject (some auth.institutionId)) } t () t () :=
    lifecycleProtocol_watches _ _ _ _ (Db.Agree.refl t)
  cases hrow : t.find? .loan loanId with
  | some row =>
    by_cases howner : row.institutionId = auth.institutionId
    · simp only [hrow, howner, decide_true, if_true]
      refine ⟨(), fun hs => hs.modify_loan ?_ loanId, fun hfits => ?_, hrest _ _⟩
      · exact fun _ h => h
      refine Db.LoansMove.modify fun loan hloan => ?_
      rw [← Option.some.inj (hrow.symm.trans hloan)]
      have hstatus := hfits.1 _ rfl row hrow fun i hi => howner.trans (Option.some.inj hi)
      show row.status.Moves .rejected
      rcases List.mem_pair.mp hstatus with h | h
      · rw [h]
        decide
      · rw [h]
        decide
    · simp only [hrow, howner, decide_false, Bool.false_eq_true, if_false]
      exact ⟨(), hsame.1, hsame.2, hrest _ _⟩
  | none =>
    simp only [hrow]
    exact ⟨(), hsame.1, hsame.2, hrest _ _⟩

/-! ## The transactions -/

/-- A disbursement moves its loan on, if it finds it approved, or with a schedule. -/
theorem Disbursement.loansMove {d : Disbursement} {s s' : Db} {loan : Loan}
    (hfirst : 1 ∈ d.schedule.map ScheduleRow.installmentNumber)
    (h : d.inTx.run s = (.ok loan, s'))
    (hfits : ∀ l ∈ s.find? .loan d.loanId, l.status ∈ [LoanStatus.approved, .disbursed] ∨
      s.FirstTaken d.loanId) : s.LoansMove s' := by
  have hstep := Disbursement.payoutStep hfirst h
  obtain ⟨-, -, -, -, rfl⟩ := d.run_inTx_eq_ok h
  have hsame : s.Agree [.loan] (d.payOut s) := .payOut (by decide) d s
  refine Db.LoansMove.trans_agree (Db.LoansMove.modify fun l hl => ?_) (hsame.modify_congr _ _)
  show l.status.Moves .disbursed
  rcases hfits l hl with hstatus | htaken
  · rcases List.mem_pair.mp hstatus with h | h
    · rw [h]
      decide
    · rw [h]
      decide
  · cases hstep with
    | paid _ hfree => exact absurd htaken hfree

theorem disburseLoan_keepsLife (js : Js) (auth : Auth) (now : DateTime) (loanId : Id)
    (vaultId : Option Id) : KeepsLife (disburseLoan js auth now loanId vaultId) := by
  intro s hs
  have hW := lifecycleProtocol_watches
  refine .orFail (fun vaultId _ => ?_) fun _ => trivial
  refine hW.query fun t ht => .orFail (fun loan hloan => ?_) fun _ => trivial
  have hterm : 0 < loan.termMonths :=
    (ht hs).terms loanId loan (Option.filter_eq_some_iff.mp hloan).1
  refine .require (fun _ => ?_) fun _ => trivial
  refine hW.query fun _ _ => .orFail (fun vault _ => ?_) fun _ => trivial
  refine .require (fun _ => ?_) fun _ => trivial
  refine hW.query fun _ _ => .require (fun _ => ?_) fun _ => trivial
  refine hW.query fun _ _ => ?_
  refine hW.quiet (.matchRules _ _ _ _ _) (fun _ matched _ => ?_) fun _ _ => trivial
  refine hW.quiet (.requireUnblocked _ _) (fun _ _ _ => ?_) fun _ _ => trivial
  refine hW.query fun _ _ => .orFail (fun accounts _ => ?_) fun _ => trivial
  refine hW.quiet (.requirePostablePeriod _ _) (fun _ _ _ => ?_) fun _ _ => trivial
  refine hW.findUniqueOrThrow (fun _ receivable _ _ => ?_) fun _ => trivial
  refine hW.findUniqueOrThrow (fun _ cash _ _ => ?_) fun _ => trivial
  refine .require (fun _ => ?_) fun _ => trivial
  have hfirst := one_mem_generateSchedule (toNumber loan.principal) loan.interestRate hterm
    loan.interestMethod now
  refine .transaction (fun t updated t' _ hrun => ?_) fun t e _ => ⟨(hW _ _ _ _ (.refl t)).2, trivial⟩
  have hmoves := Disbursement.loansMove
    (d := ⟨auth, now, loanId, vaultId, loan.principal, _, _⟩) hfirst hrun
  refine ⟨(), fun ht => ?_, fun hfits => hmoves fun l hl => hfits.1 _ rfl l hl, ?_⟩
  · exact Disbursement.loansSound (d := ⟨auth, now, loanId, vaultId, loan.principal, _, _⟩) hrun ht
  · apply follows_quiet_end
    refine (Quiet.create (by decide) _).bind fun _ => ?_
    exact (Quiet.executeMatchedRules (by decide) (by decide) _ _ _ _ _).bind fun _ => .pure _

/-- A repayment moves its loan on, if it finds it disbursed, or does not complete its
schedule. -/
theorem Db.loansMove_repayLoan {s : Db} {loanId recordedById : Id} {x : ℚ}
    (hfits : ∀ l ∈ s.find? .loan loanId, l.status ∈ [LoanStatus.disbursed, .active, .closed] ∨
      ¬ s.Completes loanId x) : s.LoansMove (s.repayLoan loanId x recordedById) := by
  have hsame : s.Agree [.loan] (s.repay loanId x recordedById) :=
    Agree.repay (by decide) (by decide) s loanId x recordedById
  refine (LoansMove.modify fun l hl => ?_).trans_agree (hsame.modify_congr _ _)
  show l.status.Moves ((s.repay loanId x recordedById).statusAfter loanId l.status)
  unfold statusAfter
  by_cases hpaid : (s.repay loanId x recordedById).allPaid loanId = true
  · rw [if_pos hpaid]
    rcases hfits l hl with hstatus | hopen
    · revert hstatus
      cases l.status <;> decide
    · exact absurd (completes_of_allPaid hpaid) hopen
  · rw [if_neg hpaid]
    by_cases hdisbursed : l.status = .disbursed
    · rw [if_pos hdisbursed, hdisbursed]
      decide
    · rw [if_neg hdisbursed]
      exact .inl rfl

/-- The statement with which a repayment commits. -/
theorem follows_repayInTx_life {α : Type} {k : Id × Bool → Handler α} {s : Db} {auth : Auth}
    {now : DateTime} {loanId : Id} {x : ℚ} {description : String} {lines : List JournalLineInput}
    {posting : Option Posting} (hk : ∀ t r, (k r).Follows lifecycleProtocol (fun _ _ _ => True) t ()) :
    (Proc.transaction { loanMove := some (loanId, .repay x), posting }
      (repayInTx auth now loanId x description lines) >>= k).Follows lifecycleProtocol
        (fun _ _ _ => True) s () := by
  refine .transaction (fun t r t' _ hrun => ?_) fun t e _ =>
    ⟨(lifecycleProtocol_watches _ _ _ _ (.refl t)).2, trivial⟩
  obtain ⟨loan, -, -, -, rfl⟩ := run_repayInTx_eq hrun
  have hposted : ∀ {watched : List Model}, Model.journal ∉ watched → Model.gLAccount ∉ watched →
      (t.repayLoan loanId x auth.userId).Agree watched (((t.repayLoan loanId x auth.userId).insert
        .journal (automaticJournal auth now description lines)).applyEffects lines) :=
    fun hj hg => (Db.Agree.insert hj _ _).trans (Db.Agree.applyEffects hg _ _)
  refine ⟨(), fun ht => ?_, fun hfits => ?_, hk _ r⟩
  · have hrepay : (t.repay loanId x auth.userId).LoansSound :=
      ht.of_agree (Db.Agree.repay (by decide) (by decide) t loanId x auth.userId)
    have hloan : (t.repayLoan loanId x auth.userId).LoansSound :=
      Db.LoansSound.modify_loan hrepay (by exact fun _ h => h) loanId
    exact hloan.of_agree (hposted (by decide) (by decide))
  · have hmoves : t.LoansMove (t.repayLoan loanId x auth.userId) :=
      Db.loansMove_repayLoan fun l hl => hfits.1 _ rfl l hl
    exact hmoves.trans_agree (hposted (by decide) (by decide))

theorem recordRepayment_keepsLife (auth : Auth) (now : DateTime) (loanId : Id) (amount : ℚ) :
    KeepsLife (recordRepayment auth now loanId amount) := by
  intro s _
  have hW := lifecycleProtocol_watches
  refine .require (fun _ => ?_) fun _ => trivial
  refine hW.query fun _ _ => .orFail (fun loan _ => ?_) fun _ => trivial
  refine hW.query fun _ _ => .orFail (fun accounts _ => ?_) fun _ => trivial
  refine hW.quiet (.requirePostablePeriod _ _) (fun _ _ _ => ?_) fun _ _ => trivial
  refine hW.findUniqueOrThrow (fun _ receivable _ _ => ?_) fun _ => trivial
  refine hW.findUniqueOrThrow (fun _ cash _ _ => ?_) fun _ => trivial
  refine .require (fun _ => ?_) fun _ => trivial
  refine follows_repayInTx_life fun _ r => follows_quiet_end ?_
  exact (Quiet.create (by decide) _).bind fun _ => .pure _

theorem collectLoanRepayment_keepsLife (auth : Auth) (now : DateTime) (body : RecordCollection) :
    KeepsLife (collectLoanRepayment auth now body) := by
  intro s _
  have hW := lifecycleProtocol_watches
  refine hW.query fun _ _ => .orFail (fun loan _ => ?_) fun _ => trivial
  refine hW.query fun _ _ => .orFail (fun accounts _ => ?_) fun _ => trivial
  refine hW.findUniqueOrThrow (fun _ custody _ _ => ?_) fun _ => trivial
  refine hW.findUniqueOrThrow (fun _ receivable _ _ => ?_) fun _ => trivial
  refine .require (fun _ => ?_) fun _ => trivial
  exact follows_repayInTx_life fun _ _ => trivial

theorem recordCollection_keepsLife (auth : Auth) (now : DateTime) (body : RecordCollection) :
    KeepsLife (recordCollection auth now body) := by
  intro s hs
  have hW := lifecycleProtocol_watches
  refine .require (fun _ => ?_) fun _ => trivial
  refine hW.query fun _ h₁ => .orFail (fun collector _ => ?_) fun _ => trivial
  refine .require (fun _ => ?_) fun _ => trivial
  refine hW.quiet ((Quiet.query _).bind fun _ => .pure _) (fun _ duplicate h₂ => ?_) fun _ _ => trivial
  refine .require (fun _ => ?_) fun _ => trivial
  refine hW.quiet (.requirePostablePeriod _ _) (fun t _ h₃ => ?_) fun _ _ => trivial
  have hlog : ∀ type u, ((do
      let collection ←
        createAs { collects := some (body.collectorId, now) } .collectionTransaction
        { institutionId := auth.institutionId, type, collectorId := body.collectorId,
          customerId := body.customerId, targetId := body.targetId, amount := ofNumber body.amount,
          collectedAt := now, recordedById := auth.userId }
      let _ ← create .auditLog
        { institutionId := auth.institutionId, userId := some auth.userId,
          action := "collection.transaction_recorded", resource := "collection_transaction",
          resourceId := some collection }
      return collection) : Handler Id).Follows lifecycleProtocol (fun _ _ _ => True) u () :=
    fun _ _ => follows_quiet_end ((Quiet.createAs (by decide) _ _).bind fun _ =>
      (Quiet.create (by decide) _).bind fun _ => .pure _)
  cases body.type with
  | savingsDeposit =>
    exact hW.quiet ((writes_collectSavingsDeposit (fun _ hm => hm) auth now body).quiet (by decide)) (fun u _ _ => hlog _ u)
      fun _ _ => trivial
  | loanRepayment =>
    exact (collectLoanRepayment_keepsLife auth now body t (h₃ (h₂ (h₁ hs)))).bind
      (fun u _ _ _ => hlog _ u) fun _ _ _ _ => trivial

/-! ## New loans and new requests -/

theorem initiateLoan_keepsLife (js : Js) (auth : Auth) (now : DateTime) (body : LoanApplication) :
    KeepsLife (initiateLoan js auth now body) := by
  intro s _
  have hW := lifecycleProtocol_watches
  refine .require (fun hbody => ?_) fun _ => trivial
  refine hW.query fun _ _ => .orFail (fun customer _ => ?_) fun _ => trivial
  refine .require (fun _ => ?_) fun _ => trivial
  refine hW.query fun _ _ => .orFail (fun found _ => ?_) fun _ => trivial
  refine .require (fun _ => ?_) fun _ => trivial
  refine .require (fun _ => ?_) fun _ => trivial
  have hbounds : Quiet [.loan, .loanRestructure] (checkProductBounds js found.1 body) :=
    (Quiet.require _ _).bind fun _ => (Quiet.require _ _).bind fun _ =>
      (Quiet.require _ _).bind fun _ => Quiet.require _ _
  refine hW.quiet hbounds (fun _ _ _ => ?_) fun _ _ => trivial
  intro t ht
  have hsound : t.LoansSound → (t.insert .loan
      { institutionId := auth.institutionId, initiatedById := some auth.userId,
        customerId := body.customerId, principal := ofNumber body.principal,
        termMonths := body.termMonths, interestRate := found.1.interestRate,
        interestMethod := found.1.interestMethod }).LoansSound :=
    fun hs => hs.insert_loan hbody.2
  refine ⟨(), hsound, fun _ => Db.LoansMove.insert rfl t, ?_⟩
  refine hW.quiet (.create (by decide) _) (fun _ _ _ => ?_) fun _ _ => trivial
  refine hW.quiet (.matchRules _ _ _ _ _) (fun u matched _ => ?_) fun _ _ => trivial
  have hrules : ∀ v, ((do
      let _ ← executeMatchedRules auth.institutionId auth.userId "Loan" (t.nextId .loan) matched
      return t.nextId .loan) : Handler Id).Follows lifecycleProtocol (fun _ _ _ => True) v () :=
    fun _ => follows_quiet_end ((Quiet.executeMatchedRules (by decide) (by decide) _ _ _ _ _).bind
      fun _ => .pure _)
  by_cases hreject : matched.any MatchedRule.hasReject = true
  · simp only [hreject, if_true]
    refine follows_updateAs_loan (fun _ => rfl) (fun v loan hfits hloan => ?_) fun v _ _ => hrules v
    have hstatus := hfits.1 _ rfl loan hloan nofun
    show loan.status.Moves .rejected
    rcases List.mem_pair.mp hstatus with h | h
    · rw [h]
      decide
    · rw [h]
      decide
  · simp only [hreject]
    exact hrules u

theorem quiet_findChangeable {watched : List Model} (auth : Auth) (loanId : Id) (what : String) :
    Quiet watched (findChangeable auth loanId what) :=
  (Quiet.query _).bind fun _ => (Quiet.orFail _ _).bind fun _ =>
    (Quiet.require _ _).bind fun _ => .pure _

theorem quiet_requestChange {watched : List Model} (hr : Model.approvalRequest ∉ watched)
    (ha : Model.auditLog ∉ watched) (auth : Auth) (loanId : Id) (type : ApprovalRequestType)
    (targetType : String) (targetId : Id) (reason action : String) :
    Quiet watched (requestChange auth loanId type targetType targetId reason action) :=
  (Quiet.create hr _).bind fun _ => (Quiet.create ha _).bind fun _ => .pure _

theorem requestRestructure_keepsLife (auth : Auth) (loanId : Id) (newPrincipal newRate : ℚ)
    (newTermMonths : ℕ) (reason : String) :
    KeepsLife (requestRestructure auth loanId newPrincipal newRate newTermMonths reason) := by
  intro s _
  have hW := lifecycleProtocol_watches
  refine .require (fun hbody => ?_) fun _ => trivial
  refine hW.quiet (quiet_findChangeable _ _ _) (fun _ loan _ => ?_) fun _ _ => trivial
  intro t _
  refine ⟨(), fun hs => hs.insert_loanRestructure hbody.2.2.1,
    fun _ => Db.LoansMove.of_agree (Db.Agree.insert (m := .loanRestructure) (by decide) _ _), ?_⟩
  exact follows_quiet_end (quiet_requestChange (by decide) (by decide) _ _ _ _ _ _ _)

theorem requestWriteOff_keepsLife (auth : Auth) (loanId : Id) (amount : ℚ) (reason : String) :
    KeepsLife (requestWriteOff auth loanId amount reason) := by
  intro s _
  have hW := lifecycleProtocol_watches
  refine .require (fun hbody => ?_) fun _ => trivial
  refine hW.quiet (quiet_findChangeable _ _ _) (fun _ loan _ => ?_) fun _ _ => trivial
  refine hW.quiet (.create (by decide) _) (fun _ _ _ => ?_) fun _ _ => trivial
  exact follows_quiet_end (quiet_requestChange (by decide) (by decide) _ _ _ _ _ _ _)

/-! ## Approvals -/

/-- The loans keep their status and their term, and the restructurings are the same. -/
structure Db.LoansKept (s s' : Db) : Prop where
  loans : ∀ id, (s'.find? .loan id).map (fun l => (l.status, l.termMonths)) =
    (s.find? .loan id).map fun l => (l.status, l.termMonths)
  restructures : s'.table .loanRestructure = s.table .loanRestructure

namespace Db.LoansKept

variable {s t s' : Db}

theorem of_agree (h : s.Agree [.loan, .loanRestructure] s') : s.LoansKept s' :=
  ⟨fun id => by rw [h.find? (by decide)], h _ (by decide)⟩

theorem trans (h : s.LoansKept t) (h' : t.LoansKept s') : s.LoansKept s' :=
  ⟨fun id => (h'.loans id).trans (h.loans id), h'.restructures.trans h.restructures⟩

theorem find? (h : s.LoansKept s') {id : Id} {loan' : Loan}
    (hl : s'.find? .loan id = some loan') : ∃ loan, s.find? .loan id = some loan ∧
      loan'.status = loan.status ∧ loan'.termMonths = loan.termMonths := by
  have hsame := h.loans id
  rw [hl, Option.map_some] at hsame
  obtain ⟨loan, hloan, heq⟩ := Option.map_eq_some_iff.mp hsame.symm
  obtain ⟨hstatus, hterm⟩ := Prod.mk.inj heq
  exact ⟨loan, hloan, hstatus.symm, hterm.symm⟩

theorem loansMove (h : s.LoansKept s') : s.LoansMove s' := by
  intro id loan' hl
  obtain ⟨loan, hloan, hstatus, -⟩ := h.find? hl
  exact .inl ⟨loan, hloan, .inl hstatus⟩

theorem loansSound (h : s.LoansKept s') (hs : s.LoansSound) : s'.LoansSound := by
  refine ⟨fun id loan' hl => ?_, fun id r hr => ?_⟩
  · obtain ⟨loan, hloan, -, hterm⟩ := h.find? hl
    rw [hterm]
    exact hs.terms id loan hloan
  · rw [Db.find?, h.restructures] at hr
    exact hs.restructures id r hr

end Db.LoansKept

/-- The tables that say where a loan stands. -/
def loanTables : List Model :=
  [.loan, .loanRestructure, .loanInstallment, .loanWriteOff, .approvalRequest]

/-- The loans of a customer are given to another one. -/
def Db.reassignLoans (s : Db) (primaryCustomerId mergedCustomerId : Id) : Db :=
  s.modifyAll .loan fun _ l =>
    if decide (l.customerId = mergedCustomerId) = true then { l with customerId := primaryCustomerId }
    else l

/-- What holds of a statement that touches none of the watched tables, and of one that
gives the loans of a customer to another one, holds of every statement of a merge. -/
theorem mergeCustomers_every {A : Db → Db → Prop} {watched : List Model}
    (hwatched : ∀ m ∈ watched, m ∈ loanTables)
    (hquiet : ∀ s s', s.Agree watched s' → A s s')
    (hloans : ∀ s p q, A s (Db.reassignLoans s p q)) (now : DateTime) (approvedById targetId : Id) :
    (mergeCustomers now approvedById targetId).Every A := by
  have hfree : ∀ m, m ∉ loanTables → m ∉ watched := fun m hm hw => hm (hwatched m hw)
  have hmerge : ∀ m ∈ approvalWrites .customerMerge, m ∉ mergedModels → m ∉ loanTables := by
    decide
  apply mergeCustomers_every_of_reassign fun m hm hne => hfree m (hmerge m hm hne)
  · exact hquiet
  · intro p q
    exact reassign_every (fun s => hquiet s s (.refl s)) fun s => hloans s p q
  · intro p q
    exact Proc.Every.imp (Quiet.reassign (hfree _ (by decide)) _ _ p q) hquiet
  · intro p q
    exact Proc.Every.imp (Quiet.reassign (hfree _ (by decide)) _ _ p q) hquiet

/-- A merge gives the loans of a customer to another one. -/
theorem mergeCustomers_loansKept (now : DateTime) (approvedById targetId : Id) :
    (mergeCustomers now approvedById targetId).Every Db.LoansKept := by
  have hwatched : ∀ m ∈ [Model.loan, .loanRestructure], m ∈ loanTables := by decide
  apply mergeCustomers_every hwatched
  · exact fun s s' h => Db.LoansKept.of_agree h
  intro s p q
  refine ⟨fun id => ?_, Db.table_modifyAll_of_ne (by decide) _ _⟩
  simp only [Db.find?, Db.reassignLoans, Db.table_modifyAll_self, OrderedMap.get?_updateAll,
    Option.map_map]
  congr 1
  funext l
  simp only [Function.comp_apply]
  split <;> rfl

/-- The terms of a restructuring. -/
def LoanRestructure.terms (r : LoanRestructure) (l : Loan) : Loan :=
  { l with principal := r.newPrincipal, interestRate := r.newRate, termMonths := r.newTermMonths }

/-- The open installments of a restructured loan are marked, and a new schedule is added. -/
def LoanRestructure.reschedule (r : LoanRestructure) (now : DateTime) (s : Db) : Db :=
  (s.modifyAll .loanInstallment fun _ i =>
    if i.isOpen r.loanId = true then { i with deletedAt := some now } else i).insertAll
      .loanInstallment ((generateSchedule (toNumber r.newPrincipal) r.newRate r.newTermMonths "FLAT"
        now).map (ScheduleRow.installment r.loanId))

/-- A restructuring that takes effect rewrites the schedule and the terms of its loan. -/
theorem run_restructureLoan_eq_ok {s s' : Db} {now : DateTime} {targetId : Id} {u : Unit}
    (h : (restructureLoan now targetId).run s = (.ok u, s')) :
    ∃ r, s.find? .loanRestructure targetId = some r ∧
      s' = ((r.reschedule now s).modify .loan r.loanId r.terms).modify .loanRestructure targetId
        fun r => { r with appliedAt := some now } := by
  obtain ⟨restructure, s₁, hread, h₁⟩ := Proc.run_bind_eq_ok h
  obtain ⟨hfound, rfl⟩ := run_findUniqueOrThrow_eq_ok hread
  obtain ⟨_, s₂, hmark, h₂⟩ := Proc.run_bind_eq_ok h₁
  have hs₂ := run_updateMany_eq_ok hmark
  obtain ⟨_, s₃, hcreate, h₃⟩ := Proc.run_bind_eq_ok h₂
  obtain ⟨-, hs₃⟩ := run_createInstallments_eq_ok hcreate
  obtain ⟨_, s₄, hloan, h₄⟩ := Proc.run_bind_eq_ok h₃
  obtain ⟨row, -, -, hs₄⟩ := run_update_eq_ok hloan
  obtain ⟨_, s₅, hdone, h₅⟩ := Proc.run_bind_eq_ok h₄
  obtain ⟨row', -, -, hs₅⟩ := run_update_eq_ok hdone
  refine ⟨restructure, hfound, ?_⟩
  rw [← (Prod.mk.inj h₅).2, hs₅, hs₄, hs₃, hs₂]
  rfl

/-- A write-off that takes effect marks its loan. -/
theorem run_writeOffLoan_eq_ok {s s' : Db} {now : DateTime} {targetId : Id} {u : Unit}
    (h : (writeOffLoan now targetId).run s = (.ok u, s')) :
    ∃ w, s.find? .loanWriteOff targetId = some w ∧
      s' = (s.modify .loan w.loanId fun l => { l with status := .writtenOff }).modify .loanWriteOff
        targetId fun w => { w with appliedAt := some now } := by
  obtain ⟨writeOff, s₁, hread, h₁⟩ := Proc.run_bind_eq_ok h
  obtain ⟨hfound, rfl⟩ := run_findUniqueOrThrow_eq_ok hread
  obtain ⟨_, s₂, hloan, h₂⟩ := Proc.run_bind_eq_ok h₁
  obtain ⟨row, -, -, hs₂⟩ := run_update_eq_ok hloan
  obtain ⟨_, s₃, hdone, h₃⟩ := Proc.run_bind_eq_ok h₂
  obtain ⟨row', -, -, hs₃⟩ := run_update_eq_ok hdone
  refine ⟨writeOff, hfound, ?_⟩
  rw [← (Prod.mk.inj h₃).2, hs₃, hs₂]

/-- A restructuring that takes effect keeps the status of its loan. -/
theorem run_restructureLoan_loans {s s' : Db} {now : DateTime} {targetId : Id} {u : Unit}
    (h : (restructureLoan now targetId).run s = (.ok u, s')) :
    s.LoansMove s' ∧ (s.LoansSound → s'.LoansSound) := by
  obtain ⟨r, hfound, rfl⟩ := run_restructureLoan_eq_ok h
  have hbefore : s.Agree [.loan, .loanRestructure] (r.reschedule now s) :=
    (Db.Agree.modifyAll (m := .loanInstallment) (by decide) _ _).trans
      (Db.Agree.insertAll (by decide) _ _)
  constructor
  · have hmoves : (r.reschedule now s).LoansMove ((r.reschedule now s).modify .loan r.loanId r.terms) :=
      Db.LoansMove.modify fun _ _ => .inl rfl
    have hdone : ((r.reschedule now s).modify .loan r.loanId r.terms).Agree [.loan] _ :=
      Db.Agree.modify (m := .loanRestructure) (by decide) _ targetId fun r =>
        { r with appliedAt := some now }
    intro id loan' hl
    have hback := hmoves.trans_agree hdone id loan' hl
    rwa [hbefore.find? (by decide)] at hback
  · intro hs
    have hterms : ((r.reschedule now s).modify .loan r.loanId r.terms).LoansSound :=
      (hs.of_agree hbefore).modify_loan (by exact fun _ _ => hs.restructures _ _ hfound) _
    refine ⟨fun id loan hl => ?_, fun id r' hr => ?_⟩
    · rw [Db.find?, Db.table_modify_of_ne (by decide)] at hl
      exact hterms.terms id loan hl
    · rw [Db.find?_modify] at hr
      split at hr
      · obtain ⟨old, hold, rfl⟩ := Option.map_eq_some_iff.mp hr
        exact hterms.restructures id old hold
      · exact hterms.restructures id r' hr

/-- The write-off of a loan that can be written off. -/
theorem run_writeOffLoan_loans {s s' : Db} {now : DateTime} {targetId : Id} {u : Unit}
    (h : (writeOffLoan now targetId).run s = (.ok u, s')) :
    ((∀ w ∈ s.find? .loanWriteOff targetId, ∀ loan ∈ s.find? .loan w.loanId,
      loan.status ∈ [LoanStatus.disbursed, .active, .writtenOff]) → s.LoansMove s') ∧
      (s.LoansSound → s'.LoansSound) := by
  obtain ⟨w, hfound, rfl⟩ := run_writeOffLoan_eq_ok h
  have hafter : ∀ t : Db, t.Agree [.loan, .loanRestructure] (t.modify .loanWriteOff targetId fun w =>
      { w with appliedAt := some now }) := fun t =>
    Db.Agree.modify (m := .loanWriteOff) (by decide) t _ _
  constructor
  · intro hfits
    refine Db.LoansMove.trans_agree ?_ ((hafter _).mono (by decide))
    refine Db.LoansMove.modify fun loan hl => ?_
    show loan.status.Moves .writtenOff
    have hstatus := hfits w hfound loan hl
    revert hstatus
    cases loan.status <;> decide
  · intro hs
    refine Db.LoansSound.of_agree ?_ (hafter _)
    exact hs.modify_loan (by exact fun _ h => h) _

/-- What the effect of a decision does to the loans. -/
theorem ResolveCall.run_effect_loans {call : ResolveCall} {request : ApprovalRequest} {s s' : Db}
    {u : Unit} (h : (call.effect request).run s = (.ok u, s')) :
    ((call.decision = .approve → request.type = .loanWriteOff →
      ∀ w ∈ s.find? .loanWriteOff request.targetId, ∀ loan ∈ s.find? .loan w.loanId,
        loan.status ∈ [LoanStatus.disbursed, .active, .writtenOff]) → s.LoansMove s') ∧
      (s.LoansSound → s'.LoansSound) := by
  have hkept : s.LoansKept s' →
      ((call.decision = .approve → request.type = .loanWriteOff →
        ∀ w ∈ s.find? .loanWriteOff request.targetId, ∀ loan ∈ s.find? .loan w.loanId,
          loan.status ∈ [LoanStatus.disbursed, .active, .writtenOff]) → s.LoansMove s') ∧
        (s.LoansSound → s'.LoansSound) := fun hkept => ⟨fun _ => hkept.loansMove, hkept.loansSound⟩
  unfold ResolveCall.effect at h
  cases hdecision : call.decision with
  | reject =>
    rw [hdecision] at h hkept
    have hquiet : Quiet [.loan, .loanRestructure] (applyRejection request) :=
      Quiet.rejection (by decide) request
    have hagree := hquiet.run s
    simp only [h] at hagree
    exact hkept (.of_agree hagree)
  | approve =>
    rw [hdecision] at h hkept
    by_cases hloan : ∀ m ∈ approvalWrites request.type, m ∉ [Model.loan, .loanRestructure]
    · have hagree := (Quiet.applyApproval hloan call.now call.auth.userId).run s
      simp only [h] at hagree
      exact hkept (.of_agree hagree)
    · cases htype : request.type <;> rw [htype] at hloan <;> try exact absurd (by decide) hloan
      case loanRestructure =>
        simp only [applyApproval, htype] at h
        obtain ⟨hmoves, hsound⟩ := run_restructureLoan_loans h
        exact ⟨fun _ => hmoves, hsound⟩
      case loanWriteOff =>
        simp only [applyApproval, htype] at h
        obtain ⟨hmoves, hsound⟩ := run_writeOffLoan_loans h
        exact ⟨fun hfits => hmoves (hfits rfl rfl), hsound⟩
      case customerMerge =>
        simp only [applyApproval, htype] at h
        have hmerge := (mergeCustomers_loansKept call.now call.auth.userId request.targetId).run
          (fun s => Db.LoansKept.of_agree (Db.Agree.refl s)) Db.LoansKept.trans s
        simp only [h] at hmerge
        exact ⟨fun _ => hmerge.loansMove, hmerge.loansSound⟩

theorem ResolveCall.handler_keepsLife (call : ResolveCall) : KeepsLife call.handler := by
  intro s _
  have hW := lifecycleProtocol_watches
  refine hW.query fun _ _ => .orFail (fun request _ => ?_) fun _ => trivial
  refine .require (fun _ => ?_) fun _ => trivial
  refine .require (fun _ => ?_) fun _ => trivial
  rw [← Proc.bind_pure (call.commit request)]
  refine .transaction (fun t u t' _ hrun => ?_) fun t e _ => ⟨(hW _ _ _ _ (.refl t)).2, trivial⟩
  have hinTx := Proc.run_interrupted_eq_ok hrun
  obtain ⟨_, t₁, hclaim, h₁⟩ := Proc.run_bind_eq_ok hinTx
  obtain ⟨row, hrow, hpending, ht₁⟩ := run_claim_eq_ok hclaim
  obtain ⟨_, t₂, heffect, h₂⟩ := Proc.run_bind_eq_ok h₁
  obtain ⟨hmoves, hsound⟩ := run_effect_loans heffect
  have hbefore : t.Agree [.loan, .loanRestructure, .loanWriteOff] t₁ := by
    rw [ht₁]
    exact Db.Agree.modify (m := .approvalRequest) (by decide) _ _ _
  have hafter : ∀ {watched : List Model}, Model.auditLog ∉ watched → t₂.Agree watched t' := by
    intro watched ha
    rw [← (Prod.mk.inj h₂).2]
    exact Db.Agree.insert ha _ _
  refine ⟨(), fun ht => ?_, fun hfits => ?_, trivial⟩
  · have ht' : t₁.LoansSound := ht.of_agree (hbefore.mono (by decide))
    exact (hsound ht').of_agree (hafter (by decide))
  · refine Db.LoansMove.trans_agree (t := t₂) (fun id loan' hl => ?_) (hafter (by decide))
    have hback := hmoves (fun hdecision htype w hw loan hloan => ?_) id loan' hl
    · rwa [hbefore.find? (by decide)] at hback
    · rw [hbefore.find? (by decide)] at hw hloan
      refine hfits.2 _ rfl (decide_eq_true hdecision) htype (fun row' hrow' => ?_) w hw loan hloan
      rw [Option.some.inj (hrow'.symm.trans hrow)]
      exact hpending

/-! ## Any number of operations -/

/-- The operations on loans. -/
inductive LoanOperation
  | initiate (js : Js) (auth : Auth) (now : DateTime) (body : LoanApplication)
  | approve (js : Js) (auth : Auth) (now : DateTime) (loanId : Id)
  | reject (auth : Auth) (loanId : Id)
  | disburse (js : Js) (auth : Auth) (now : DateTime) (loanId : Id) (vaultId : Option Id)
  | recordRepayment (auth : Auth) (now : DateTime) (loanId : Id) (amount : ℚ)
  | recordCollection (auth : Auth) (now : DateTime) (body : RecordCollection)
  | requestRestructure (auth : Auth) (loanId : Id) (newPrincipal newRate : ℚ) (newTermMonths : ℕ)
      (reason : String)
  | requestWriteOff (auth : Auth) (loanId : Id) (amount : ℚ) (reason : String)
  | resolve (call : ResolveCall)

namespace LoanOperation

/-- The code an operation runs. -/
def handler : LoanOperation → Handler Unit
  | initiate js auth now body => discard (initiateLoan js auth now body)
  | approve js auth now loanId => discard (approveLoan js auth now loanId)
  | reject auth loanId => rejectLoan auth loanId
  | disburse js auth now loanId vaultId => discard (disburseLoan js auth now loanId vaultId)
  | recordRepayment auth now loanId x => discard (NexusEfos.recordRepayment auth now loanId x)
  | recordCollection auth now body => discard (NexusEfos.recordCollection auth now body)
  | requestRestructure auth loanId principal rate term reason =>
    discard (NexusEfos.requestRestructure auth loanId principal rate term reason)
  | requestWriteOff auth loanId x reason =>
    discard (NexusEfos.requestWriteOff auth loanId x reason)
  | resolve call => call.handler

theorem keepsLife (op : LoanOperation) : KeepsLife op.handler := by
  cases op with
  | initiate js auth now body => exact (initiateLoan_keepsLife js auth now body).discard
  | approve js auth now loanId => exact (approveLoan_keepsLife js auth now loanId).discard
  | reject auth loanId => exact rejectLoan_keepsLife auth loanId
  | disburse js auth now loanId vaultId =>
    exact (disburseLoan_keepsLife js auth now loanId vaultId).discard
  | recordRepayment auth now loanId x => exact (recordRepayment_keepsLife auth now loanId x).discard
  | recordCollection auth now body => exact (recordCollection_keepsLife auth now body).discard
  | requestRestructure auth loanId principal rate term reason =>
    exact (requestRestructure_keepsLife auth loanId principal rate term reason).discard
  | requestWriteOff auth loanId x reason =>
    exact (requestWriteOff_keepsLife auth loanId x reason).discard
  | resolve call => exact call.handler_keepsLife

end LoanOperation

section Operations

variable {ι : Type} [DecidableEq ι]

/-- Operations that share the database. -/
def loanOperationPool (ops : ι → LoanOperation) (s : Db) : Pool ι Access Db Failure Unit :=
  ⟨fun i => (ops i).handler, s⟩

/-- In every schedule whose steps find their loans in a state they are made for, each step
leaves the status of every loan, or moves it on in its life. -/
theorem lifecycle_one_way (ops : ι → LoanOperation) {s : Db} (hs : s.LoansSound) {sched : List ι}
    {i : ι} (hfits : (loanOperationPool ops s).Allowed Access.FitsLoans (sched ++ [i])) :
    ((loanOperationPool ops s).run sched).state.LoansMove
      ((loanOperationPool ops s).run (sched ++ [i])).state := by
  have hfollows : (loanOperationPool ops s).Follows lifecycleProtocol (fun _ _ => True) fun _ => () :=
    fun i => (ops i).keepsLife s hs
  rcases hfollows.last_step hfits with hsame | ⟨lab, _, _, hlab, hguar, -⟩
  · rw [hsame]
    exact Db.LoansMove.of_agree (Db.Agree.refl _)
  · exact hguar hlab

end Operations

/-! ## A loan that goes back -/

/-- A loan that waits for its approval. -/
def pendingLoan : Loan := { approvedLoan with status := .pending }

theorem loansSound_pendingLoan : (lendingLedger.insert .loan pendingLoan).LoansSound := by
  refine ⟨fun id loan hl => ?_, fun id r hr => ?_⟩
  · rw [Db.find?_insert] at hl
    split at hl
    · rw [← Option.some.inj hl]
      decide
    · exact absurd hl nofun
  · rw [Db.find?_insert_of_ne (by decide)] at hr
    exact absurd hr nofun

/-- The loan is approved, disbursed and repaid. -/
def repayInTime : Fin 3 → LoanOperation
  | 0 => .approve plainJs ⟨1, 2⟩ 1 1
  | 1 => .disburse plainJs ⟨1, 2⟩ 2 1 (some 1)
  | 2 => .recordRepayment ⟨1, 2⟩ 3 1 100

theorem lifecycle_one_way_repayInTime :
    ((loanOperationPool repayInTime (lendingLedger.insert .loan pendingLoan)).run
        (List.replicate 6 0 ++ List.replicate 14 1 ++ List.replicate 5 2)).state.LoansMove
      ((loanOperationPool repayInTime (lendingLedger.insert .loan pendingLoan)).run
        (List.replicate 6 0 ++ List.replicate 14 1 ++ List.replicate 5 2 ++ [2])).state :=
  lifecycle_one_way repayInTime loansSound_pendingLoan (by decide +kernel)

/-- The loan is approved, disbursed and rejected. -/
def rejectTooLate : Fin 3 → LoanOperation
  | 0 => .approve plainJs ⟨1, 2⟩ 1 1
  | 1 => .disburse plainJs ⟨1, 2⟩ 2 1 (some 1)
  | 2 => .reject ⟨1, 3⟩ 1

/-- A loan that has been paid out is rejected. -/
theorem lifecycle_goes_back :
    (lendingLedger.insert .loan pendingLoan).LoansSound ∧
    (((loanOperationPool rejectTooLate (lendingLedger.insert .loan pendingLoan)).run
      (List.replicate 6 0 ++ List.replicate 14 1)).state.find? .loan 1).map Loan.status =
        some .disbursed ∧
    (((loanOperationPool rejectTooLate (lendingLedger.insert .loan pendingLoan)).run
      (List.replicate 6 0 ++ List.replicate 14 1 ++ [2])).state.find? .loan 1).map Loan.status =
        some .rejected ∧
    ¬ LoanStatus.Moves .disbursed .rejected :=
  ⟨loansSound_pendingLoan, by decide +kernel, by decide +kernel, by decide⟩

end NexusEfos
