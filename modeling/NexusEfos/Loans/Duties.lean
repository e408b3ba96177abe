/-
Segregation of duties on loans.

Only an approval looks at the user who initiated the loan, and six other statements
write its status.  What an approval has checked stays true: nobody changes who initiated
a loan, and an approver is replaced only by another one that is checked.  A schedule, a
restructuring and a write-off belong to a loan that was approved, so a repayment closes
no other loan.
-/
import NexusEfos.Loans.LifecycleRuns

namespace NexusEfos

/-! ## Who has approved a loan -/

/-- The statuses of a loan that has been approved. -/
def LoanStatus.granted : List LoanStatus := [.approved, .disbursed, .active, .closed]

/-- A user other than the one who initiated the loan has approved it. -/
def Loan.ApprovedByOther (l : Loan) : Prop :=
  ∀ u, l.initiatedById = some u → ∃ v, l.approvedById = some v ∧ v ≠ u

/-- The loan exists and has been approved by another user. -/
def Db.LoanApproved (s : Db) (loanId : Id) : Prop :=
  ∃ loan, s.find? .loan loanId = some loan ∧ loan.ApprovedByOther

/-- Every loan that counts as approved has been, and so has every loan with a schedule, a
restructuring or a write-off. -/
structure Db.DutiesSegregated (s : Db) : Prop where
  granted : ∀ id loan, s.find? .loan id = some loan → loan.status ∈ LoanStatus.granted →
    loan.ApprovedByOther
  installments : ∀ i ∈ (s.table .loanInstallment).values, s.LoanApproved i.loanId
  restructures : ∀ r ∈ (s.table .loanRestructure).values, s.LoanApproved r.loanId
  writeOffs : ∀ w ∈ (s.table .loanWriteOff).values, s.LoanApproved w.loanId

theorem Db.exists_installment_of_allPaid {s : Db} {loanId : Id} (h : s.allPaid loanId = true) :
    ∃ i ∈ (s.table .loanInstallment).values, i.loanId = loanId := by
  rw [allPaid, Bool.and_eq_true, Bool.not_eq_true', List.isEmpty_eq_false_iff] at h
  obtain ⟨e, he⟩ := List.exists_mem_of_ne_nil _ h.1
  obtain ⟨hmem, hloan⟩ := List.mem_filter.mp he
  exact ⟨e.2, List.mem_map_of_mem hmem, of_decide_eq_true hloan⟩

/-- What every statement does: each loan keeps the user who initiated it, and an approval
by another user. -/
structure Db.DutiesKept (s s' : Db) : Prop where
  loans : ∀ id loan, s.find? .loan id = some loan → ∃ loan', s'.find? .loan id = some loan' ∧
    loan'.initiatedById = loan.initiatedById ∧ (loan.ApprovedByOther → loan'.ApprovedByOther)
  segregated : s.DutiesSegregated → s'.DutiesSegregated

/-- The rows of a table after one of them has been rewritten. -/
theorem Db.mem_values_modify {m : Model} {s : Db} {id : Id} {f : Row m → Row m} {row : Row m}
    (key : Row m → Id) (hf : ∀ r, key (f r) = key r)
    (hrow : row ∈ ((s.modify m id f).table m).values) :
    ∃ old ∈ (s.table m).values, key old = key row := by
  obtain ⟨k, hk⟩ := OrderedMap.mem_values.mp hrow
  have hfind : (s.modify m id f).find? m k = some row := hk
  rw [find?_modify] at hfind
  split at hfind
  · obtain ⟨old, hold, rfl⟩ := Option.map_eq_some_iff.mp hfind
    exact ⟨old, OrderedMap.mem_values.mpr ⟨k, hold⟩, (hf old).symm⟩
  · exact ⟨row, OrderedMap.mem_values.mpr ⟨k, hfind⟩, rfl⟩

/-- The tables that the duties are read from. -/
def dutyTables : List Model := [.loan, .loanRestructure, .loanInstallment, .loanWriteOff]

namespace Db.DutiesKept

variable {s t s' : Db}

theorem refl (s : Db) : s.DutiesKept s := ⟨fun _ loan hl => ⟨loan, hl, rfl, id⟩, id⟩

theorem trans (h : s.DutiesKept t) (h' : t.DutiesKept s') : s.DutiesKept s' := by
  refine ⟨fun id loan hl => ?_, fun hs => h'.segregated (h.segregated hs)⟩
  obtain ⟨loan₁, hl₁, hinitiated₁, happroved₁⟩ := h.loans id loan hl
  obtain ⟨loan₂, hl₂, hinitiated₂, happroved₂⟩ := h'.loans id loan₁ hl₁
  exact ⟨loan₂, hl₂, hinitiated₂.trans hinitiated₁, fun ha => happroved₂ (happroved₁ ha)⟩

theorem loanApproved (h : s.DutiesKept s') {loanId : Id} (hl : s.LoanApproved loanId) :
    s'.LoanApproved loanId := by
  obtain ⟨loan, hfound, happroved⟩ := hl
  obtain ⟨loan', hfound', -, hkeeps⟩ := h.loans loanId loan hfound
  exact ⟨loan', hfound', hkeeps happroved⟩

/-- The loans are the same. -/
theorem of_agree_loan (h : s.Agree [.loan] s')
    (hi : s.DutiesSegregated → ∀ i ∈ (s'.table .loanInstallment).values, s.LoanApproved i.loanId)
    (hr : s.DutiesSegregated → ∀ r ∈ (s'.table .loanRestructure).values, s.LoanApproved r.loanId)
    (hw : s.DutiesSegregated → ∀ w ∈ (s'.table .loanWriteOff).values, s.LoanApproved w.loanId) :
    s.DutiesKept s' := by
  have hsame : ∀ id, s'.find? .loan id = s.find? .loan id := fun id => h.find? (by decide) id
  have happroved : ∀ {id}, s.LoanApproved id → s'.LoanApproved id := by
    intro id hl
    obtain ⟨loan, hfound, hother⟩ := hl
    exact ⟨loan, by rw [hsame, hfound], hother⟩
  refine ⟨fun id loan hl => ⟨loan, by rw [hsame, hl], rfl, fun ha => ha⟩,
    fun hs => ⟨?_, ?_, ?_, ?_⟩⟩
  · intro id loan hl
    rw [hsame] at hl
    exact hs.granted id loan hl
  · exact fun i hmem => happroved (hi hs i hmem)
  · exact fun r hmem => happroved (hr hs r hmem)
  · exact fun w hmem => happroved (hw hs w hmem)

theorem of_agree (h : s.Agree dutyTables s') : s.DutiesKept s' := by
  apply of_agree_loan (h.mono (by decide))
  · intro hs i hi
    rw [h _ (by decide)] at hi
    exact hs.installments i hi
  · intro hs r hr
    rw [h _ (by decide)] at hr
    exact hs.restructures r hr
  · intro hs w hw
    rw [h _ (by decide)] at hw
    exact hs.writeOffs w hw

/-- Loans are rewritten. -/
theorem modifyAll_loan {f : Id → Loan → Loan}
    (hinitiated : ∀ k l, (f k l).initiatedById = l.initiatedById)
    (happroved : ∀ k l, s.find? .loan k = some l → l.ApprovedByOther → (f k l).ApprovedByOther)
    (hgranted : s.DutiesSegregated → ∀ k l, s.find? .loan k = some l →
      (f k l).status ∈ LoanStatus.granted → (f k l).ApprovedByOther) :
    s.DutiesKept (s.modifyAll .loan f) := by
  have hfind : ∀ id, (s.modifyAll .loan f).find? .loan id = (s.find? .loan id).map (f id) := by
    intro id
    rw [find?, table_modifyAll_self, OrderedMap.get?_updateAll]
    rfl
  have hloans : ∀ id loan, s.find? .loan id = some loan →
      ∃ loan', (s.modifyAll .loan f).find? .loan id = some loan' ∧
        loan'.initiatedById = loan.initiatedById ∧
        (loan.ApprovedByOther → loan'.ApprovedByOther) := by
    intro id loan hl
    rw [hfind, hl]
    exact ⟨f id loan, rfl, hinitiated id loan, happroved id loan hl⟩
  have hkeeps : ∀ {loanId}, s.LoanApproved loanId → (s.modifyAll .loan f).LoanApproved loanId := by
    intro loanId hl
    obtain ⟨loan, hfound, hother⟩ := hl
    obtain ⟨loan', hfound', -, hkeep⟩ := hloans loanId loan hfound
    exact ⟨loan', hfound', hkeep hother⟩
  refine ⟨hloans, fun hs => ⟨fun id loan hl => ?_, fun i hi => ?_, fun r hr => ?_, fun w hw => ?_⟩⟩
  · rw [hfind] at hl
    obtain ⟨l, hl', rfl⟩ := Option.map_eq_some_iff.mp hl
    exact hgranted hs id l hl'
  · rw [table_modifyAll_of_ne (by decide)] at hi
    exact hkeeps (hs.installments i hi)
  · rw [table_modifyAll_of_ne (by decide)] at hr
    exact hkeeps (hs.restructures r hr)
  · rw [table_modifyAll_of_ne (by decide)] at hw
    exact hkeeps (hs.writeOffs w hw)

/-- Loans are rewritten and keep their status, or get none of an approved loan. -/
theorem modifyAll_loan_same {f : Id → Loan → Loan}
    (hsame : ∀ k l, (f k l).initiatedById = l.initiatedById ∧ (f k l).approvedById = l.approvedById)
    (hstatus : ∀ k l, (f k l).status = l.status ∨ (f k l).status ∉ LoanStatus.granted) :
    s.DutiesKept (s.modifyAll .loan f) := by
  have hother : ∀ k (l : Loan), l.ApprovedByOther → (f k l).ApprovedByOther := by
    intro k l hl u hu
    rw [(hsame k l).1] at hu
    rw [(hsame k l).2]
    exact hl u hu
  apply modifyAll_loan fun k l => (hsame k l).1
  · exact fun k l _ => hother k l
  · intro hs k l hl hgranted
    rcases hstatus k l with heq | hnot
    · rw [heq] at hgranted
      exact hother k l (hs.granted k l hl hgranted)
    · exact absurd hgranted hnot

/-- One loan is rewritten. -/
theorem modify_loan {f : Loan → Loan} {id : Id}
    (hinitiated : ∀ l, (f l).initiatedById = l.initiatedById)
    (happroved : ∀ l, s.find? .loan id = some l → l.ApprovedByOther → (f l).ApprovedByOther)
    (hgranted : s.DutiesSegregated → ∀ l, s.find? .loan id = some l →
      (f l).status ∈ LoanStatus.granted → (f l).ApprovedByOther) :
    s.DutiesKept (s.modify .loan id f) := by
  apply modifyAll_loan
  · intro k l
    split
    · exact hinitiated l
    · rfl
  · intro k l hl ha
    split
    · next hk => exact happroved l (hk ▸ hl) ha
    · exact ha
  · intro hs k l hl
    split
    · next hk => exact hgranted hs l (hk ▸ hl)
    · exact hs.granted k l hl

theorem modify_loan_same {f : Loan → Loan} {id : Id}
    (hsame : ∀ l, (f l).initiatedById = l.initiatedById ∧ (f l).approvedById = l.approvedById)
    (hstatus : ∀ l, (f l).status = l.status ∨ (f l).status ∉ LoanStatus.granted) :
    s.DutiesKept (s.modify .loan id f) := by
  apply modifyAll_loan_same
  · intro k l
    split
    · exact hsame l
    · exact ⟨rfl, rfl⟩
  · intro k l
    split
    · exact hstatus l
    · exact .inl rfl

/-- A new loan waits for its approval. -/
theorem insert_loan {row : Loan} (hrow : row.status = .pending) (s : Db) :
    s.DutiesKept (s.insert .loan row) := by
  have hold : ∀ id loan, s.find? .loan id = some loan →
      (s.insert .loan row).find? .loan id = some loan := by
    intro id loan hl
    rw [find?_insert]
    by_cases hid : id = s.nextId .loan
    · rw [hid] at hl
      exact absurd ((OrderedMap.get?_nextKey _).symm.trans hl) nofun
    · rw [if_neg hid, hl]
  have hkeeps : ∀ {loanId}, s.LoanApproved loanId → (s.insert .loan row).LoanApproved loanId := by
    intro loanId hl
    obtain ⟨loan, hfound, hother⟩ := hl
    exact ⟨loan, hold loanId loan hfound, hother⟩
  refine ⟨fun id loan hl => ⟨loan, hold id loan hl, rfl, fun ha => ha⟩,
    fun hs => ⟨?_, ?_, ?_, ?_⟩⟩
  · intro id loan hl hgranted
    rw [find?_insert] at hl
    by_cases hid : id = s.nextId .loan
    · rw [if_pos hid] at hl
      rw [← Option.some.inj hl, hrow] at hgranted
      exact absurd hgranted (by decide)
    · rw [if_neg hid] at hl
      exact hs.granted id loan hl hgranted
  · intro i hi
    rw [table_insert_of_ne (by decide)] at hi
    exact hkeeps (hs.installments i hi)
  · intro r hr
    rw [table_insert_of_ne (by decide)] at hr
    exact hkeeps (hs.restructures r hr)
  · intro w hw
    rw [table_insert_of_ne (by decide)] at hw
    exact hkeeps (hs.writeOffs w hw)

/-- Installments are rewritten and stay with their loans. -/
theorem modifyAll_loanInstallment {f : Id → LoanInstallment → LoanInstallment}
    (hf : ∀ k i, (f k i).loanId = i.loanId) (s : Db) :
    s.DutiesKept (s.modifyAll .loanInstallment f) := by
  apply of_agree_loan (Agree.modifyAll (m := .loanInstallment) (by decide) s f)
  · intro hs i hi
    rw [table_modifyAll_self, OrderedMap.mem_values] at hi
    obtain ⟨k, hk⟩ := hi
    rw [OrderedMap.get?_updateAll] at hk
    obtain ⟨j, hj, rfl⟩ := Option.map_eq_some_iff.mp hk
    rw [hf]
    exact hs.installments j (OrderedMap.mem_values.mpr ⟨k, hj⟩)
  · intro hs r hr
    rw [table_modifyAll_of_ne (by decide)] at hr
    exact hs.restructures r hr
  · intro hs w hw
    rw [table_modifyAll_of_ne (by decide)] at hw
    exact hs.writeOffs w hw

theorem modify_loanInstallment {f : LoanInstallment → LoanInstallment}
    (hf : ∀ i, (f i).loanId = i.loanId) (s : Db) (id : Id) :
    s.DutiesKept (s.modify .loanInstallment id f) := by
  apply modifyAll_loanInstallment
  intro k i
  split
  · exact hf i
  · rfl

/-- A schedule is added to a loan that has been approved. -/
theorem insertAll_schedule {loanId : Id} {schedule : List ScheduleRow}
    (hloan : s.DutiesSegregated → s.LoanApproved loanId) :
    s.DutiesKept (s.insertAll .loanInstallment (schedule.map (ScheduleRow.installment loanId))) := by
  apply of_agree_loan (Agree.insertAll (m := .loanInstallment) (by decide) s _)
  · intro hs i hi
    rw [values_insertAll] at hi
    rcases List.mem_append.mp hi with hold | hnew
    · exact hs.installments i hold
    · obtain ⟨row, -, rfl⟩ := List.mem_map.mp hnew
      exact hloan hs
  · intro hs r hr
    rw [table_insertAll (by decide)] at hr
    exact hs.restructures r hr
  · intro hs w hw
    rw [table_insertAll (by decide)] at hw
    exact hs.writeOffs w hw

/-- A change is requested of a loan that has been approved. -/
theorem insert_loanRestructure {row : LoanRestructure}
    (hloan : s.DutiesSegregated → s.LoanApproved row.loanId) :
    s.DutiesKept (s.insert .loanRestructure row) := by
  apply of_agree_loan (Agree.insert (m := .loanRestructure) (by decide) s row)
  · intro hs i hi
    rw [table_insert_of_ne (by decide)] at hi
    exact hs.installments i hi
  · intro hs r hr
    rw [table_insert_self, OrderedMap.values_create] at hr
    rcases List.mem_append.mp hr with hold | hnew
    · exact hs.restructures r hold
    · rw [List.mem_singleton.mp hnew]
      exact hloan hs
  · intro hs w hw
    rw [table_insert_of_ne (by decide)] at hw
    exact hs.writeOffs w hw

/-- A write-off is requested of a loan that has been approved. -/
theorem insert_loanWriteOff {row : LoanWriteOff}
    (hloan : s.DutiesSegregated → s.LoanApproved row.loanId) :
    s.DutiesKept (s.insert .loanWriteOff row) := by
  apply of_agree_loan (Agree.insert (m := .loanWriteOff) (by decide) s row)
  · intro hs i hi
    rw [table_insert_of_ne (by decide)] at hi
    exact hs.installments i hi
  · intro hs r hr
    rw [table_insert_of_ne (by decide)] at hr
    exact hs.restructures r hr
  · intro hs w hw
    rw [table_insert_self, OrderedMap.values_create] at hw
    rcases List.mem_append.mp hw with hold | hnew
    · exact hs.writeOffs w hold
    · rw [List.mem_singleton.mp hnew]
      exact hloan hs

theorem modify_loanRestructure {f : LoanRestructure → LoanRestructure}
    (hf : ∀ r, (f r).loanId = r.loanId) (s : Db) (id : Id) :
    s.DutiesKept (s.modify .loanRestructure id f) := by
  apply of_agree_loan (Agree.modify (m := .loanRestructure) (by decide) s id f)
  · intro hs i hi
    rw [table_modify_of_ne (by decide)] at hi
    exact hs.installments i hi
  · intro hs r hr
    obtain ⟨r', hr', hsame⟩ := mem_values_modify LoanRestructure.loanId hf hr
    rw [← hsame]
    exact hs.restructures r' hr'
  · intro hs w hw
    rw [table_modify_of_ne (by decide)] at hw
    exact hs.writeOffs w hw

theorem modify_loanWriteOff {f : LoanWriteOff → LoanWriteOff}
    (hf : ∀ w, (f w).loanId = w.loanId) (s : Db) (id : Id) :
    s.DutiesKept (s.modify .loanWriteOff id f) := by
  apply of_agree_loan (Agree.modify (m := .loanWriteOff) (by decide) s id f)
  · intro hs i hi
    rw [table_modify_of_ne (by decide)] at hi
    exact hs.installments i hi
  · intro hs r hr
    rw [table_modify_of_ne (by decide)] at hr
    exact hs.restructures r hr
  · intro hs w hw
    obtain ⟨w', hw', hsame⟩ := mem_values_modify LoanWriteOff.loanId hf hw
    rw [← hsame]
    exact hs.writeOffs w' hw'

/-- A repayment writes the installments of its loan. -/
theorem repay (s : Db) (loanId recordedById : Id) (x : ℚ) :
    s.DutiesKept (s.repay loanId x recordedById) := by
  have hallocation : ∀ (us : List AllocationUpdate) (t : Db),
      t.DutiesKept (us.foldl (fun s u => s.modify .loanInstallment u.id u.apply) t) := by
    intro us
    induction us with
    | nil => exact refl
    | cons u us ih =>
      intro t
      exact (modify_loanInstallment (by exact fun _ => rfl) t u.id).trans (ih _)
  exact (of_agree (Agree.insert (m := .loanRepayment) (by decide) s _)).trans (hallocation _ _)

/-- A repayment closes a loan with a schedule, and activates one that was disbursed. -/
theorem repayLoan (s : Db) (loanId recordedById : Id) (x : ℚ) :
    s.DutiesKept (s.repayLoan loanId x recordedById) := by
  refine (repay s loanId recordedById x).trans (modify_loan ?_ ?_ ?_)
  · exact fun _ => rfl
  · exact fun _ _ ha => ha
  intro ht l hl hgranted
  show l.ApprovedByOther
  by_cases hpaid : (s.repay loanId x recordedById).allPaid loanId = true
  · obtain ⟨i, hi, rfl⟩ := exists_installment_of_allPaid hpaid
    obtain ⟨l', hl', hother⟩ := ht.installments i hi
    rwa [Option.some.inj (hl.symm.trans hl')]
  · by_cases hdisbursed : l.status = .disbursed
    · exact ht.granted loanId l hl (by rw [hdisbursed]; decide)
    · apply ht.granted loanId l hl
      have hsame : (s.repay loanId x recordedById).statusAfter loanId l.status = l.status := by
        rw [statusAfter, if_neg hpaid, if_neg hdisbursed]
      rwa [← hsame]

end Db.DutiesKept

/-! ## Decisions about requests -/

theorem restructureLoan_dutiesKept {s s' : Db} {now : DateTime} {targetId : Id} {u : Unit}
    (h : (restructureLoan now targetId).run s = (.ok u, s')) : s.DutiesKept s' := by
  obtain ⟨r, hfound, rfl⟩ := run_restructureLoan_eq_ok h
  have hscheduled : s.DutiesKept (r.reschedule now s) := by
    refine Db.DutiesKept.trans (.modifyAll_loanInstallment ?_ s) (.insertAll_schedule ?_)
    · intro k i
      split <;> rfl
    · intro hs
      apply hs.restructures r
      rw [Db.table_modifyAll_of_ne (by decide)]
      exact OrderedMap.mem_values.mpr ⟨targetId, hfound⟩
  have hterms : (r.reschedule now s).DutiesKept ((r.reschedule now s).modify .loan r.loanId r.terms) := by
    apply Db.DutiesKept.modify_loan_same
    · exact fun _ => ⟨rfl, rfl⟩
    · exact fun _ => .inl rfl
  exact (hscheduled.trans hterms).trans (.modify_loanRestructure (by exact fun _ => rfl) _ targetId)

theorem Quiet.dutiesKept {α : Type} {p : Handler α} (hp : Quiet dutyTables p) :
    p.Every Db.DutiesKept := Proc.Every.imp hp fun _ _ => Db.DutiesKept.of_agree

theorem rescheduleLoan_dutiesKept (now : DateTime) (targetId : Id) :
    (rescheduleLoan now targetId).Every Db.DutiesKept := by
  refine (Quiet.findUniqueOrThrow _ _).dutiesKept.bind fun reschedule => ?_
  refine (Quiet.query _).dutiesKept.bind fun installments => ?_
  refine Proc.Every.bind (Proc.Every.forEach fun inst _ => ?_) fun _ =>
    (Quiet.update_end (by decide) _ _).dutiesKept
  refine Proc.Every.bind ⟨fun s => ?_, fun _ => trivial⟩ fun _ => trivial
  cases hrow : s.find? .loanInstallment inst.1 with
  | some row =>
    simp only [hrow]
    exact .modify_loanInstallment (by exact fun _ => rfl) s inst.1
  | none =>
    simp only [hrow]
    exact .refl s

theorem writeOffLoan_dutiesKept {s s' : Db} {now : DateTime} {targetId : Id} {u : Unit}
    (h : (writeOffLoan now targetId).run s = (.ok u, s')) : s.DutiesKept s' := by
  obtain ⟨w, -, rfl⟩ := run_writeOffLoan_eq_ok h
  have hnot : LoanStatus.writtenOff ∉ LoanStatus.granted := by decide
  refine Db.DutiesKept.trans (.modify_loan_same ?_ ?_) (.modify_loanWriteOff ?_ _ targetId)
  · exact fun _ => ⟨rfl, rfl⟩
  · exact fun _ => .inr hnot
  · exact fun _ => rfl

theorem mergeCustomers_dutiesKept (now : DateTime) (approvedById targetId : Id) :
    (mergeCustomers now approvedById targetId).Every Db.DutiesKept := by
  have hwatched : ∀ m ∈ dutyTables, m ∈ loanTables := by decide
  apply mergeCustomers_every hwatched fun _ _ h => .of_agree h
  intro s p q
  apply Db.DutiesKept.modifyAll_loan_same
  · intro k l
    split <;> exact ⟨rfl, rfl⟩
  · intro k l
    split <;> exact .inl rfl

/-- The types of request whose decision reaches a loan or its schedule. -/
theorem approvalWrites_of_loan {type : ApprovalRequestType}
    (h : ¬ ∀ m ∈ approvalWrites type, m ∉ loanTables) :
    type ∈ [ApprovalRequestType.loanRestructure, .loanReschedule, .loanWriteOff, .customerMerge] := by
  revert h
  cases type <;> decide

/-- What the effect of a decision does. -/
theorem ResolveCall.effect_dutiesKept {call : ResolveCall} {request : ApprovalRequest} {s s' : Db}
    {u : Unit} (h : (call.effect request).run s = (.ok u, s')) : s.DutiesKept s' := by
  have hsub : ∀ m ∈ dutyTables, m ∈ loanTables := by decide
  have hquiet : Quiet loanTables (call.effect request) → s.DutiesKept s' := by
    intro hp
    have hagree := hp.run s
    rw [h] at hagree
    exact .of_agree (hagree.mono hsub)
  by_cases hwrites : ∀ m ∈ approvalWrites request.type, m ∉ loanTables
  · exact hquiet (call.quiet_effect hwrites)
  cases hdecision : call.decision with
  | reject =>
    apply hquiet
    unfold effect
    rw [hdecision]
    exact Quiet.rejection (by decide) request
  | approve =>
    unfold effect applyApproval at h
    rw [hdecision] at h
    have htype := approvalWrites_of_loan hwrites
    simp only [List.mem_cons, List.not_mem_nil, or_false] at htype
    rcases htype with heq | heq | heq | heq
    · simp only [heq] at h
      exact restructureLoan_dutiesKept h
    · simp only [heq] at h
      have hkept := (rescheduleLoan_dutiesKept call.now request.targetId).run Db.DutiesKept.refl
        Db.DutiesKept.trans s
      rwa [h] at hkept
    · simp only [heq] at h
      exact writeOffLoan_dutiesKept h
    · simp only [heq] at h
      have hkept := (mergeCustomers_dutiesKept call.now call.auth.userId request.targetId).run
        Db.DutiesKept.refl Db.DutiesKept.trans s
      rwa [h] at hkept

end NexusEfos
