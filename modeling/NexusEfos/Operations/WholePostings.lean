/-
All or nothing of a posting.

Any number of the posting paths run at the same time, and each may stop between two of its
statements.  As long as nobody creates a posted journal outside a transaction with a line
that has an effect, every posted journal is applied in full at every moment
(`postings_whole`).  The run of the recurring journals does not keep to this: one that stops
after the journal has been created leaves it posted and applied in no part
(`recurring_stops_halfway`).
-/
import NexusEfos.Operations.PostingPaths
import NexusEfos.Savings.Operations

namespace NexusEfos

/-- The paths that post a journal without an approval. -/
inductive PostingOperation
  | deposit (auth : Auth) (now : DateTime) (accountId : Id) (amount : ℚ)
  | withdraw (auth : Auth) (now : DateTime) (accountId : Id) (amount : ℚ)
  | recordCollection (auth : Auth) (now : DateTime) (body : RecordCollection)
  | disburseLoan (js : Js) (auth : Auth) (now : DateTime) (loanId : Id) (vaultId : Option Id)
  | recordRepayment (auth : Auth) (now : DateTime) (loanId : Id) (amount : ℚ)
  | recordCashEntry (auth : Auth) (now : DateTime) (vaultId : Id) (type : CashEntryType)
    (amount : ℚ) (notes : Option String)
  | markPayrollPaid (auth : Auth) (now : DateTime) (runId : Id)
  | processDepreciation (auth : Auth) (now : DateTime) (assetId : Id) (periodLabel : String)
  | runRecurringJournals (now : DateTime)

/-- The code of a path. -/
def PostingOperation.handler : PostingOperation → Handler Unit
  | deposit auth now a x => discard (NexusEfos.deposit auth now a x)
  | withdraw auth now a x => discard (NexusEfos.withdraw auth now a x)
  | recordCollection auth now body => discard (NexusEfos.recordCollection auth now body)
  | disburseLoan js auth now loanId vaultId =>
    discard (NexusEfos.disburseLoan js auth now loanId vaultId)
  | recordRepayment auth now loanId x => discard (NexusEfos.recordRepayment auth now loanId x)
  | recordCashEntry auth now vaultId type x notes =>
    discard (NexusEfos.recordCashEntry auth now vaultId type x notes)
  | markPayrollPaid auth now runId => discard (NexusEfos.markPayrollPaid auth now runId)
  | processDepreciation auth now assetId periodLabel =>
    discard (NexusEfos.processDepreciation auth now assetId periodLabel)
  | runRecurringJournals now => NexusEfos.runRecurringJournals now

/-- The amounts that clients name. -/
def PostingOperation.amounts : PostingOperation → List ℚ
  | deposit _ _ _ x | withdraw _ _ _ x | recordRepayment _ _ _ x | recordCashEntry _ _ _ _ x _ => [x]
  | recordCollection _ _ body => [body.amount]
  | disburseLoan .. | markPayrollPaid .. | processDepreciation .. | runRecurringJournals _ => []

theorem KeepsLedger.discard {α : Type} {allowed : List JournalLineInput → Prop} {s : Db}
    {p : Handler α} (hp : KeepsLedger allowed s p) : KeepsLedger allowed s (NexusEfos.discard p) :=
  hp.bind fun _ _ => rfl

theorem PostingOperation.keepsLedger {allowed : List JournalLineInput → Prop}
    (hwhole : ∀ x, WholeCent x → AllowsAmount allowed x) (op : PostingOperation)
    (hamounts : ∀ x ∈ op.amounts, AllowsAmount allowed x) {s : Db}
    (htemplates : s.TemplatesAllowed allowed) : KeepsLedger allowed s op.handler := by
  have hcents : ∀ c : Cents, AllowsAmount allowed (toNumber c) := fun c => hwhole _ (wholeCent_toNumber c)
  cases op with
  | deposit auth now a x =>
    exact (deposit_keepsLedger (hamounts x (List.mem_singleton_self x)) auth now a s).discard
  | withdraw auth now a x =>
    exact (withdraw_keepsLedger (hamounts x (List.mem_singleton_self x)) auth now a s).discard
  | recordCollection auth now body =>
    exact (recordCollection_keepsLedger body (hamounts _ (List.mem_singleton_self _)) auth now s).discard
  | disburseLoan js auth now loanId vaultId =>
    exact (disburseLoan_keepsLedger hcents js auth now loanId vaultId s).discard
  | recordRepayment auth now loanId x =>
    exact (recordRepayment_keepsLedger (hamounts x (List.mem_singleton_self x)) auth now loanId
      s).discard
  | recordCashEntry auth now vaultId type x notes =>
    exact (recordCashEntry_keepsLedger (hamounts x (List.mem_singleton_self x)) auth now vaultId type
      notes s).discard
  | markPayrollPaid auth now runId =>
    exact (markPayrollPaid_keepsLedger hcents auth now runId s).discard
  | processDepreciation auth now assetId periodLabel =>
    exact (processDepreciation_keepsLedger hwhole auth now assetId periodLabel s).discard
  | runRecurringJournals now => exact runRecurringJournals_keepsLedger now htemplates

/-- Paths that are on their way at the same time. -/
def postingPool {ι : Type} (ops : ι → PostingOperation) (s : Db) :
    Pool ι Access Db Failure Unit :=
  ⟨fun i => (ops i).handler, s⟩

/-- Every line of every posted journal has been applied: the balances have moved from `base`
by the lines of all posted journals, whichever amounts these lines had before they were
stored. -/
def Db.AllApplied (base : Id → Cents) (s : Db) : Prop :=
  ∃ origin, Applied (fun _ => True) base s origin 0

section Whole

variable {ι : Type} [DecidableEq ι]

/-- A step without debt ends without debt, when what is posted has no effect. -/
theorem AllApplied.step {base : Id → Cents} {c : Pool ι Access Db Failure Unit} {i : ι}
    (hc : c.Follows (ledgerProtocol fun _ => True) (fun d _ => d = 0) fun _ => 0)
    (hmeets : c.Meets Access.MovesNothing i) (h : c.state.AllApplied base) :
    (c.step i).Follows (ledgerProtocol fun _ => True) (fun d _ => d = 0) (fun _ => 0) ∧
      (c.step i).state.AllApplied base := by
  rcases hc.step_cases i with hsame | ⟨lab, d', hlab, ⟨happly, hnothing⟩, -, hnext⟩
  · rw [hsame]
    exact ⟨hc, h⟩
  · have hd' : d' = 0 := hnothing (hlab _ hmeets) rfl
    rw [hd', Function.update_eq_self] at hnext
    obtain ⟨origin, happlied⟩ := h
    rw [← zero_add (0 : Multiset (Id × Cents))] at happlied
    obtain ⟨origin', happlied'⟩ := happly base origin 0 happlied
    rw [hd', zero_add] at happlied'
    exact ⟨hnext, origin', happlied'⟩

/-- If all statements of a run that post a journal outside a transaction post lines without
effect, no posted journal is ever left with a line that has not been applied. -/
theorem postings_whole (ops : ι → PostingOperation) {s : Db} {base : Id → Cents}
    (hs : s.AllApplied base) {sched : List ι}
    (h : (postingPool ops s).Allowed Access.MovesNothing sched) :
    ((postingPool ops s).run sched).state.AllApplied base := by
  have hstart : (postingPool ops s).Follows (ledgerProtocol fun _ => True) (fun d _ => d = 0)
      fun _ => 0 := by
    intro i
    have hany : ∀ x, AllowsAmount (fun _ => True) x :=
      fun _ => ⟨fun _ _ => trivial, fun _ _ _ => trivial⟩
    exact (ops i).keepsLedger (fun x _ => hany x) (fun x _ => hany x) fun _ _ _ _ => trivial
  have hrun := Pool.run_induction (A := Access.MovesNothing) (P := fun c =>
    c.Follows (ledgerProtocol fun _ => True) (fun d _ => d = 0) (fun _ => 0) ∧
      c.state.AllApplied base) (fun c i hc hmeets => AllApplied.step hc.1 hmeets hc.2)
    ⟨hstart, hs⟩ h
  exact hrun.2

end Whole

/-- A vault receives 100.00 while the recurring journals run, and none is due. -/
def receiptAtNight : Fin 2 → PostingOperation
  | 0 => .recordCashEntry ⟨1, 2⟩ 1 1 .receipt 100 none
  | 1 => .runRecurringJournals 2

theorem allApplied_cashLedger : cashLedger.AllApplied fun _ => 0 :=
  ⟨fun _ => [], .of_no_journal rfl (Db.glBalance_eq_zero (by decide))⟩

theorem postings_whole_receiptAtNight :
    ((postingPool receiptAtNight cashLedger).run
      [0, 0, 0, 1, 0, 0, 0, 0, 0]).state.AllApplied fun _ => 0 :=
  postings_whole receiptAtNight allApplied_cashLedger (by decide +kernel)

/-! ## A run that stops -/

/-- A rent of 100.00 every month. -/
def rent : RecurringJournal :=
  { institutionId := 1, description := "Rent", lineTemplate := [⟨1, 100, 0, none⟩, ⟨2, 0, 100, none⟩],
    frequency := .monthly, nextExecutionDate := 1, status := .active, createdById := 1 }

/-- The rent is due, and has never been posted. -/
def rentDue : Db :=
  (((Db.empty.insert .gLAccount
    { institutionId := 1, code := "5000", name := "Rent", category := .expense }).insert .gLAccount
    { institutionId := 1, code := "1000", name := "Cash", category := .asset }).insert
      .financialPeriod { institutionId := 1, startDate := 0, endDate := 10 }).insert
      .recurringJournal rent

theorem allApplied_rentDue : rentDue.AllApplied fun _ => 0 :=
  ⟨fun _ => [], .of_no_journal rfl (Db.glBalance_eq_zero (by decide))⟩

/-- The nightly run. -/
def rentRun : Fin 1 → PostingOperation := fun _ => .runRecurringJournals 2

/-- A line whose stored debit is well above its credit has an effect on an expense account. -/
theorem effectCents_pos {l : JournalLineInput} (hcategory : l.category = .expense)
    (h : l.stored.credit + 2 ≤ l.stored.debit) : 0 < l.effectCents := by
  have hdebit := abs_le.mp (abs_sub_roundHalfAway_le (l.debit * 100))
  have hcredit := abs_le.mp (abs_sub_roundHalfAway_le (l.credit * 100))
  have hstored : ((ofNumber l.credit + 2 : ℤ) : ℚ) ≤ (ofNumber l.debit : ℤ) := by exact_mod_cast h
  have hnet : 1 ≤ (l.debit - l.credit) * 100 := by
    unfold ofNumber at hstored
    push_cast at hstored
    linarith [hdebit.2, hcredit.1]
  have heffect : l.effectCents = round ((l.debit - l.credit) * 100) := by
    unfold JournalLineInput.effectCents JournalLineInput.effect
    rw [balanceEffect_eq_round2, hcategory]
    exact ofNumber_toNumber _
  rw [heffect]
  have hround := round_le_round hnet
  rw [round_one] at hround
  exact lt_of_lt_of_le one_pos hround

theorem recurring_stops_halfway :
    ¬ ∀ (ops : Fin 1 → PostingOperation) (s : Db) (base : Id → Cents), s.AllApplied base →
      ∀ sched, ((postingPool ops s).run sched).state.AllApplied base := by
  intro h
  -- The journal has been created, and none of its lines has been applied.
  have hstored : ((((postingPool rentRun rentDue).run [0, 0, 0, 0]).state.table .journal).entries.map
      fun e => (e.1, e.2.status, e.2.lines.map fun l => (l.accountId, l.debit, l.credit))) =
        [(1, .posted, [(1, 10000, 0), (2, 0, 10000)])] := by decide +kernel
  have hcategory : ((postingPool rentRun rentDue).run [0, 0, 0, 0]).state.category? 1 =
      some .expense := by decide +kernel
  have hzero : ((postingPool rentRun rentDue).run [0, 0, 0, 0]).state.glBalance 1 = 0 := by
    decide +kernel
  obtain ⟨origin, happlied⟩ := h rentRun rentDue _ allApplied_rentDue [0, 0, 0, 0]
  generalize ((postingPool rentRun rentDue).run [0, 0, 0, 0]).state = t at hstored hcategory hzero happlied
  obtain ⟨⟨id, j⟩, hentries, hj⟩ := List.map_eq_singleton_iff.mp hstored
  simp only [Prod.mk.injEq] at hj
  obtain ⟨rfl, hposted, hlines⟩ := hj
  have hfind : t.find? .journal 1 = some j := by
    refine OrderedMap.get?_eq_some.mpr ?_
    rw [hentries]
    exact List.mem_singleton_self _
  have horigin := happlied.lines 1 j hfind hposted
  rw [horigin.stored, List.map_map] at hlines
  obtain ⟨l, ls, hfirst, hl, hrest⟩ := List.map_eq_cons_iff.mp hlines
  obtain ⟨l', hsecond, hl'⟩ := List.map_eq_singleton_iff.mp hrest
  simp only [Function.comp_apply, Prod.mk.injEq] at hl hl'
  have hexpense : l.category = .expense := by
    have hl₁ := horigin.category l (hfirst ▸ List.mem_cons_self ..)
    rw [show l.accountId = 1 from hl.1, hcategory] at hl₁
    exact (Option.some.inj hl₁).symm
  have heffect : 0 < l.effectCents := by
    refine effectCents_pos hexpense ?_
    rw [hl.2.1, hl.2.2]
    decide
  have hbalance := happlied.balance 1
  have htotal : (t.table .journal).total (fun id j =>
      if j.status = .posted then movementOf (origin id) 1 else 0) = l.effectCents := by
    have hl₁ : l.accountId = 1 := hl.1
    have hl₂ : l'.accountId = 2 := hl'.1
    unfold OrderedMap.total
    rw [hentries]
    simp [hposted, hfirst, hsecond, movementOf, hl₁, hl₂]
  rw [hzero, htotal, amountOn_zero] at hbalance
  have hnone : l.effectCents = 0 := by simpa using hbalance.symm
  exact absurd hnone heffect.ne'

end NexusEfos
