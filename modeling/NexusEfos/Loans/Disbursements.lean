/-
Disbursements, in any number and on any loans, at the same time.

A loan is paid out in one transaction: the vault, its ledger entry, the journal, the
loan and its schedule.  Its status was read before, and a loan that has been paid out
can be approved again.  What stops a second payment is the schedule: it has an
installment with the number one, and the number is taken from the first payment on
(`disbursed_at_most_once`).
-/
import NexusEfos.Loans.Lifecycle
import NexusEfos.Savings.Balances

namespace NexusEfos

/-! ## One disbursement -/

/-- What the transaction of a disbursement is given. -/
structure Disbursement where
  auth : Auth
  now : DateTime
  loanId : Id
  vaultId : Id
  principal : Cents
  journalLines : List JournalLineInput
  schedule : List ScheduleRow

/-- The balance of a vault. -/
def Db.vaultBalance (s : Db) (vaultId : Id) : Cents :=
  ((s.find? .vault vaultId).map Vault.balance).getD 0

namespace Disbursement

def inTx (d : Disbursement) : Handler Loan :=
  disburseInTx d.auth d.now d.loanId d.vaultId d.principal d.journalLines d.schedule

/-- The entry of the vault's ledger. -/
def entry (d : Disbursement) (balanceAfter : Cents) : CashLedgerEntry :=
  { institutionId := d.auth.institutionId, holderType := .vault, holderId := d.vaultId,
    type := .transferOut, amount := d.principal, balanceAfter,
    notes := some ("Loan disbursement — " ++ toString d.loanId), recordedById := d.auth.userId }

def journal (d : Disbursement) : Journal :=
  automaticJournal d.auth d.now ("Loan disbursement — loan " ++ toString d.loanId) d.journalLines

/-- The cash leaves the vault. -/
def pay (d : Disbursement) (s : Db) : Db :=
  (s.modify .vault d.vaultId fun v => { v with balance := v.balance - d.principal }).insert
    .cashLedgerEntry (d.entry (s.vaultBalance d.vaultId - d.principal))

/-- The journal is posted. -/
def post (d : Disbursement) (s : Db) : Db :=
  (s.insert .journal d.journal).applyEffects d.journalLines

/-- The cash, the journal and the schedule of a disbursement. -/
def payOut (d : Disbursement) (s : Db) : Db :=
  (d.post (d.pay s)).insertAll .loanInstallment (d.schedule.map (ScheduleRow.installment d.loanId))

/-- The loan after a disbursement. -/
def disburse (d : Disbursement) (l : Loan) : Loan :=
  { l with status := .disbursed, disbursedAt := some d.now }

end Disbursement

/-- No installment of the loan has the number of a row of the schedule, and no two
rows have the same. -/
def Db.NumbersFree (s : Db) (loanId : Id) (schedule : List ScheduleRow) : Prop :=
  (((s.table .loanInstallment).values.filter fun i => i.loanId = loanId).map
    LoanInstallment.installmentNumber ++ schedule.map ScheduleRow.installmentNumber).Nodup

/-- A schedule that is stored has no number in common with what is there. -/
theorem run_createInstallments_eq_ok {s s' : Db} {loanId : Id} {schedule : List ScheduleRow}
    {u : Unit} (h : (createInstallments loanId schedule).run s = (.ok u, s')) :
    s.NumbersFree loanId schedule ∧
      s' = s.insertAll .loanInstallment (schedule.map (ScheduleRow.installment loanId)) := by
  rw [createInstallments, Proc.run_attempt] at h
  dsimp only at h
  split at h
  · next hnodup =>
    refine ⟨hnodup, ?_⟩
    rw [Db.insertAll, List.foldl_map]
    exact (Prod.mk.inj h).2.symm
  · exact absurd (congrArg Prod.fst h) nofun

namespace Db

/-- Rows of another table may be added before or after. -/
theorem modify_insertAll_comm {m m' : Model} (h : m' ≠ m) (s : Db) (rows : List (Row m)) (id : Id)
    (f : Row m' → Row m') :
    (s.insertAll m rows).modify m' id f = (s.modify m' id f).insertAll m rows := by
  induction rows generalizing s with
  | nil => rfl
  | cons row rows ih =>
    show ((s.insert m row).insertAll m rows).modify m' id f = _
    rw [ih, modify_insert_comm h]
    rfl

end Db

theorem Vault.increment_neg_eq (v : Vault) (c : Cents) :
    { v with balance := increment v.balance (-toNumber c) } = { v with balance := v.balance - c } := by
  rw [← toNumber_neg, increment_toNumber, sub_eq_add_neg]

/-- A disbursement that commits finds the cash in the vault, the accounts and the loan,
and numbers for its schedule that are free. -/
theorem Disbursement.run_inTx_eq_ok {d : Disbursement} {s s' : Db} {loan : Loan}
    (h : d.inTx.run s = (.ok loan, s')) :
    (∃ vault, s.find? .vault d.vaultId = some vault ∧ d.principal ≤ vault.balance) ∧
      (∀ l ∈ d.journalLines, (s.find? .gLAccount l.accountId).isSome) ∧
      (s.find? .loan d.loanId).isSome ∧ s.NumbersFree d.loanId d.schedule ∧
      s' = (d.payOut s).modify .loan d.loanId d.disburse := by
  obtain ⟨guarded, s₁, hvault, h₁⟩ := Proc.run_bind_eq_ok h
  obtain ⟨htrue, h₂⟩ := run_require_bind_eq_ok h₁
  subst htrue
  obtain ⟨vault, hfound, hcovers, hs₁⟩ := run_updateGuarded_eq_true hvault
  have hpaid : s₁ = s.modify .vault d.vaultId fun v =>
      { v with balance := v.balance - d.principal } := by
    rw [hs₁]
    congr 1
    funext v
    exact v.increment_neg_eq d.principal
  obtain ⟨fresh, s₂, hfresh, h₃⟩ := Proc.run_bind_eq_ok h₂
  obtain ⟨hread, hs₂⟩ := run_findUniqueOrThrow_eq_ok hfresh
  have hbalance : fresh.balance = s.vaultBalance d.vaultId - d.principal := by
    rw [hpaid, Db.find?_modify, if_pos rfl, hfound] at hread
    rw [← Option.some.inj hread, Db.vaultBalance, hfound]
    rfl
  obtain ⟨entry, s₃, hentry, h₄⟩ := Proc.run_bind_eq_ok h₃
  obtain ⟨-, hs₃⟩ := run_create_eq_ok hentry
  rw [hbalance, hs₂, hpaid] at hs₃
  have hpay : s₃ = d.pay s := hs₃
  obtain ⟨journal, s₄, hjournal, h₅⟩ := Proc.run_bind_eq_ok h₄
  obtain ⟨haccounts, -, hs₄⟩ := run_postJournal_eq_ok hjournal
  have hpost : s₄ = d.post (d.pay s) := by
    rw [hs₄, hpay]
    rfl
  obtain ⟨updated, s₅, hupdate, h₆⟩ := Proc.run_bind_eq_ok h₅
  obtain ⟨row, hloan, -, hs₅⟩ := run_update_eq_ok hupdate
  obtain ⟨u, s₆, hschedule, h₇⟩ := Proc.run_bind_eq_ok h₆
  obtain ⟨hfree, hs₆⟩ := run_createInstallments_eq_ok hschedule
  have hs' : s' = s₆ := (Prod.mk.inj h₇).2.symm
  -- What the transaction reads was there before it.
  have hbefore : ∀ m, m ≠ .vault → m ≠ .cashLedgerEntry → (d.pay s).table m = s.table m := by
    intro m hm hm'
    rw [Disbursement.pay, Db.table_insert_of_ne hm', Db.table_modify_of_ne hm]
  have hposted : ∀ m, m ≠ .journal → m ≠ .gLAccount →
      (d.post (d.pay s)).table m = (d.pay s).table m := by
    intro m hm hm'
    rw [Disbursement.post, Db.table_applyEffects hm', Db.table_insert_of_ne hm]
  refine ⟨⟨vault, hfound, of_decide_eq_true hcovers⟩, ?_, ?_, ?_, ?_⟩
  · intro l hl
    have hl' := haccounts l hl
    rwa [hpay, Db.find?, hbefore _ (by decide) (by decide)] at hl'
  · have hloan' : (s₄.find? .loan d.loanId).isSome := by
      rw [hloan]
      rfl
    rwa [hpost, Db.find?, hposted _ (by decide) (by decide), hbefore _ (by decide) (by decide)]
      at hloan'
  · have hsame : s₅.table .loanInstallment = s.table .loanInstallment := by
      rw [hs₅, Db.table_modify_of_ne (by decide), hpost, hposted _ (by decide) (by decide),
        hbefore _ (by decide) (by decide)]
    unfold Db.NumbersFree at hfree ⊢
    rwa [hsame] at hfree
  · rw [hs', hs₆, hs₅, hpost]
    exact (Db.modify_insertAll_comm (by decide) _ _ _ _).symm

/-! ## What a statement does -/

/-- The tables of the cash, the ledger and the schedules. -/
def payoutTables : List Model := [.vault, .cashLedgerEntry, .gLAccount, .journal, .loanInstallment]

namespace Db.Agree

variable {watched : List Model} {s s' : Db}

theorem insertAll {m : Model} (hm : m ∉ watched) (s : Db) (rows : List (Row m)) :
    s.Agree watched (s.insertAll m rows) := by
  intro m' hm'
  have hne : m' ≠ m := by
    intro heq
    exact hm (heq ▸ hm')
  exact Db.table_insertAll hne s rows

theorem applyEffects (hm : Model.gLAccount ∉ watched) (s : Db) (lines : List JournalLineInput) :
    s.Agree watched (s.applyEffects lines) := by
  intro m' hm'
  have hne : m' ≠ .gLAccount := by
    intro heq
    exact hm (heq ▸ hm')
  exact Db.table_applyEffects hne s lines

theorem insertAll_congr (h : s.Agree watched s') (m : Model) (rows : List (Row m)) :
    (s.insertAll m rows).Agree watched (s'.insertAll m rows) := by
  induction rows generalizing s s' with
  | nil => exact h
  | cons row rows ih => exact ih (h.insert_congr row)

/-- The cash and the journal of a disbursement. -/
theorem postPay {watched : List Model}
    (hw : ∀ m ∈ [Model.vault, .cashLedgerEntry, .gLAccount, .journal], m ∉ watched)
    (d : Disbursement) (s : Db) : s.Agree watched (d.post (d.pay s)) := by
  have hpay : s.Agree watched (d.pay s) :=
    (modify (hw .vault (by decide)) s d.vaultId _).trans (insert (hw .cashLedgerEntry (by decide)) _ _)
  have hjournal := insert (hw .journal (by decide)) (d.pay s) d.journal
  have hlines := applyEffects (hw .gLAccount (by decide)) ((d.pay s).insert .journal d.journal)
    d.journalLines
  exact (hpay.trans hjournal).trans hlines

/-- A disbursement touches no other table. -/
theorem payOut {watched : List Model} (hw : ∀ m ∈ payoutTables, m ∉ watched) (d : Disbursement)
    (s : Db) : s.Agree watched (d.payOut s) := by
  have hposted : s.Agree watched (d.post (d.pay s)) := by
    refine postPay (fun m hm => hw m ?_) d s
    revert hm
    cases m <;> decide
  exact hposted.trans (insertAll (hw .loanInstallment (by decide)) _ _)

/-- A disbursement takes as much from either of two databases that agree. -/
theorem payOut_congr (h : s.Agree payoutTables s') (d : Disbursement) :
    (d.payOut s).Agree payoutTables (d.payOut s') := by
  have hvault : s'.vaultBalance d.vaultId = s.vaultBalance d.vaultId := by
    unfold Db.vaultBalance
    rw [h.find? (by decide)]
  unfold Disbursement.payOut Disbursement.post Disbursement.pay
  rw [hvault]
  exact (((h.modify_congr _ _).insert_congr _).insert_congr _).applyEffects_congr _ |>.insertAll_congr _ _

end Db.Agree

/-- Every loan runs for at least a month. -/
def Db.TermsPositive (s : Db) : Prop :=
  ∀ id loan, s.find? .loan id = some loan → 0 < loan.termMonths

/-- The installments of a loan have taken the number one. -/
def Db.FirstTaken (s : Db) (loanId : Id) : Prop :=
  ∃ i ∈ (s.table .loanInstallment).values, i.loanId = loanId ∧ i.installmentNumber = 1

/-- A statement leaves the tables alone, or pays out a loan whose first installment
number is free. -/
inductive PayoutStep (s : Db) (d : Option Disbursement) : Db → Option Disbursement → Prop
  | kept {s' : Db} (h : s.Agree payoutTables s') : PayoutStep s d s' d
  | paid {s' : Db} {p : Disbursement} (hd : d = none) (hfree : ¬ s.FirstTaken p.loanId)
      (htaken : s'.FirstTaken p.loanId) (h : (p.payOut s).Agree payoutTables s') :
      PayoutStep s d s' (some p)

def payoutProtocol : Protocol Access Db (Option Disbursement) where
  rely s s' := s.TermsPositive → s'.TermsPositive
  guar _ := PayoutStep
  refl _ := id
  trans h h' := h' ∘ h

/-- What a statement without a payment does. -/
def KeepsPayouts (s s' : Db) : Prop :=
  s.Agree payoutTables s' ∧ (s.TermsPositive → s'.TermsPositive)

theorem keepsPayouts_of_agree {s s' : Db} (h : s.Agree (.loan :: payoutTables) s') :
    KeepsPayouts s s' := by
  refine ⟨fun m hm => h m (List.mem_cons_of_mem _ hm), fun hs id loan hl => ?_⟩
  rw [h.find? (List.mem_cons_self ..)] at hl
  exact hs id loan hl

theorem payoutProtocol_allows (lab : Access) (s s' : Db) (d : Option Disbursement)
    (h : KeepsPayouts s s') :
    payoutProtocol.rely s s' ∧ payoutProtocol.guar lab s d s' d := ⟨h.2, .kept h.1⟩

theorem payoutProtocol_watches : payoutProtocol.Watches (.loan :: payoutTables) :=
  fun lab s s' d h => payoutProtocol_allows lab s s' d (keepsPayouts_of_agree h)

/-- A transaction that pays out a loan with a first installment. -/
theorem Disbursement.payoutStep {d : Disbursement} {s s' : Db} {loan : Loan}
    (hfirst : 1 ∈ d.schedule.map ScheduleRow.installmentNumber)
    (h : d.inTx.run s = (.ok loan, s')) : PayoutStep s none s' (some d) := by
  obtain ⟨-, -, -, hfree, rfl⟩ := d.run_inTx_eq_ok h
  have hsame : (d.payOut s).Agree payoutTables ((d.payOut s).modify .loan d.loanId d.disburse) :=
    .modify (m := .loan) (by decide) _ _ _
  refine .paid rfl ?_ ?_ hsame
  · intro htaken
    obtain ⟨i, hi, hloan, hnumber⟩ := htaken
    refine (List.nodup_append.mp hfree).2.2 1 ?_ 1 hfirst rfl
    rw [← hnumber]
    exact List.mem_map_of_mem (List.mem_filter.mpr ⟨hi, by simpa using hloan⟩)
  · obtain ⟨row, hrow, hnumber⟩ := List.mem_map.mp hfirst
    refine ⟨row.installment d.loanId, ?_, rfl, hnumber⟩
    rw [hsame _ (by decide), Disbursement.payOut, Db.values_insertAll]
    exact List.mem_append_right _ (List.mem_map_of_mem hrow)

/-- A loan is rewritten and keeps its term. -/
theorem Db.TermsPositive.modify {s : Db} (h : s.TermsPositive) {f : Loan → Loan}
    (hf : ∀ l, (f l).termMonths = l.termMonths) (id : Id) :
    (s.modify .loan id f).TermsPositive := by
  intro id' loan hl
  rw [Db.find?_modify] at hl
  split at hl
  · obtain ⟨l, hl', rfl⟩ := Option.map_eq_some_iff.mp hl
    rw [hf]
    exact h id' l hl'
  · exact h id' loan hl

theorem Disbursement.termsPositive {d : Disbursement} {s s' : Db} {loan : Loan}
    (h : d.inTx.run s = (.ok loan, s')) (hs : s.TermsPositive) : s'.TermsPositive := by
  obtain ⟨-, -, -, -, rfl⟩ := d.run_inTx_eq_ok h
  have hpaid : (d.payOut s).TermsPositive := by
    intro id l hl
    have hsame : s.Agree [.loan] (d.payOut s) := .payOut (by decide) d s
    rw [hsame.find? (List.mem_singleton_self _)] at hl
    exact hs id l hl
  exact hpaid.modify (f := d.disburse) (fun _ => rfl) d.loanId

theorem keepsPayouts_modify {f : Loan → Loan} (hf : ∀ l, (f l).termMonths = l.termMonths)
    (s : Db) (id : Id) : KeepsPayouts s (s.modify .loan id f) :=
  ⟨Db.Agree.modify (m := .loan) (by decide) s id f, fun h => h.modify hf id⟩

/-! ## The handlers -/

namespace Quiet

variable {watched : List Model}

theorem matchRules {Context : Type} (js : Js Context) (now : DateTime) (institutionId : Id)
    (triggerPoint : BusinessRuleTriggerPoint) (context : Context) :
    Quiet watched (NexusEfos.matchRules js now institutionId triggerPoint context) :=
  (query _).bind fun _ => pure _

theorem requireUnblocked (what : String) (matched : List MatchedRule) :
    Quiet watched (NexusEfos.requireUnblocked what matched) := by
  unfold NexusEfos.requireUnblocked
  cases matched.find? MatchedRule.hasReject with
  | some blocking => exact fail _
  | none => exact pure ()

theorem executeMatchedRules (haudit : Model.auditLog ∉ watched)
    (hrequest : Model.approvalRequest ∉ watched) (institutionId userId : Id) (targetType : String)
    (targetId : Id) (matched : List MatchedRule) :
    Quiet watched (NexusEfos.executeMatchedRules institutionId userId targetType targetId
      matched) := by
  apply Proc.Every.mapEach
  intro m _
  refine bind (Proc.Every.mapEach fun action _ => ?_) fun actionsTaken =>
    (create haudit _).bind fun _ => pure _
  unfold executeAction
  cases action.type with
  | flag => exact (create haudit _).bind fun _ => pure _
  | requireAdditionalApproval => exact (createAs hrequest _ _).bind fun _ => pure _
  | reject => exact pure _

end Quiet

theorem executeMatchedRules_succeeds (institutionId userId : Id) (targetType : String)
    (targetId : Id) (matched : List MatchedRule) :
    (executeMatchedRules institutionId userId targetType targetId matched).Succeeds := by
  apply Proc.Succeeds.mapEach
  intro m _
  refine Proc.Succeeds.bind (Proc.Succeeds.mapEach fun action _ => ?_) fun actionsTaken =>
    (Proc.Succeeds.exec _ _).bind fun _ => trivial
  unfold executeAction
  cases action.type with
  | flag => exact (Proc.Succeeds.exec _ _).bind fun _ => trivial
  | requireAdditionalApproval => exact (Proc.Succeeds.exec _ _).bind fun _ => trivial
  | reject => trivial

/-- The label under which a disbursement commits. -/
def Disbursement.label (d : Disbursement) : Access :=
  { loanMove := some (d.loanId, .disburse),
    posting := some ⟨d.auth.institutionId, d.now, d.journalLines.map fun l => l.accountId⟩,
    movesCash := some (d.vaultId, -toNumber d.principal) }

/-- A disbursement reads, pays out in one transaction, and leaves records. -/
theorem disburseLoan_everyStep {D : Access → Db → Db → Prop} {watched : List Model} {loanId : Id}
    (haudit : Model.auditLog ∉ watched) (hrequest : Model.approvalRequest ∉ watched)
    (hagree : ∀ lab s t, s.Agree watched t → D lab s t)
    (h : ∀ (d : Disbursement), d.loanId = loanId → ∀ s loan t, d.inTx.run s = (.ok loan, t) →
      D d.label s t) (js : Js) (auth : Auth) (now : DateTime) (vaultId : Option Id) :
    (disburseLoan js auth now loanId vaultId).EveryStep D := by
  have hquiet : ∀ {α : Type} {p : Handler α}, Quiet watched p → p.EveryStep D :=
    fun hp => .of_every hagree hp
  refine (Proc.EveryStep.orFail _ _).bind fun vaultId => (hquiet (.query _)).bind fun _ => ?_
  refine (Proc.EveryStep.orFail _ _).bind fun loan => (Proc.EveryStep.require _ _).bind fun _ => ?_
  refine (hquiet (.query _)).bind fun _ => (Proc.EveryStep.orFail _ _).bind fun vault => ?_
  refine (Proc.EveryStep.require _ _).bind fun _ => (hquiet (.query _)).bind fun pending => ?_
  refine (Proc.EveryStep.require _ _).bind fun _ => (hquiet (.query _)).bind fun customer => ?_
  refine (hquiet (.matchRules _ _ _ _ _)).bind fun matched => ?_
  refine (hquiet (.requireUnblocked _ _)).bind fun _ => (hquiet (.query _)).bind fun _ => ?_
  refine (Proc.EveryStep.orFail _ _).bind fun accounts => ?_
  refine (hquiet (.requirePostablePeriod _ _)).bind fun _ => ?_
  refine (hquiet (.findUniqueOrThrow _ _)).bind fun receivable => ?_
  refine (hquiet (.findUniqueOrThrow _ _)).bind fun cash => ?_
  refine (Proc.EveryStep.require _ _).bind fun _ => ?_
  let d : Disbursement := ⟨auth, now, loanId, vaultId, loan.principal,
    doubleEntry (accounts.1, receivable) (accounts.2, cash) (toNumber loan.principal),
    generateSchedule (toNumber loan.principal) loan.interestRate loan.termMonths
      loan.interestMethod now⟩
  have hpaid : (Proc.transaction d.label d.inTx).EveryStep D :=
    .transaction (fun s => hagree _ s s (.refl s)) (h d rfl)
  refine hpaid.bind fun updated => (hquiet (.create haudit _)).bind fun _ => ?_
  exact (hquiet (.executeMatchedRules haudit hrequest _ _ _ _ _)).bind fun _ => trivial

theorem Quiet.keepsPayouts {α : Type} {p : Handler α}
    (hp : Quiet (.loan :: payoutTables) p) : p.Every KeepsPayouts :=
  Proc.Every.imp hp fun _ _ => keepsPayouts_of_agree

/-- A loan is rewritten under a label. -/
theorem updateAs_keepsPayouts (lab : Access) (id : Id) {f : Loan → Loan}
    (hf : ∀ l, (f l).termMonths = l.termMonths) :
    (updateAs lab .loan id f).Every KeepsPayouts := by
  refine ⟨fun s => ?_, fun _ => trivial⟩
  cases h : s.find? .loan id with
  | some row => simpa only [h] using keepsPayouts_modify hf s id
  | none => simpa only [h] using keepsPayouts_of_agree (Db.Agree.refl s)

theorem updateGuardedAs_keepsPayouts (lab : Access) (id : Id) (p : Loan → Bool) {f : Loan → Loan}
    (hf : ∀ l, (f l).termMonths = l.termMonths) :
    (updateGuardedAs lab .loan id p f).Every KeepsPayouts := by
  refine ⟨fun s => ?_, fun _ => trivial⟩
  cases h : s.find? .loan id with
  | some row =>
    by_cases hp : p row = true
    · simpa only [h, hp, if_true] using keepsPayouts_modify hf s id
    · simpa only [h, hp, Bool.false_eq_true, if_false] using keepsPayouts_of_agree (Db.Agree.refl s)
  | none => simpa only [h] using keepsPayouts_of_agree (Db.Agree.refl s)

theorem approveLoan_keepsPayouts (js : Js) (auth : Auth) (now : DateTime) (loanId : Id) :
    (approveLoan js auth now loanId).Every KeepsPayouts := by
  refine (Quiet.query _).keepsPayouts.bind fun found => ?_
  refine (Proc.Every.orFail _ _).bind fun loan => (Proc.Every.require _ _).bind fun _ => ?_
  refine (Quiet.query _).keepsPayouts.bind fun customer => ?_
  refine (Quiet.matchRules js now _ _ _).keepsPayouts.bind fun matched => ?_
  refine (Quiet.requireUnblocked _ matched).keepsPayouts.bind fun _ => ?_
  refine Proc.Every.bind (updateAs_keepsPayouts _ _ ?_) fun updated => ?_
  · exact fun _ => rfl
  refine (Quiet.create (by decide) _).keepsPayouts.bind fun _ => ?_
  have hrules : Quiet (.loan :: payoutTables) (executeMatchedRules auth.institutionId auth.userId
      "Loan" loanId matched) := .executeMatchedRules (by decide) (by decide) _ _ _ _ _
  exact hrules.keepsPayouts.bind fun _ => trivial

theorem rejectLoan_keepsPayouts (auth : Auth) (loanId : Id) :
    (rejectLoan auth loanId).Every KeepsPayouts := by
  refine Proc.Every.bind (updateGuardedAs_keepsPayouts _ _ _ ?_) fun found => ?_
  · exact fun _ => rfl
  refine (Proc.Every.require _ _).bind fun _ => ?_
  exact (Quiet.create (by decide) _).keepsPayouts.bind fun _ => trivial

/-- How a disbursement ends: with an error and nothing paid, or with a payment. -/
def PayoutEnd {α : Type} (loanId : Id) (d : Option Disbursement) (r : Except Failure α) : Prop :=
  (∃ e, r = .error e) ∧ d = none ∨ (∃ a, r = .ok a) ∧ ∃ p, d = some p ∧ p.loanId = loanId

theorem disburseLoan_follows (js : Js) (auth : Auth) (now : DateTime) (loanId : Id)
    (vaultId : Option Id) {s : Db} (hs : s.TermsPositive) :
    (disburseLoan js auth now loanId vaultId).Follows payoutProtocol
      (fun _ => PayoutEnd loanId) s none := by
  have herr : ∀ e, PayoutEnd (α := Loan) loanId none (.error e) := fun e => .inl ⟨⟨e, rfl⟩, rfl⟩
  refine .orFail (fun vaultId _ => ?_) fun _ => herr _
  refine payoutProtocol_watches.query fun t ht => .orFail (fun loan hloan => ?_) fun _ => herr _
  have hterm : 0 < loan.termMonths := ht hs loanId loan (Option.filter_eq_some_iff.mp hloan).1
  refine .require (fun _ => ?_) fun _ => herr _
  refine payoutProtocol_watches.query fun _ _ => .orFail (fun vault _ => ?_) fun _ => herr _
  refine .require (fun _ => ?_) fun _ => herr _
  refine payoutProtocol_watches.query fun _ _ => .require (fun _ => ?_) fun _ => herr _
  refine payoutProtocol_watches.query fun _ _ => ?_
  refine payoutProtocol_watches.quiet (.matchRules _ _ _ _ _) (fun _ matched _ => ?_) fun _ e => herr e
  refine payoutProtocol_watches.quiet (.requireUnblocked _ _) (fun _ _ _ => ?_) fun _ e => herr e
  refine payoutProtocol_watches.query fun _ _ => .orFail (fun accounts _ => ?_) fun _ => herr _
  refine payoutProtocol_watches.quiet (.requirePostablePeriod _ _) (fun _ _ _ => ?_)
    fun _ e => herr e
  refine payoutProtocol_watches.findUniqueOrThrow (fun _ receivable _ _ => ?_) fun _ => herr _
  refine payoutProtocol_watches.findUniqueOrThrow (fun _ cash _ _ => ?_) fun _ => herr _
  refine .require (fun _ => ?_) fun _ => herr _
  refine .transaction (fun t updated t' _ hrun => ?_) fun t e _ => ⟨.kept (.refl t), herr e⟩
  have hfirst := one_mem_generateSchedule (toNumber loan.principal) loan.interestRate hterm
    loan.interestMethod now
  refine ⟨_, Disbursement.termsPositive (d := ⟨auth, now, loanId, vaultId, loan.principal, _, _⟩) hrun,
    Disbursement.payoutStep (d := ⟨auth, now, loanId, vaultId, loan.principal, _, _⟩) hfirst hrun, ?_⟩
  · have hafter : Quiet (.loan :: payoutTables) (do
        let _ ← create .auditLog
          { institutionId := auth.institutionId, userId := some auth.userId,
            action := "loan.disburse", resource := "loan", resourceId := some loanId }
        let _ ← executeMatchedRules auth.institutionId auth.userId "Loan" loanId matched
        return updated) := by
      refine (Quiet.create (by decide) _).bind fun _ => ?_
      exact (Quiet.executeMatchedRules (by decide) (by decide) _ _ _ _ _).bind fun _ => .pure _
    have hsucceeds := (executeMatchedRules_succeeds auth.institutionId auth.userId "Loan" loanId
      matched).bind (f := fun _ => (pure updated : Handler Loan)) fun _ => trivial
    refine (Proc.Follows.of_succeeds payoutProtocol_allows hafter.keepsPayouts
      fun _ => hsucceeds).imp ?_
    intro _ d' r hr
    obtain ⟨-, rfl, hok⟩ := hr
    exact .inr ⟨hok, _, rfl, rfl⟩

/-! ## Any number of calls -/

/-- A call that approves, rejects or disburses a loan. -/
inductive LoanCall
  | approve (js : Js) (auth : Auth) (now : DateTime) (loanId : Id)
  | reject (auth : Auth) (loanId : Id)
  | disburse (js : Js) (auth : Auth) (now : DateTime) (loanId : Id) (vaultId : Option Id)

/-- The code of a call.  It answers with the loan it has paid out, if any. -/
def LoanCall.handler : LoanCall → Handler (Option Id)
  | approve js auth now loanId => do
    let _ ← approveLoan js auth now loanId
    return none
  | reject auth loanId => do
    rejectLoan auth loanId
    return none
  | disburse js auth now loanId vaultId => do
    let _ ← disburseLoan js auth now loanId vaultId
    return some loanId

/-- How a call ends: it has paid out the loan it answers with, and nothing else. -/
def LoanEnd (d : Option Disbursement) (r : Except Failure (Option Id)) : Prop :=
  match r with
  | .error _ => d = none
  | .ok answer => d.map Disbursement.loanId = answer

theorem LoanCall.follows (call : LoanCall) {s : Db} (hs : s.TermsPositive) :
    call.handler.Follows payoutProtocol (fun _ => LoanEnd) s none := by
  have hquiet : ∀ {α : Type} {p : Handler α}, p.Every KeepsPayouts →
      (p >>= fun _ => (pure none : Handler (Option Id))).Follows payoutProtocol
        (fun _ => LoanEnd) s none := by
    intro α p hp
    refine (Proc.Follows.of_every payoutProtocol_allows hp).bind ?_ ?_
    · exact fun _ _ _ h => congrArg (Option.map Disbursement.loanId) h.2
    · exact fun _ _ _ h => h.2
  cases call with
  | approve js auth now loanId => exact hquiet (approveLoan_keepsPayouts js auth now loanId)
  | reject auth loanId => exact hquiet (rejectLoan_keepsPayouts auth loanId)
  | disburse js auth now loanId vaultId =>
    refine (disburseLoan_follows js auth now loanId vaultId hs).bind ?_ ?_
    · intro _ d _ hend
      rcases hend with ⟨⟨_, herror⟩, -⟩ | ⟨-, p, rfl, rfl⟩
      · exact absurd herror nofun
      · rfl
    · intro _ d _ hend
      rcases hend with ⟨-, hnone⟩ | ⟨⟨_, hok⟩, -⟩
      · exact hnone
      · exact absurd hok nofun

/-- The state is what some payments make of the first one, no loan is paid out twice, and
those paid out have their first installment. -/
structure PaidOut {ι : Type} (s t : Db) (done : List (ι × Disbursement)) : Prop where
  loans : (done.map fun e => e.2.loanId).Nodup
  state : (done.foldl (fun t e => e.2.payOut t) s).Agree payoutTables t
  taken : ∀ e ∈ done, t.FirstTaken e.2.loanId

section Calls

variable {ι : Type} [DecidableEq ι]

omit [DecidableEq ι] in
theorem PaidOut.step {s t t' : Db} {d d' : Option Disbursement} (hstep : PayoutStep t d t' d') :
    d' = d ∧ (∀ done : List (ι × Disbursement), PaidOut s t done → PaidOut s t' done) ∨
      d = none ∧ ∃ p, d' = some p ∧
        ∀ (i : ι) done, PaidOut s t done → PaidOut s t' (done ++ [(i, p)]) := by
  cases hstep with
  | kept h =>
    refine .inl ⟨rfl, fun done hdone => ⟨hdone.loans, hdone.state.trans h, fun e he => ?_⟩⟩
    obtain ⟨i, hi, hfirst⟩ := hdone.taken e he
    exact ⟨i, by rwa [h _ (by decide)], hfirst⟩
  | @paid p hd hfree htaken h =>
    refine .inr ⟨hd, p, rfl, fun i done hdone => ⟨?_, ?_, fun e he => ?_⟩⟩
    · rw [List.map_append, List.nodup_append]
      refine ⟨hdone.loans, List.nodup_singleton _, ?_⟩
      intro a ha b hb heq
      obtain ⟨e, he, rfl⟩ := List.mem_map.mp ha
      rw [List.map_singleton, List.mem_singleton] at hb
      have hloan : e.2.loanId = p.loanId := heq.trans hb
      have hfirst := hdone.taken e he
      rw [hloan] at hfirst
      exact hfree hfirst
    · rw [List.foldl_append]
      exact (hdone.state.payOut_congr p).trans h
    · rcases List.mem_append.mp he with he | he
      · obtain ⟨first, hfirst, hloan⟩ := hdone.taken e he
        refine ⟨first, ?_, hloan⟩
        rw [h _ (by decide), Disbursement.payOut, Db.values_insertAll]
        apply List.mem_append_left
        rw [Disbursement.post, Db.table_applyEffects (by decide), Db.table_insert_of_ne (by decide),
          Disbursement.pay, Db.table_insert_of_ne (by decide), Db.table_modify_of_ne (by decide)]
        exact hfirst
      · rw [List.mem_singleton.mp he]
        exact htaken

/-- Calls that share the database. -/
def loanPool (calls : ι → LoanCall) (s : Db) : Pool ι Access Db Failure (Option Id) :=
  ⟨fun i => (calls i).handler, s⟩

/-- Some calls have paid out, in this order, and no two of them the same loan.  The cash,
the ledger and the schedules are what these payments make of them.  A call that has
answered that it paid out a loan is one of them, and a call that has failed is not. -/
structure PaidOnce (s : Db) (c : Pool ι Access Db Failure (Option Id))
    (done : List (ι × Disbursement)) : Prop where
  loans : (done.map fun e => e.2.loanId).Nodup
  calls : (done.map Prod.fst).Nodup
  state : (done.foldl (fun t e => e.2.payOut t) s).Agree payoutTables c.state
  answered : ∀ i loanId, c.threads i = .done (.ok (some loanId)) →
    ∃ d : Disbursement, (i, d) ∈ done ∧ d.loanId = loanId
  failed : ∀ i e, c.threads i = .done (.error e) → i ∉ done.map Prod.fst

/-- Under every schedule of approvals, rejections and disbursements, a loan is paid out
at most once. -/
theorem disbursed_at_most_once (calls : ι → LoanCall) {s : Db} (hterms : s.TermsPositive)
    (sched : List ι) : ∃ done, PaidOnce s ((loanPool calls s).run sched) done := by
  obtain ⟨d, done, hfollows, hlog, hpaid⟩ := Pool.run_log (A := fun _ _ => True)
    (J := fun t done => PaidOut s t done) (fun _ _ _ _ _ _ hguar _ => PaidOut.step hguar)
    (c := loanPool calls s) (fun i => (calls i).follows hterms)
    ⟨List.nodup_nil, .refl s, nofun⟩ (Pool.allowed_true _ sched)
  refine ⟨done, hpaid.loans, hlog.nodup, hpaid.state, ?_, ?_⟩
  · intro i loanId hi
    have hend := hfollows i
    rw [hi] at hend
    obtain ⟨p, hp, hloan⟩ := Option.map_eq_some_iff.mp (show (d i).map _ = some loanId from hend)
    exact ⟨p, (hlog.mem_iff i p).mp hp, hloan⟩
  · intro i e hi
    have hend := hfollows i
    rw [hi] at hend
    exact hlog.eq_none_iff.mp hend

end Calls

/-! ## A loan that is approved again -/

/-- The language, as far as loans without business rules need it. -/
def plainJs : Js where
  property context path :=
    match path with
    | ["principal"] => some ⟨some context.principal, toString context.principal⟩
    | ["termMonths"] => some ⟨some context.termMonths, toString context.termMonths⟩
    | ["interestRate"] => some ⟨some context.interestRate, toString context.interestRate⟩
    | _ => none
  value
    | .number x => ⟨some x, toString x⟩
    | .text text => ⟨none, text⟩
  toLowerCase := String.toLower
  toLocaleString x := toString x

/-- An institution that can pay out loans, without any loan. -/
def lendingLedger : Db :=
  (((((Db.empty.insert .gLAccount
    { institutionId := 1, code := "1000", name := "Cash", category := .asset }).insert .gLAccount
    { institutionId := 1, code := "1200", name := "Loans", category := .asset }).insert
      .loanGLAccountMapping ⟨1, "Cash/Bank (Disbursement)", 1⟩).insert
      .loanGLAccountMapping ⟨1, "Loan Receivable", 2⟩).insert
      .financialPeriod { institutionId := 1, startDate := 0, endDate := 10 }).insert
      .vault { institutionId := 1, name := "Main", balance := 50000, status := .opened }

/-- An approved loan of 100.00 over two months. -/
def approvedLoan : Loan :=
  { institutionId := 1, customerId := 1, principal := 10000, interestRate := 0, termMonths := 2,
    status := .approved, initiatedById := some 1 }

theorem termsPositive_approvedLoan : (lendingLedger.insert .loan approvedLoan).TermsPositive := by
  intro id loan hl
  rw [Db.find?_insert] at hl
  split at hl
  · rw [← Option.some.inj hl]
    decide
  · exact absurd hl nofun

/-- A user disburses the loan twice, and another one approves it in between. -/
def disburseTwice : Fin 3 → LoanCall
  | 0 => .disburse plainJs ⟨1, 2⟩ 1 1 (some 1)
  | 1 => .approve plainJs ⟨1, 3⟩ 1 1
  | 2 => .disburse plainJs ⟨1, 2⟩ 2 1 (some 1)

theorem disbursed_at_most_once_disburseTwice :
    ∃ done, PaidOnce (lendingLedger.insert .loan approvedLoan)
      ((loanPool disburseTwice (lendingLedger.insert .loan approvedLoan)).run
        (List.replicate 16 0 ++ List.replicate 8 1 ++ List.replicate 16 2)) done :=
  disbursed_at_most_once disburseTwice termsPositive_approvedLoan _

end NexusEfos
