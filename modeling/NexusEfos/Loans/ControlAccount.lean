/-
The control account of an institution's loans.

A disbursement debits Loan Receivable with the principal, and a repayment credits it
with the whole amount.  The installments divide the amount between interest and
principal and leave an excess aside; the ledger does not.  So the account holds the
principal that was paid out less everything that was repaid (`receivable_eq`), which
is what the installments say only as long as no interest is paid
(`receivable_misses_interest`).
-/
import NexusEfos.Collections.Transactions
import NexusEfos.Loans.Disbursements
import NexusEfos.Loans.Payments
import NexusEfos.Savings.Control

namespace NexusEfos

/-! ## What is compared -/

namespace Db

/-- The institution of a loan. -/
def loanOwner? (s : Db) (loanId : Id) : Option Id :=
  (s.find? .loan loanId).map fun l => l.institutionId

/-- The principal of an institution's disbursed loans. -/
def disbursedTotal (s : Db) (institutionId : Id) : Cents :=
  (s.table .loan).total fun _ l =>
    if l.institutionId = institutionId ∧ l.disbursedAt.isSome then l.principal else 0

/-- Everything that was repaid on an institution's loans. -/
def repaidToInstitution (s : Db) (institutionId : Id) : Cents :=
  (s.table .loanRepayment).total fun _ r =>
    if s.loanOwner? r.loanId = some institutionId then r.amount else 0

/-- The principal that is paid on the installments of a loan. -/
def principalPaid (s : Db) (loanId : Id) : Cents :=
  (s.table .loanInstallment).total fun _ i => if i.loanId = loanId then i.principalPaid else 0

/-- The principal of an institution's disbursed loans, less what is paid of it on their
installments. -/
def principalOutstanding (s : Db) (institutionId : Id) : Cents :=
  (s.table .loan).total fun id l =>
    if l.institutionId = institutionId ∧ l.disbursedAt.isSome then
      l.principal - s.principalPaid id
    else 0

end Db

/-- The loan mapping of an institution is complete: its receivable is an asset account, and
none of the accounts in which money is kept. -/
structure LoansControl (s : Db) (institutionId receivable : Id) : Prop where
  mapped : s.loanGLAccount? institutionId "Loan Receivable" = some receivable
  category_eq : s.category? receivable = some .asset
  cash : ∃ g, s.loanGLAccount? institutionId "Cash/Bank (Disbursement)" = some g ∧ g ≠ receivable
  custody : ∃ g, s.loanGLAccount? institutionId "Collector Cash Custody" = some g ∧ g ≠ receivable

/-! ## What a call does -/

/-- The tables of the loans, and those that say where a loan is posted. -/
def lendingTables : List Model :=
  [.loan, .loanRepayment, .gLAccount, .savingsAccount, .savingsGLAccountMapping,
    .loanGLAccountMapping]

theorem Db.Evolves.of_lendingTables {s t : Db} (h : s.Agree lendingTables t) : s.Evolves t where
  savingsMappings := h _ (by decide)
  loanMappings := h _ (by decide)
  chart := fun a => by
    unfold category?
    rw [h.find? (by decide)]
  owners := fun a => by
    unfold owner?
    rw [h.find? (by decide)]

namespace Db

/-- The loan is paid out from one ledger account to another. -/
def payOutLoan (s : Db) (loanId : Id) (now : DateTime) (lines : List JournalLineInput) : Db :=
  (s.applyEffects lines).modify .loan loanId fun l =>
    { l with status := .disbursed, disbursedAt := some now }

/-- A repayment is recorded, and the status of the loan is rewritten. -/
def recordRepayment (s : Db) (row : LoanRepayment) (rewrite : LoanStatus → LoanStatus)
    (lines : List JournalLineInput) : Db :=
  ((s.insert .loanRepayment row).modify .loan row.loanId fun l =>
    { l with status := rewrite l.status }).applyEffects lines

end Db

/-- What a call to disburse a loan or to record a repayment does to the loans and the
ledger. -/
inductive LendingOutcome (allowed : ℚ → Prop) (s : Db) : Db → Prop
  | kept {t : Db} (h : s.Agree lendingTables t) : LendingOutcome allowed s t
  | disbursed {t : Db} {loanId : Id} {loan : Loan} {now : DateTime} {receivable cash : Id × GLAccount}
      (hloan : s.find? .loan loanId = some loan) (hstatus : loan.status = .approved)
      (hpair : LoanPair s loan.institutionId cash receivable)
      (h : (s.payOutLoan loanId now
        (doubleEntry receivable cash (toNumber loan.principal))).Agree lendingTables t) :
      LendingOutcome allowed s t
  | repaid {t : Db} {loanId : Id} {loan : Loan} {x : ℚ} {recordedById : Option Id}
      {rewrite : LoanStatus → LoanStatus} {money receivable : Id × GLAccount} (hx : allowed x)
      (hloan : s.find? .loan loanId = some loan)
      (hrewrite : ∀ status, rewrite status = .approved → status = .approved)
      (hpair : LoanPair s loan.institutionId money receivable)
      (h : (s.recordRepayment ⟨loanId, ofNumber x, recordedById, none⟩ rewrite
        (doubleEntry money receivable x)).Agree lendingTables t) :
      LendingOutcome allowed s t

section Outcomes

variable {allowed : ℚ → Prop} {s t u : Db}

theorem LendingOutcome.agree (h : LendingOutcome allowed s t) (hsame : t.Agree lendingTables u) :
    LendingOutcome allowed s u := by
  cases h with
  | kept h => exact .kept (h.trans hsame)
  | disbursed hloan hstatus hpair h => exact .disbursed hloan hstatus hpair (h.trans hsame)
  | repaid hx hloan hrewrite hpair h => exact .repaid hx hloan hrewrite hpair (h.trans hsame)

/-- The call may have been preceded by writes to other tables. -/
theorem LendingOutcome.of_agree (hsame : s.Agree lendingTables t)
    (h : LendingOutcome allowed t u) : LendingOutcome allowed s u := by
  have hback := Db.Evolves.of_lendingTables hsame.symm
  cases h with
  | kept h => exact .kept (hsame.trans h)
  | @disbursed loanId loan now receivable cash hloan hstatus hpair h =>
    rw [hsame.find? (by decide)] at hloan
    have hlines := hsame.applyEffects_congr (doubleEntry receivable cash (toNumber loan.principal))
    exact .disbursed hloan hstatus (hpair.of_evolves hback) ((hlines.modify_congr _ _).trans h)
  | @repaid loanId loan x recordedById rewrite money receivable hx hloan hrewrite hpair h =>
    rw [hsame.find? (by decide)] at hloan
    have hrow := hsame.insert_congr (m := .loanRepayment) ⟨loanId, ofNumber x, recordedById, none⟩
    have hstatus := hrow.modify_congr (m := .loan) loanId fun l =>
      { l with status := rewrite l.status }
    exact .repaid hx hloan hrewrite (hpair.of_evolves hback)
      ((hstatus.applyEffects_congr (doubleEntry money receivable x)).trans h)

/-! ## The handlers -/

/-- How a call ends: with one of the outcomes. -/
def EndsLending {α : Type} (allowed : ℚ → Prop) (p : Handler α) (s : Db) : Prop :=
  p.Ends (fun _ t => LendingOutcome allowed s t) s

/-- The two accounts of a journal, read one after the other. -/
theorem LoanPair.of_found {institutionId : Id} {money receivable : Id} {m r : GLAccount}
    (hmoney : s.loanGLAccount? institutionId "Cash/Bank (Disbursement)" = some money ∨
      s.loanGLAccount? institutionId "Collector Cash Custody" = some money)
    (hreceivable : s.loanGLAccount? institutionId "Loan Receivable" = some receivable)
    (hm : s.find? .gLAccount money = some m) (hr : s.find? .gLAccount receivable = some r) :
    LoanPair s institutionId (money, m) (receivable, r) where
  money_mapped := hmoney
  receivable_mapped := hreceivable
  money_category := by rw [Db.category?, hm]; rfl
  receivable_category := by rw [Db.category?, hr]; rfl

/-- The transaction of a disbursement pays out its loan. -/
theorem Disbursement.agree_payOutLoan {d : Disbursement} {loan : Loan}
    (h : d.inTx.run s = (.ok loan, t)) :
    (s.payOutLoan d.loanId d.now d.journalLines).Agree lendingTables t := by
  obtain ⟨-, -, -, -, rfl⟩ := d.run_inTx_eq_ok h
  have hvault : s.Agree lendingTables (d.pay s) :=
    (Db.Agree.modify (by decide) s d.vaultId _).trans (.insert (by decide) _ _)
  have hjournal : s.Agree lendingTables ((d.pay s).insert .journal d.journal) :=
    hvault.trans (.insert (by decide) _ _)
  have hlines : (s.applyEffects d.journalLines).Agree lendingTables (d.post (d.pay s)) :=
    hjournal.applyEffects_congr d.journalLines
  have hpaid : (s.applyEffects d.journalLines).Agree lendingTables (d.payOut s) :=
    hlines.trans (.insertAll (by decide) _ _)
  exact hpaid.modify_congr (m := .loan) d.loanId d.disburse

/-- The transaction of a repayment and what follows it. -/
theorem ends_repayInTx {α : Type} {k : Id × Bool → Handler α} {lab : Access} {auth : Auth}
    {now : DateTime} {loanId : Id} {loan : Loan} {x : ℚ} {description : String}
    {money receivable : Id × GLAccount} (hx : allowed x)
    (hloan : s.find? .loan loanId = some loan)
    (hpair : LoanPair s loan.institutionId money receivable)
    (hk : ∀ r, Quiet lendingTables (k r)) :
    EndsLending allowed (Proc.transaction lab
      (repayInTx auth now loanId x description (doubleEntry money receivable x)) >>= k) s := by
  refine .transaction (fun r t hrun => ?_) fun e => .kept (.refl s)
  obtain ⟨loan', hloan', -, -, ht⟩ := run_repayInTx_eq hrun
  have hrest : t.Agree lendingTables ((k r).run t).2 := (hk r).run t
  have hrepay : (s.insert .loanRepayment ⟨loanId, ofNumber x, some auth.userId, none⟩).Agree lendingTables
      (s.repay loanId x auth.userId) := by
    intro m hm
    exact Db.table_foldl_allocation (fun heq => absurd (heq ▸ hm) (by decide)) _ _
  have hstatus := hrepay.modify_congr (m := .loan) loanId fun l =>
    { l with status := (s.repay loanId x auth.userId).statusAfter loanId l.status }
  have hjournal : (s.repayLoan loanId x auth.userId).Agree lendingTables
      ((s.repayLoan loanId x auth.userId).insert .journal
        (automaticJournal auth now description (doubleEntry money receivable x))) :=
    .insert (by decide) _ _
  have hlines := (hstatus.trans hjournal).applyEffects_congr (doubleEntry money receivable x)
  rw [← ht] at hlines
  refine .repaid hx hloan (fun status hstatus => ?_) hpair (hlines.trans hrest)
  unfold Db.statusAfter at hstatus
  split at hstatus
  · exact absurd hstatus nofun
  · split at hstatus
    · exact absurd hstatus nofun
    · exact hstatus

/-- A part of the code that touches none of the tables comes first. -/
theorem ends_lending_quiet {α β : Type} {p : Handler β} (hp : Quiet lendingTables p)
    {k : β → Handler α} (hk : ∀ b t, s.Agree lendingTables t → EndsLending allowed (k b) t) :
    EndsLending allowed (p >>= k) s :=
  hp.ends (fun b t ht => (hk b t ht).imp fun _ _ => .of_agree ht) fun _ _ => .kept

theorem recordRepayment_ends (auth : Auth) (now : DateTime) (loanId : Id) (x : ℚ) (hx : allowed x)
    (s : Db) : EndsLending allowed (recordRepayment auth now loanId x) s := by
  have herr : LendingOutcome allowed s s := .kept (.refl s)
  refine .require (fun _ => ?_) fun _ => herr
  refine ends_query (.orFail (fun loan hloan => ?_) fun _ => herr)
  obtain ⟨hfound, howner⟩ := Option.filter_eq_some_iff.mp hloan
  refine ends_query (.orFail (fun r hr => ?_) fun _ => herr)
  obtain ⟨hreceivable, hcash⟩ := both_eq_some hr
  refine ends_lending_quiet (.requirePostablePeriod _ _) fun _ t ht => ?_
  have herr : LendingOutcome allowed t t := .kept (.refl t)
  refine ends_findUniqueOrThrow (fun receivable hr => ends_findUniqueOrThrow (fun cash hc => ?_) herr)
    herr
  refine .require (fun _ => ?_) fun _ => herr
  have hmapping := (Db.Evolves.of_lendingTables ht).loanGLAccount? auth.institutionId
  have hpair : LoanPair t auth.institutionId (r.2, cash) (r.1, receivable) :=
    .of_found (.inl ((hmapping _).trans hcash)) ((hmapping _).trans hreceivable) hc hr
  rw [← of_decide_eq_true howner] at hpair
  refine ends_repayInTx hx ((ht.find? (by decide) _).trans hfound) hpair fun result => ?_
  exact (Quiet.create (by decide) _).bind fun _ => .pure _

theorem collectLoanRepayment_ends (auth : Auth) (now : DateTime) (body : RecordCollection)
    (hx : allowed body.amount) (s : Db) :
    EndsLending allowed (collectLoanRepayment auth now body) s := by
  have herr : LendingOutcome allowed s s := .kept (.refl s)
  refine ends_query (.orFail (fun loan hloan => ?_) fun _ => herr)
  obtain ⟨hfound, howner⟩ := Option.filter_eq_some_iff.mp hloan
  refine ends_query (.orFail (fun r hr => ?_) fun _ => herr)
  obtain ⟨hcustody, hreceivable⟩ := both_eq_some hr
  refine ends_findUniqueOrThrow (fun custody hc => ends_findUniqueOrThrow (fun receivable hr => ?_)
    herr) herr
  refine .require (fun _ => ?_) fun _ => herr
  have hpair : LoanPair s auth.institutionId (r.1, custody) (r.2, receivable) :=
    .of_found (.inr hcustody) hreceivable hc hr
  rw [← (of_decide_eq_true howner).1] at hpair
  exact ends_repayInTx hx hfound hpair fun _ => .pure _

/-- A collection of a repayment. -/
theorem recordCollection_ends (auth : Auth) (now : DateTime) (body : RecordCollection)
    (htype : body.type = .loanRepayment) (hx : allowed body.amount) (s : Db) :
    EndsLending allowed (recordCollection auth now body) s := by
  have herr : LendingOutcome allowed s s := .kept (.refl s)
  refine .require (fun _ => ?_) fun _ => herr
  refine ends_query (.orFail (fun collector _ => ?_) fun _ => herr)
  refine .require (fun _ => ?_) fun _ => herr
  refine ends_lending_quiet ((Quiet.query _).bind fun _ => .pure _) fun _ t _ => ?_
  refine .require (fun _ => ?_) fun _ => .kept (.refl t)
  refine ends_lending_quiet (.requirePostablePeriod _ _) fun _ u _ => ?_
  rw [htype]
  refine (collectLoanRepayment_ends auth now body hx u).bind (fun _ v hv => ?_) fun _ _ => id
  have hrest : Quiet lendingTables (do
      let collection ←
        createAs { collects := some (body.collectorId, now) } .collectionTransaction
        { institutionId := auth.institutionId, type := .loanRepayment,
          collectorId := body.collectorId, customerId := body.customerId,
          targetId := body.targetId, amount := ofNumber body.amount, collectedAt := now,
          recordedById := auth.userId }
      let _ ← create .auditLog
        { institutionId := auth.institutionId, userId := some auth.userId,
          action := "collection.transaction_recorded", resource := "collection_transaction",
          resourceId := some collection }
      return collection) :=
    (Quiet.createAs (by decide) _ _).bind fun _ => (Quiet.create (by decide) _).bind fun _ => .pure _
  exact hv.agree (hrest.run v)

theorem disburseLoan_ends (js : Js) (auth : Auth) (now : DateTime) (loanId : Id)
    (vaultId : Option Id) (s : Db) :
    EndsLending allowed (disburseLoan js auth now loanId vaultId) s := by
  have herr : LendingOutcome allowed s s := .kept (.refl s)
  refine .orFail (fun vaultId _ => ?_) fun _ => herr
  refine ends_query (.orFail (fun loan hloan => ?_) fun _ => herr)
  obtain ⟨hfound, howner⟩ := Option.filter_eq_some_iff.mp hloan
  refine .require (fun hstatus => ?_) fun _ => herr
  refine ends_query (.orFail (fun vault _ => ?_) fun _ => herr)
  refine .require (fun _ => ?_) fun _ => herr
  refine ends_query (.require (fun _ => ?_) fun _ => herr)
  refine ends_query ?_
  refine ends_lending_quiet (.matchRules _ _ _ _ _) fun matched t₁ h₁ => ?_
  refine ends_lending_quiet (.requireUnblocked _ _) fun _ t₂ h₂ => ?_
  have herr : LendingOutcome allowed t₂ t₂ := .kept (.refl t₂)
  refine ends_query (.orFail (fun r hr => ?_) fun _ => herr)
  obtain ⟨hreceivable, hcash⟩ := both_eq_some hr
  refine ends_lending_quiet (.requirePostablePeriod _ _) fun _ t h₃ => ?_
  have herr : LendingOutcome allowed t t := .kept (.refl t)
  refine ends_findUniqueOrThrow (fun receivable hr => ends_findUniqueOrThrow (fun cash hc => ?_) herr)
    herr
  refine .require (fun _ => ?_) fun _ => herr
  have hmapping := (Db.Evolves.of_lendingTables h₃).loanGLAccount? auth.institutionId
  have hpair : LoanPair t auth.institutionId (r.2, cash) (r.1, receivable) :=
    .of_found (.inl ((hmapping _).trans hcash)) ((hmapping _).trans hreceivable) hc hr
  rw [← of_decide_eq_true howner] at hpair
  have hloan' : t.find? .loan loanId = some loan :=
    (((h₁.trans h₂).trans h₃).find? (m := .loan) (by decide) loanId).trans hfound
  refine .transaction (fun updated u hrun => ?_) fun e => herr
  have hrest : Quiet lendingTables (do
      let _ ← create .auditLog
        { institutionId := auth.institutionId, userId := some auth.userId,
          action := "loan.disburse", resource := "loan", resourceId := some loanId }
      let _ ← executeMatchedRules auth.institutionId auth.userId "Loan" loanId matched
      return updated) :=
    (Quiet.create (by decide) _).bind fun _ =>
      (Quiet.executeMatchedRules (by decide) (by decide) _ _ _ _ _).bind fun _ => .pure _
  have hpaid := Disbursement.agree_payOutLoan (d := ⟨auth, now, loanId, vaultId, loan.principal,
    doubleEntry (r.1, receivable) (r.2, cash) (toNumber loan.principal), _⟩) hrun
  exact .disbursed hloan' hstatus hpair (hpaid.trans (hrest.run u))

end Outcomes

/-! ## What an outcome does to the account -/

/-- A debit of whole cents moves an asset account up, and a credit moves it down. -/
theorem movementOf_asset_debited {debited credited : Id × GLAccount}
    (hne : debited.1 ≠ credited.1) (hasset : debited.2.category = .asset) (c : Cents) :
    movementOf (doubleEntry debited credited (toNumber c)) debited.1 = c := by
  rw [movementOf_debited hne, hasset]
  show round (toNumber c * 100) = c
  rw [toNumber_mul_hundred, round_intCast]

theorem movementOf_asset_credited {debited credited : Id × GLAccount}
    (hne : debited.1 ≠ credited.1) (hasset : credited.2.category = .asset) (c : Cents) :
    movementOf (doubleEntry debited credited (toNumber c)) credited.1 = -c := by
  rw [movementOf_credited hne, hasset]
  show round (-toNumber c * 100) = -c
  rw [← toNumber_neg, toNumber_mul_hundred, round_intCast]

section Totals

variable {s t : Db} {institutionId : Id}

theorem Db.loanOwner?_of_find? {loanId : Id} {loan : Loan} (h : s.find? .loan loanId = some loan) :
    s.loanOwner? loanId = some loan.institutionId := by
  rw [loanOwner?, h]
  rfl

/-- A loan is rewritten and stays with its institution. -/
theorem Db.loanOwner?_modify {f : Loan → Loan} (hf : ∀ l, (f l).institutionId = l.institutionId)
    (s : Db) (id loanId : Id) : (s.modify .loan id f).loanOwner? loanId = s.loanOwner? loanId := by
  rw [loanOwner?, find?_modify]
  by_cases h : loanId = id
  · rw [if_pos h, Option.map_map]
    exact Option.map_congr fun l _ => hf l
  · rw [if_neg h]
    rfl

theorem Db.disbursedTotal_congr (h : t.table .loan = s.table .loan) :
    t.disbursedTotal institutionId = s.disbursedTotal institutionId := by
  unfold disbursedTotal
  rw [h]

/-- Repayments are the same, and loans are with the same institutions. -/
theorem Db.repaidToInstitution_congr (h : t.table .loanRepayment = s.table .loanRepayment)
    (howner : ∀ loanId, t.loanOwner? loanId = s.loanOwner? loanId) :
    t.repaidToInstitution institutionId = s.repaidToInstitution institutionId := by
  unfold repaidToInstitution
  rw [h]
  simp only [howner]

theorem Db.loanOwner?_congr (h : t.table .loan = s.table .loan) (loanId : Id) :
    t.loanOwner? loanId = s.loanOwner? loanId := by
  unfold loanOwner? find?
  rw [h]

/-- A loan that is paid out for the first time. -/
theorem Db.disbursedTotal_payOutLoan {loanId : Id} {loan : Loan}
    (hloan : s.find? .loan loanId = some loan) (hfirst : loan.disbursedAt = none) (now : DateTime)
    (lines : List JournalLineInput) :
    (s.payOutLoan loanId now lines).disbursedTotal institutionId = s.disbursedTotal institutionId +
      if loan.institutionId = institutionId then loan.principal else 0 := by
  have hsame : (s.applyEffects lines).table .loan = s.table .loan := table_applyEffects (by decide) _ _
  have hfound : ((s.applyEffects lines).table .loan).get? loanId = some loan := by
    rw [hsame]
    exact hloan
  rw [disbursedTotal, payOutLoan, table_modify_self, OrderedMap.total_modify_of_some hfound, hsame,
    hfirst]
  by_cases h : loan.institutionId = institutionId
  · simp [h, disbursedTotal]
  · simp [h, disbursedTotal]

/-- Its status does not matter. -/
theorem Db.disbursedTotal_recordRepayment (s : Db) (row : LoanRepayment)
    (rewrite : LoanStatus → LoanStatus) (lines : List JournalLineInput) :
    (s.recordRepayment row rewrite lines).disbursedTotal institutionId =
      s.disbursedTotal institutionId := by
  rw [recordRepayment, disbursedTotal_congr (table_applyEffects (by decide) _ _), disbursedTotal,
    table_modify_self, table_insert_of_ne (by decide)]
  refine OrderedMap.total_modify_of_eq ?_ _
  exact fun _ => rfl

/-- What was repaid counts for the institution of the loan. -/
theorem Db.repaidToInstitution_recordRepayment {row : LoanRepayment} {loan : Loan}
    (hloan : s.find? .loan row.loanId = some loan) (rewrite : LoanStatus → LoanStatus)
    (lines : List JournalLineInput) :
    (s.recordRepayment row rewrite lines).repaidToInstitution institutionId =
      s.repaidToInstitution institutionId +
        if loan.institutionId = institutionId then row.amount else 0 := by
  have howner : ∀ loanId, (s.recordRepayment row rewrite lines).loanOwner? loanId =
      s.loanOwner? loanId := by
    intro loanId
    rw [recordRepayment, loanOwner?_congr (table_applyEffects (by decide) _ _)]
    refine (loanOwner?_modify ?_ _ _ _).trans (loanOwner?_congr (table_insert_of_ne (by decide) _ _) _)
    exact fun _ => rfl
  have hrows : (s.recordRepayment row rewrite lines).table .loanRepayment =
      (s.table .loanRepayment).create row := by
    rw [recordRepayment, table_applyEffects (by decide), table_modify_of_ne (by decide),
      table_insert_self]
  unfold repaidToInstitution
  rw [hrows, OrderedMap.total_create]
  simp only [howner, loanOwner?_of_find? hloan, Option.some.injEq]

end Totals

/-- The account holds what was paid out less what was repaid, and a loan that is to be
paid out has not been. -/
structure LoansAgree (s : Db) (institutionId receivable : Id) : Prop where
  undisbursed : ∀ id loan, s.find? .loan id = some loan → loan.status = .approved →
    loan.disbursedAt = none
  balance_eq : s.glBalance receivable =
    s.disbursedTotal institutionId - s.repaidToInstitution institutionId

namespace LoansControl

variable {s₀ s : Db} {institutionId receivable : Id}

/-- The lines of a loan of the institution name the account, and no account twice. -/
theorem pair_eq (h : LoansControl s₀ institutionId receivable) (he : s₀.Evolves s)
    {money credited : Id × GLAccount} (hpair : LoanPair s institutionId money credited) :
    credited.1 = receivable ∧ credited.2.category = .asset ∧ money.1 ≠ receivable := by
  have hcredited : credited.1 = receivable := by
    have hmapped := hpair.receivable_mapped
    rw [he.loanGLAccount?, h.mapped] at hmapped
    exact (Option.some.inj hmapped).symm
  refine ⟨hcredited, ?_, ?_⟩
  · have hcategory := hpair.receivable_category
    rw [he.chart, hcredited, h.category_eq] at hcategory
    exact (Option.some.inj hcategory).symm
  · intro heq
    obtain ⟨cash, hcash, hcash'⟩ := h.cash
    obtain ⟨custody, hcustody, hcustody'⟩ := h.custody
    have hmoney := hpair.money_mapped
    rw [he.loanGLAccount?, he.loanGLAccount?, hcash, hcustody, heq] at hmoney
    rcases hmoney with hmoney | hmoney
    · exact hcash' (Option.some.inj hmoney)
    · exact hcustody' (Option.some.inj hmoney)

/-- A loan of another institution is posted elsewhere. -/
theorem pair_ne (h : LoansControl s₀ institutionId receivable) (howned : s₀.MappingsOwned)
    (he : s₀.Evolves s) {i : Id} (hi : i ≠ institutionId) {money credited : Id × GLAccount}
    (hpair : LoanPair s i money credited) : receivable ≠ money.1 ∧ receivable ≠ credited.1 :=
  (hpair.of_evolves he.symm).ne_of_owner howned hi (howned.loan h.mapped)

end LoansControl

section Outcome

variable {s₀ s t : Db} {institutionId receivable : Id}

/-- A loan that is to be paid out has not been, when its status and its date have been rewritten. -/
theorem Db.undisbursed_modify {f : Loan → Loan} {s : Db}
    (h : ∀ id loan, s.find? .loan id = some loan → loan.status = .approved → loan.disbursedAt = none)
    (hf : ∀ l : Loan, (f l).status = .approved → l.status = .approved ∧ (f l).disbursedAt = l.disbursedAt)
    (loanId : Id) : ∀ id loan, (s.modify .loan loanId f).find? .loan id = some loan →
      loan.status = .approved → loan.disbursedAt = none := by
  intro id loan hloan hstatus
  rw [Db.find?_modify] at hloan
  by_cases hid : id = loanId
  · rw [if_pos hid] at hloan
    obtain ⟨l, hl, rfl⟩ := Option.map_eq_some_iff.mp hloan
    obtain ⟨happroved, hdate⟩ := hf l hstatus
    rw [hdate]
    exact h id l hl happroved
  · rw [if_neg hid] at hloan
    exact h id loan hloan hstatus

theorem LoansAgree.congr (h : LoansAgree s institutionId receivable)
    (hsame : s.Agree lendingTables t) : LoansAgree t institutionId receivable := by
  constructor
  · intro id loan hloan
    rw [hsame.find? (by decide)] at hloan
    exact h.undisbursed id loan hloan
  · have hloans := hsame .loan (by decide)
    rw [Db.glBalance_congr (hsame _ (by decide)), Db.disbursedTotal_congr hloans,
      Db.repaidToInstitution_congr (hsame _ (by decide)) (Db.loanOwner?_congr hloans)]
    exact h.balance_eq

/-- Every outcome keeps the agreement. -/
theorem LoansAgree.outcome (h : LoansAgree s institutionId receivable)
    (hcontrol : LoansControl s₀ institutionId receivable) (howned : s₀.MappingsOwned)
    (he : s₀.Evolves s) (hstep : LendingOutcome WholeCent s t) :
    LoansAgree t institutionId receivable := by
  have hfound : (s.find? .gLAccount receivable).isSome :=
    Db.isSome_of_category? ((he.chart receivable).trans hcontrol.category_eq)
  cases hstep with
  | kept hsame => exact h.congr hsame
  | @disbursed loanId loan now debited cash hloan hstatus hpair hsame =>
    refine LoansAgree.congr ⟨?_, ?_⟩ hsame
    · refine Db.undisbursed_modify (fun id l hl => ?_) ?_ loanId
      · rw [Db.find?_applyEffects_of_ne (by decide)] at hl
        exact h.undisbursed id l hl
      · intro l hl
        exact absurd hl nofun
    · have hmoves : movementOf (doubleEntry debited cash (toNumber loan.principal)) receivable =
          if loan.institutionId = institutionId then loan.principal else 0 := by
        by_cases hi : loan.institutionId = institutionId
        · rw [hi] at hpair
          obtain ⟨hdebited, hasset, hcash⟩ := hcontrol.pair_eq he hpair
          rw [if_pos hi, ← hdebited]
          rw [← hdebited] at hcash
          exact movementOf_asset_debited hcash.symm hasset _
        · obtain ⟨hcash, hdebited⟩ := hcontrol.pair_ne howned he hi hpair
          rw [if_neg hi]
          exact movementOf_other hdebited hcash _
      have hrepaid : (s.payOutLoan loanId now (doubleEntry debited cash
          (toNumber loan.principal))).repaidToInstitution institutionId =
            s.repaidToInstitution institutionId := by
        refine Db.repaidToInstitution_congr ?_ fun l => ?_
        · rw [Db.payOutLoan, Db.table_modify_of_ne (by decide), Db.table_applyEffects (by decide)]
        · refine (Db.loanOwner?_modify ?_ _ _ _).trans
            (Db.loanOwner?_congr (Db.table_applyEffects (by decide) _ _) _)
          exact fun _ => rfl
      have hbalance : (s.payOutLoan loanId now (doubleEntry debited cash
          (toNumber loan.principal))).glBalance receivable = s.glBalance receivable +
            movementOf (doubleEntry debited cash (toNumber loan.principal)) receivable := by
        rw [Db.payOutLoan, Db.glBalance_congr (Db.table_modify_of_ne (by decide) _ _ _),
          Db.glBalance_applyEffects hfound]
      rw [hbalance, hmoves, hrepaid, Db.disbursedTotal_payOutLoan hloan
        (h.undisbursed loanId loan hloan hstatus), h.balance_eq]
      ring
  | @repaid loanId loan x recordedById rewrite money credited hx hloan hrewrite hpair hsame =>
    obtain ⟨c, rfl⟩ := hx
    refine LoansAgree.congr ⟨?_, ?_⟩ hsame
    · intro id l hl
      rw [Db.recordRepayment, Db.find?_applyEffects_of_ne (by decide)] at hl
      revert id l
      refine Db.undisbursed_modify (fun id l hl => ?_) ?_ loanId
      · rw [Db.find?_insert_of_ne (by decide)] at hl
        exact h.undisbursed id l hl
      · intro l hl
        exact ⟨hrewrite l.status hl, rfl⟩
    · have hmoves : movementOf (doubleEntry money credited (toNumber c)) receivable =
          if loan.institutionId = institutionId then -c else 0 := by
        by_cases hi : loan.institutionId = institutionId
        · rw [hi] at hpair
          obtain ⟨hcredited, hasset, hmoney⟩ := hcontrol.pair_eq he hpair
          rw [if_pos hi, ← hcredited]
          rw [← hcredited] at hmoney
          exact movementOf_asset_credited hmoney hasset c
        · obtain ⟨hmoney, hcredited⟩ := hcontrol.pair_ne howned he hi hpair
          rw [if_neg hi]
          exact movementOf_other hmoney hcredited _
      have hbalance : (s.recordRepayment ⟨loanId, ofNumber (toNumber c), recordedById, none⟩ rewrite
          (doubleEntry money credited (toNumber c))).glBalance receivable =
            s.glBalance receivable +
              movementOf (doubleEntry money credited (toNumber c)) receivable := by
        have hgl : ((s.insert .loanRepayment ⟨loanId, ofNumber (toNumber c), recordedById, none⟩).modify
            .loan loanId fun l => { l with status := rewrite l.status }).table .gLAccount =
              s.table .gLAccount := by
          rw [Db.table_modify_of_ne (by decide), Db.table_insert_of_ne (by decide)]
        rw [Db.recordRepayment, Db.glBalance_applyEffects, Db.glBalance_congr hgl]
        rw [Db.find?, hgl]
        exact hfound
      rw [hbalance, hmoves, Db.disbursedTotal_recordRepayment,
        Db.repaidToInstitution_recordRepayment hloan, ofNumber_toNumber, h.balance_eq]
      by_cases hi : loan.institutionId = institutionId
      · rw [if_pos hi, if_pos hi]
        ring
      · rw [if_neg hi, if_neg hi]
        ring

end Outcome

/-! ## Every sequential run -/

/-- A disbursement or a repayment, recorded directly or collected in the field. -/
inductive LendingOperation
  | disburse (js : Js) (auth : Auth) (now : DateTime) (loanId : Id) (vaultId : Option Id)
  | recordRepayment (auth : Auth) (now : DateTime) (loanId : Id) (amount : ℚ)
  | collectRepayment (auth : Auth) (now : DateTime) (collectorId customerId loanId : Id)
      (amount : ℚ)

namespace LendingOperation

/-- The code of an operation.  What it answers does not matter. -/
def handler : LendingOperation → Handler Unit
  | disburse js auth now loanId vaultId => do
    let _ ← disburseLoan js auth now loanId vaultId
  | recordRepayment auth now loanId amount => do
    let _ ← NexusEfos.recordRepayment auth now loanId amount
  | collectRepayment auth now collectorId customerId loanId amount => do
    let _ ← recordCollection auth now ⟨.loanRepayment, collectorId, customerId, loanId, amount⟩

/-- What is repaid is whole cents. -/
def IsWholeCent : LendingOperation → Prop
  | disburse .. => True
  | recordRepayment _ _ _ amount => WholeCent amount
  | collectRepayment _ _ _ _ _ amount => WholeCent amount

theorem ends (op : LendingOperation) (h : op.IsWholeCent) (s : Db) :
    EndsLending WholeCent op.handler s := by
  have hdone : ∀ {α : Type} {p : Handler α}, EndsLending WholeCent p s →
      EndsLending WholeCent (p >>= fun _ => (pure () : Handler Unit)) s :=
    fun hp => hp.bind (fun _ _ ht => ht) fun _ _ ht => ht
  cases op with
  | disburse js auth now loanId vaultId => exact hdone (disburseLoan_ends js auth now loanId vaultId s)
  | recordRepayment auth now loanId amount => exact hdone (recordRepayment_ends auth now loanId amount h s)
  | collectRepayment auth now collectorId customerId loanId amount =>
    exact hdone (recordCollection_ends auth now
      ⟨.loanRepayment, collectorId, customerId, loanId, amount⟩ rfl h s)

end LendingOperation

/-- What an outcome leaves as it is. -/
theorem LendingOutcome.evolves {allowed : ℚ → Prop} {s t : Db} (h : LendingOutcome allowed s t) :
    s.Evolves t := by
  have hloan : ∀ (u : Db) (id : Id) (f : Loan → Loan), u.Evolves (u.modify .loan id f) := by
    intro u id f
    have hsame : u.Agree books (u.modify .loan id f) := Db.Agree.modify (m := .loan) (by decide) u id f
    exact .of_agree hsame
  cases h with
  | kept h => exact .of_lendingTables h
  | disbursed _ _ _ h =>
    exact ((Db.Evolves.applyEffects s _).trans (hloan _ _ _)).trans (.of_lendingTables h)
  | repaid _ _ _ _ h =>
    refine .trans ?_ (.of_lendingTables h)
    exact ((Db.Evolves.insert (by decide) s _).trans (hloan _ _ _)).trans (.applyEffects _ _)

/-- After every sequential run of disbursements and repayments the account holds the
principal of the disbursed loans less everything that was repaid. -/
theorem receivable_eq {ops : List LendingOperation} {s : Db} {institutionId receivable : Id}
    (hcontrol : LoansControl s institutionId receivable) (howned : s.MappingsOwned)
    (hstart : LoansAgree s institutionId receivable) (hwhole : ∀ op ∈ ops, op.IsWholeCent) :
    (Proc.runAll (ops.map LendingOperation.handler) s).glBalance receivable =
      (Proc.runAll (ops.map LendingOperation.handler) s).disbursedTotal institutionId -
        (Proc.runAll (ops.map LendingOperation.handler) s).repaidToInstitution institutionId := by
  let Kept (t : Db) : Prop := s.Evolves t ∧ LoansAgree t institutionId receivable
  suffices h : Kept (Proc.runAll (ops.map LendingOperation.handler) s) from h.2.balance_eq
  have hbefore : Kept s := ⟨.refl s, hstart⟩
  refine Proc.runAll_induction ?_ hbefore (Proc.meetsAll_true _ s)
  intro p hp t ht _
  obtain ⟨op, hop, rfl⟩ := List.mem_map.mp hp
  have hend : LendingOutcome WholeCent t (op.handler.run t).2 := op.ends (hwhole op hop) t
  exact ⟨ht.1.trans hend.evolves, ht.2.outcome hcontrol howned ht.1 hend⟩

/-! ## A loan with interest -/

/-- An approved loan of 100.00 over one month at twelve per cent a year, and a collector. -/
def interestLedger : Db :=
  ((lendingLedger.insert .gLAccount
    { institutionId := 1, code := "1010", name := "Custody", category := .asset }).insert
      .loanGLAccountMapping ⟨1, "Collector Cash Custody", 3⟩).insert .loan
    { approvedLoan with interestRate := 12, termMonths := 1 }

/-- The loan is paid out, and repaid with its interest. -/
def repaidWithInterest : List LendingOperation :=
  [.disburse plainJs ⟨1, 2⟩ 1 1 (some 1), .recordRepayment ⟨1, 2⟩ 2 1 101]

theorem loansControl_interestLedger : LoansControl interestLedger 1 2 where
  mapped := by decide +kernel
  category_eq := rfl
  cash := ⟨1, by decide +kernel, by decide⟩
  custody := ⟨3, by decide +kernel, by decide⟩

theorem loansAgree_interestLedger : LoansAgree interestLedger 1 2 where
  undisbursed := by
    intro id loan hloan _
    have hmem : loan ∈ (interestLedger.table .loan).values :=
      OrderedMap.mem_values.mpr ⟨id, hloan⟩
    rw [List.mem_singleton.mp hmem]
    rfl
  balance_eq := by decide +kernel

theorem receivable_eq_repaidWithInterest :
    (Proc.runAll (repaidWithInterest.map LendingOperation.handler) interestLedger).glBalance 2 =
      (Proc.runAll (repaidWithInterest.map LendingOperation.handler) interestLedger).disbursedTotal 1 -
        (Proc.runAll (repaidWithInterest.map LendingOperation.handler)
          interestLedger).repaidToInstitution 1 := by
  refine receivable_eq loansControl_interestLedger (by decide +kernel) loansAgree_interestLedger
    fun op hop => ?_
  rcases List.mem_cons.mp hop with rfl | hop
  · trivial
  · rw [List.mem_singleton.mp hop]
    exact ⟨10100, by norm_num [toNumber]⟩

/-- The loan is paid off, and the account is below zero by the interest. -/
theorem receivable_misses_interest :
    LoansControl interestLedger 1 2 ∧ interestLedger.MappingsOwned ∧
      LoansAgree interestLedger 1 2 ∧ interestLedger.principalOutstanding 1 = 0 ∧
      (∀ op ∈ repaidWithInterest, op.IsWholeCent) ∧
      (Proc.runAll (repaidWithInterest.map LendingOperation.handler) interestLedger).glBalance 2 =
        -100 ∧
      (Proc.runAll (repaidWithInterest.map LendingOperation.handler)
        interestLedger).principalOutstanding 1 = 0 := by
  refine ⟨loansControl_interestLedger, by decide +kernel, loansAgree_interestLedger,
    by decide +kernel, fun op hop => ?_, by decide +kernel, by decide +kernel⟩
  rcases List.mem_cons.mp hop with rfl | hop
  · trivial
  · rw [List.mem_singleton.mp hop]
    exact ⟨10100, by norm_num [toNumber]⟩

end NexusEfos
