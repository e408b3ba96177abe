/-
Postings and inactive accounts.

The approval of a manual journal and the run of the recurring journals look at the status of
the accounts they post to.  The other paths find their accounts through mappings, and do not
look.  When the operations are executed one after the other, an inactive account is left alone
by those two in any case, and by all others as long as the accounts they are led to are not
inactive (`inactive_accounts_left_alone`).
-/
import NexusEfos.Approvals.PostedOnce
import NexusEfos.Operations.LedgerSteps

namespace NexusEfos

open Proc

/-! ## The accounts -/

/-- `createAccountSchema`. -/
structure AccountBody where
  code : String
  name : String
  category : GLAccountCategory

/-- `POST /accounts`. -/
def createAccount (auth : Auth) (body : AccountBody) : Handler Id := do
  Proc.require (1 ≤ jsLength body.code ∧ 1 ≤ jsLength body.name) .invalid
  let existing ← findFirst .gLAccount fun _ a =>
    a.institutionId = auth.institutionId ∧ a.code = body.code
  Proc.require (existing.isNone = true)
    (.http 400 ("Account code " ++ body.code ++ " is already in use"))
  let account ← create .gLAccount
    { institutionId := auth.institutionId, code := body.code, name := body.name,
      category := body.category }
  let _ ← create .auditLog
    { institutionId := auth.institutionId, userId := some auth.userId, action := "gl_account.create",
      resource := "gl_account", resourceId := some account }
  return account

/-- `PATCH /accounts/:id/status`. -/
def setAccountStatus (auth : Auth) (accountId : Id) (status : GLAccountStatus) : Handler Unit := do
  let updated ← updateGuarded .gLAccount accountId (fun a => a.institutionId = auth.institutionId)
    fun a => { a with status }
  Proc.require (updated = true) (.http 404 "Account not found")
  let _ ← create .auditLog
    { institutionId := auth.institutionId, userId := some auth.userId,
      action := "gl_account.status_change", resource := "gl_account", resourceId := some accountId }

/-- `POST /settlement-accounts` of `routes/interBranch.routes.ts`. -/
def createSettlementAccount (auth : Auth) (branchId : Id) (glAccountCode glAccountName : String) :
    Handler Id := do
  let existing ← findFirst .branchSettlementAccount fun _ a => a.branchId = branchId
  Proc.require (existing.isNone = true) (.http 400 "This branch already has a settlement account")
  let glAccount ← create .gLAccount
    { institutionId := auth.institutionId, code := glAccountCode, name := glAccountName,
      category := .liability }
  let settlementAccount ← create .branchSettlementAccount
    { institutionId := auth.institutionId, branchId, glAccountId := glAccount }
  let _ ← create .auditLog
    { institutionId := auth.institutionId, userId := some auth.userId,
      action := "branch_settlement_account.create", resource := "branch_settlement_account",
      resourceId := some settlementAccount }
  return settlementAccount

/-- An operation on the ledger or on its accounts.  The last constructor stands for every other
endpoint. -/
inductive AccountOperation
  | operation (op : LedgerOperation)
  | createAccount (auth : Auth) (body : AccountBody)
  | setAccountStatus (auth : Auth) (accountId : Id) (status : GLAccountStatus)
  | createSettlementAccount (auth : Auth) (branchId : Id) (glAccountCode glAccountName : String)
  | other (p : Handler Unit) (quiet : Quiet [.gLAccount, .journal] p)

def AccountOperation.handler : AccountOperation → Handler Unit
  | operation op => op.handler
  | createAccount auth body => discard (NexusEfos.createAccount auth body)
  | setAccountStatus auth accountId status => NexusEfos.setAccountStatus auth accountId status
  | createSettlementAccount auth branchId code name =>
    discard (NexusEfos.createSettlementAccount auth branchId code name)
  | other p _ => p

/-! ## What a posting does to inactive accounts -/

/-- The accounts that a statement is led to are not inactive.  A scheduled posting and the
approval of a manual journal may meet any account. -/
def Access.SparesInactive (lab : Access) (s : Db) : Prop :=
  (lab.executes = none → ∀ p ∈ lab.posting, ∀ a ∈ p.accountIds, ¬ s.Inactive a) ∧
    ∀ r ∈ lab.resolves, r.Approves s → ∀ a ∈ r.accounts s, ¬ s.Inactive a

instance (lab : Access) (s : Db) : Decidable (lab.SparesInactive s) :=
  inferInstanceAs (Decidable
    ((lab.executes = none → ∀ p ∈ lab.posting, ∀ a ∈ p.accountIds, ¬ s.Inactive a) ∧
      ∀ r ∈ lab.resolves, r.Approves s → ∀ a ∈ r.accounts s, ¬ s.Inactive a))

/-- The accounts keep their status, and what is posted is on accounts that are not inactive. -/
def Db.SparesInactive (s t : Db) : Prop := s.PostsTo (fun _ => True) (fun a => ¬ s.Inactive a) t

/-- No journal with a line on an inactive account becomes posted, and no inactive account
moves. -/
structure Db.LeavesInactive (s t : Db) : Prop where
  journal : ∀ id j, t.find? .journal id = some j → j.status = .posted → ¬ s.Posted id →
    ∀ l ∈ j.lines, ¬ s.Inactive l.accountId
  balance : ∀ a, s.Inactive a → t.glBalance a = s.glBalance a

section Inactive

variable {s t u : Db}

namespace Db.SparesInactive

theorem refl (s : Db) : s.SparesInactive s := Db.PostsTo.refl s

theorem trans (h : s.SparesInactive t) (h' : t.SparesInactive u) : s.SparesInactive u := by
  refine Db.PostsTo.trans h (h'.mono (fun _ hj => hj) ?_)
  intro a ha hinactive
  apply ha
  unfold Inactive at hinactive ⊢
  rwa [h.status]

theorem leaves (h : s.SparesInactive t) : s.LeavesInactive t where
  journal := fun id j hj hposted hnew => by
    rcases h.journal id j hj hposted with hj' | hlines
    · refine absurd ?_ hnew
      unfold Posted
      rw [hj', Option.map_some, hposted]
    · exact hlines.2
  balance := fun a ha => by
    unfold glBalance
    rw [h.account a fun hnot => hnot ha]

end Db.SparesInactive

theorem LedgerStep.sparesInactive {lab : Access} (h : LedgerStep lab s t)
    (hlab : lab.SparesInactive s) : s.SparesInactive t := by
  refine h.mono (fun _ _ => trivial) ?_
  rintro a (⟨hunscheduled, p, hp, ha⟩ | ⟨r, hr, happroves, hactive | ha⟩)
  · exact hlab.1 hunscheduled p hp a ha
  · intro hinactive
    rw [Db.Inactive, hactive] at hinactive
    exact absurd hinactive nofun
  · exact hlab.2 r hr happroves a ha

/-- What an operation does, if it keeps to the condition. -/
def SparesAccounts {α : Type} (p : Handler α) : Prop :=
  ∀ s, p.MovesAlong Access.SparesInactive Db.SparesInactive s

namespace SparesAccounts

variable {α : Type}

theorem of_everyStep {p : Handler α} (hp : p.EveryStep LedgerStep) : SparesAccounts p :=
  Proc.MovesAlong.of_everyStep Db.SparesInactive.refl (fun _ _ _ h h' => h.trans h')
    (fun _ _ _ hstep hlab => hstep.sparesInactive hlab) hp

theorem of_quiet {p : Handler α} (hp : Quiet [.gLAccount, .journal] p) : SparesAccounts p :=
  of_everyStep (LedgerStep.of_quiet hp)

theorem bind {β : Type} {p : Handler β} {f : β → Handler α} (hp : SparesAccounts p)
    (hf : ∀ b, SparesAccounts (f b)) : SparesAccounts (p >>= f) := by
  intro s
  exact (hp s).bind (fun _ _ _ h h' => h.trans h') fun b t _ => hf b t

theorem discard {p : Handler α} (hp : SparesAccounts p) : SparesAccounts (NexusEfos.discard p) :=
  hp.bind fun _ => of_quiet (Quiet.pure _)

end SparesAccounts

theorem movesAlong_query {α β : Type} {f : Db → β} {k : β → Handler α}
    (hk : (k (f s)).MovesAlong Access.SparesInactive Db.SparesInactive s) :
    (query f >>= k).MovesAlong Access.SparesInactive Db.SparesInactive s :=
  fun hmeets => hk hmeets.2

/-- A journal is created as posted, and its lines are applied one by one. -/
theorem movesAlong_postBare {α : Type} {lab : Access} {j : Journal} {lines : List LineInput}
    {accountById : Id → Option GLAccount} {k : Id → Handler α}
    (hlines : j.lines = lines.map LineInput.stored)
    (haccounts : lab.SparesInactive s → ∀ l ∈ lines, ¬ s.Inactive l.accountId)
    (hk : ∀ id, Quiet [.gLAccount, .journal] (k id)) :
    (createJournalAs lab j >>= fun id => applyLinesById accountById lines >>= fun _ =>
      k id).MovesAlong Access.SparesInactive Db.SparesInactive s := by
  intro hmeets
  have hspared := haccounts hmeets.1
  have hcreate : (createJournalAs lab j).Every
      (Db.PostsTo (fun _ => True) fun a => ¬ s.Inactive a) := by
    apply every_createJournalAs
    intro _
    refine ⟨trivial, ?_⟩
    intro l hl
    rw [hlines] at hl
    obtain ⟨l', hl', rfl⟩ := List.mem_map.mp hl
    exact hspared l' hl'
  have happly : ∀ id, (applyLinesById accountById lines >>= fun _ => k id).Every
      (Db.PostsTo (fun _ => True) fun a => ¬ s.Inactive a) :=
    fun id => (every_applyLinesById hspared).bind fun _ => (hk id).postsTo
  exact (hcreate.bind happly).run Db.PostsTo.refl Db.PostsTo.trans s

end Inactive

/-! ## The operations -/

namespace SparesAccounts

variable (auth : Auth) (now : DateTime)

theorem postSettlement (runId : Id) (run : PayrollRun) :
    SparesAccounts (postSettlement auth now runId run) := by
  intro s
  apply movesAlong_query
  split
  · exact of_quiet (Quiet.pure _) s
  · apply movesAlong_query
    apply movesAlong_query
    apply movesAlong_query
    split
    · refine movesAlong_postBare rfl ?_ fun _ => Quiet.pure _
      intro hlab l hl
      exact hlab.1 rfl _ rfl _ (List.mem_map_of_mem hl)
    · exact of_quiet (Quiet.pure _) s

theorem markPayrollPaid (runId : Id) : SparesAccounts (markPayrollPaid auth now runId) := by
  refine (of_quiet (Quiet.query _)).bind fun found => ?_
  refine (of_quiet (Quiet.orFail _ _)).bind fun run => ?_
  refine (of_quiet (Quiet.require _ _)).bind fun _ => ?_
  have hrecord : ∀ data : PayrollRun → PayrollRun, SparesAccounts (do
      let updated ← update .payrollRun runId data
      let _ ← create .auditLog
        { institutionId := auth.institutionId, userId := some auth.userId,
          action := "payroll_run.mark_paid", resource := "payroll_run", resourceId := some runId }
      return updated) := by
    intro data
    refine of_quiet ((Quiet.update (by decide) _ _).bind fun _ => ?_)
    exact (Quiet.create (by decide) _).bind fun _ => .pure _
  dsimp only
  split
  · exact (postSettlement auth now _ run).bind fun _ => hrecord _
  · exact hrecord _

theorem postDepreciation (asset : Asset) (periodLabel : String) (x : ℚ) :
    SparesAccounts (postDepreciation auth now asset periodLabel x) := by
  intro s
  apply movesAlong_query
  split
  · exact of_quiet (Quiet.pure _) s
  · apply movesAlong_query
    split
    · apply movesAlong_query
      refine movesAlong_postBare rfl ?_ fun _ => Quiet.pure _
      intro hlab l hl
      exact hlab.1 rfl _ rfl _ (List.mem_map_of_mem hl)
    · exact of_quiet (Quiet.pure _) s

theorem processDepreciation (assetId : Id) (periodLabel : String) :
    SparesAccounts (processDepreciation auth now assetId periodLabel) := by
  refine (of_quiet (Quiet.require _ _)).bind fun _ => ?_
  refine (of_quiet (Quiet.query _)).bind fun found => ?_
  refine (of_quiet (Quiet.orFail _ _)).bind fun asset => ?_
  refine (of_quiet (Quiet.require _ _)).bind fun _ => ?_
  refine (of_quiet (Quiet.query _)).bind fun existing => ?_
  refine (of_quiet (Quiet.require _ _)).bind fun _ => ?_
  refine (of_quiet (Quiet.query _)).bind fun monthsElapsed => ?_
  refine (of_quiet (Quiet.require _ _)).bind fun _ => ?_
  refine (postDepreciation auth now asset periodLabel _).bind fun journalId => ?_
  refine of_quiet ((Quiet.create (by decide) _).bind fun _ => ?_)
  exact (Quiet.update (by decide) _ _).bind fun _ => (Quiet.create (by decide) _).bind fun _ => .pure _

/-- The run of the recurring journals looks at the accounts itself. -/
theorem executeRecurring (rjId : Id) (rj : RecurringJournal) :
    SparesAccounts (executeRecurring now rjId rj) := by
  intro s
  apply movesAlong_query
  apply movesAlong_query
  dsimp only
  split
  · next hpostable =>
    refine movesAlong_postBare rfl ?_ ?_
    · intro _ l hl hinactive
      simp only [Bool.and_eq_true] at hpostable
      have hactive := List.all_eq_true.mp hpostable.1.1.2 l hl
      obtain ⟨account, haccount, hstatus⟩ := (Option.any_eq_true _ _).mp hactive
      rw [Db.Inactive, Db.accountStatus?, haccount, Option.map_some, of_decide_eq_true hstatus]
        at hinactive
      exact absurd hinactive (by simp)
    · intro id
      exact (Quiet.create (by decide) _).bind fun _ => Quiet.update_end (by decide) _ _
  · refine of_quiet ((Quiet.update (by decide) _ _).bind fun _ => ?_) s
    exact (Quiet.create (by decide) _).bind fun _ => .pure _

theorem runRecurringJournals : SparesAccounts (runRecurringJournals now) := by
  refine (of_quiet (Quiet.query _)).bind fun due => ?_
  intro s
  refine Proc.MovesAlong.forEach Db.SparesInactive.refl (fun _ _ _ h h' => h.trans h') ?_ s
  intro rj _
  exact executeRecurring now rj.1 rj.2

end SparesAccounts

theorem PostingOperation.sparesAccounts (op : PostingOperation) : SparesAccounts op.handler := by
  cases op with
  | deposit auth now a x => exact (SparesAccounts.of_everyStep (LedgerStep.deposit auth now a x)).discard
  | withdraw auth now a x =>
    exact (SparesAccounts.of_everyStep (LedgerStep.withdraw auth now a x)).discard
  | recordCollection auth now body =>
    exact (SparesAccounts.of_everyStep (LedgerStep.recordCollection auth now body)).discard
  | disburseLoan js auth now loanId vaultId =>
    exact (SparesAccounts.of_everyStep (LedgerStep.disburseLoan auth now js loanId vaultId)).discard
  | recordRepayment auth now loanId x =>
    exact (SparesAccounts.of_everyStep (LedgerStep.recordRepayment auth now loanId x)).discard
  | recordCashEntry auth now vaultId type x notes =>
    exact (SparesAccounts.of_everyStep
      (LedgerStep.recordCashEntry auth now vaultId type x notes)).discard
  | markPayrollPaid auth now runId => exact (SparesAccounts.markPayrollPaid auth now runId).discard
  | processDepreciation auth now assetId periodLabel =>
    exact (SparesAccounts.processDepreciation auth now assetId periodLabel).discard
  | runRecurringJournals now => exact SparesAccounts.runRecurringJournals now

theorem LedgerOperation.sparesAccounts (op : LedgerOperation) : SparesAccounts op.handler := by
  cases op with
  | post op => exact op.sparesAccounts
  | createManualJournal auth now body =>
    exact (SparesAccounts.of_everyStep (LedgerStep.createManualJournal auth now body)).discard
  | requestPosting auth journalId => exact .of_everyStep (LedgerStep.requestPosting auth journalId)
  | requestInterBranchTransfer auth body =>
    exact (SparesAccounts.of_everyStep (LedgerStep.requestInterBranchTransfer auth body)).discard
  | requestPayrollApproval auth runId =>
    exact .of_everyStep (LedgerStep.requestPayrollApproval auth runId)
  | requestDisposal auth body =>
    exact (SparesAccounts.of_everyStep (LedgerStep.requestDisposal auth body)).discard
  | requestTransfer auth body =>
    exact (SparesAccounts.of_everyStep (LedgerStep.requestTransfer auth body)).discard
  | resolve call => exact .of_everyStep (LedgerStep.resolve call)

/-! ### The accounts themselves -/

/-- The journals stay as they are, and so do the balances. -/
structure Db.KeepsBalances (s t : Db) : Prop where
  journal : s.Agree [.journal] t
  balance : ∀ a, t.glBalance a = s.glBalance a

section KeepsBalances

variable {s t u : Db}

namespace Db.KeepsBalances

theorem of_agree (h : s.Agree [.gLAccount, .journal] t) : s.KeepsBalances t where
  journal := h.mono (by decide)
  balance := glBalance_congr (h .gLAccount (by decide))

theorem refl (s : Db) : s.KeepsBalances s := of_agree (Agree.refl s)

theorem trans (h : s.KeepsBalances t) (h' : t.KeepsBalances u) : s.KeepsBalances u where
  journal := h.journal.trans h'.journal
  balance := fun a => (h'.balance a).trans (h.balance a)

/-- A new account, with nothing on it. -/
theorem insert {account : GLAccount} (h : account.balance = 0) :
    s.KeepsBalances (s.insert .gLAccount account) where
  journal := Agree.insert (m := .gLAccount) (by decide) s account
  balance := fun a => by
    unfold glBalance
    rw [find?_insert]
    by_cases ha : a = s.nextId .gLAccount
    · have hnone : s.find? .gLAccount (s.nextId .gLAccount) = none := OrderedMap.get?_nextKey _
      rw [if_pos ha, ha, hnone]
      exact h
    · rw [if_neg ha]

theorem modify {id : Id} {f : GLAccount → GLAccount} (h : ∀ a, (f a).balance = a.balance) :
    s.KeepsBalances (s.modify .gLAccount id f) where
  journal := Agree.modify (m := .gLAccount) (by decide) s id f
  balance := fun a => by
    unfold glBalance
    rw [find?_modify]
    by_cases ha : a = id
    · rw [if_pos ha, Option.map_map]
      congr 2
      exact funext h
    · rw [if_neg ha]

theorem leaves (h : s.KeepsBalances t) : s.LeavesInactive t where
  journal := fun id j hj hposted hnew => by
    rw [h.journal.find? (by decide)] at hj
    refine absurd ?_ hnew
    unfold Posted
    rw [hj, Option.map_some, hposted]
  balance := fun a _ => h.balance a

end Db.KeepsBalances

theorem Quiet.keepsBalances {α : Type} {p : Handler α} (hp : Quiet [.gLAccount, .journal] p) :
    p.Every Db.KeepsBalances := hp.imp fun _ _ => .of_agree

theorem createAccount_keepsBalances (auth : Auth) (body : AccountBody) :
    (createAccount auth body).Every Db.KeepsBalances := by
  refine (Every.require _ _).bind fun _ => ?_
  refine Every.bind (Quiet.keepsBalances (Quiet.query _)) fun existing => ?_
  refine (Every.require _ _).bind fun _ => ?_
  refine Every.bind ⟨fun s => .insert rfl, fun _ => trivial⟩ fun account => ?_
  exact Quiet.keepsBalances ((Quiet.create (by decide) _).bind fun _ => Quiet.pure _)

theorem setAccountStatus_keepsBalances (auth : Auth) (accountId : Id) (status : GLAccountStatus) :
    (setAccountStatus auth accountId status).Every Db.KeepsBalances := by
  refine Every.bind ⟨fun s => ?_, fun _ => trivial⟩ fun updated => ?_
  · cases hrow : s.find? .gLAccount accountId with
    | none =>
      simp only [hrow]
      exact .refl s
    | some row =>
      simp only [hrow]
      split
      · exact .modify fun _ => rfl
      · exact .refl s
  · refine (Every.require _ _).bind fun _ => ?_
    exact Quiet.keepsBalances ((Quiet.create (by decide) _).bind fun _ => Quiet.pure _)

theorem createSettlementAccount_keepsBalances (auth : Auth) (branchId : Id) (code name : String) :
    (createSettlementAccount auth branchId code name).Every Db.KeepsBalances := by
  refine Every.bind (Quiet.keepsBalances (Quiet.query _)) fun existing => ?_
  refine (Every.require _ _).bind fun _ => ?_
  refine Every.bind ⟨fun s => .insert rfl, fun _ => trivial⟩ fun glAccount => ?_
  refine Quiet.keepsBalances ((Quiet.create (by decide) _).bind fun _ => ?_)
  exact (Quiet.create (by decide) _).bind fun _ => Quiet.pure _

/-- One operation. -/
theorem AccountOperation.leavesInactive (op : AccountOperation)
    (hmeets : op.handler.Meets Access.SparesInactive s) :
    s.LeavesInactive (op.handler.run s).2 := by
  have hkeeps : op.handler.Every Db.KeepsBalances → s.LeavesInactive (op.handler.run s).2 :=
    fun hevery => (hevery.run Db.KeepsBalances.refl Db.KeepsBalances.trans s).leaves
  cases op with
  | operation op => exact (op.sparesAccounts s hmeets).leaves
  | createAccount auth body => exact hkeeps ((createAccount_keepsBalances auth body).bind fun _ => trivial)
  | setAccountStatus auth accountId status =>
    exact hkeeps (setAccountStatus_keepsBalances auth accountId status)
  | createSettlementAccount auth branchId code name =>
    exact hkeeps ((createSettlementAccount_keepsBalances auth branchId code name).bind fun _ => trivial)
  | other p quiet => exact hkeeps quiet.keepsBalances

end KeepsBalances

/-! ## Every run -/

/-- In a run whose statements keep to the condition, no operation makes a journal a posted one
that has a line on an account which is inactive at that moment, and none moves the balance of
such an account. -/
theorem inactive_accounts_left_alone (ops : List AccountOperation) (s : Db)
    (h : Proc.MeetsAll Access.SparesInactive (ops.map AccountOperation.handler) s)
    (before after : List AccountOperation) (op : AccountOperation)
    (hops : ops = before ++ op :: after) :
    (Proc.runAll (before.map AccountOperation.handler) s).LeavesInactive
      (Proc.runAll ((before ++ [op]).map AccountOperation.handler) s) := by
  rw [hops] at h
  clear hops
  induction before generalizing s with
  | nil => exact op.leavesInactive h.1
  | cons first rest ih => exact ih _ h.2

/-- A vault receives 100.00 from the bank account. -/
def bankReceipt : AccountOperation :=
  .operation (.post (.recordCashEntry ⟨1, 2⟩ 1 1 .receipt 100 none))

/-- The bank account is closed. -/
def bankClosed : AccountOperation := .setAccountStatus ⟨1, 1⟩ 2 .inactive

/-- The account is closed after the receipt. -/
theorem inactive_accounts_left_alone_bankReceipt :
    (Proc.runAll (([] : List AccountOperation).map AccountOperation.handler) cashLedger).LeavesInactive
      (Proc.runAll (([] ++ [bankReceipt]).map AccountOperation.handler) cashLedger) :=
  inactive_accounts_left_alone [bankReceipt, bankClosed] cashLedger (by decide +kernel) [] [bankClosed]
    bankReceipt rfl

/-- The receipt is posted to the account after it has been closed. -/
theorem posted_to_inactive_account :
    ¬ ∀ (ops before after : List AccountOperation) (op : AccountOperation) (s : Db),
      ops = before ++ op :: after →
        (Proc.runAll (before.map AccountOperation.handler) s).LeavesInactive
          (Proc.runAll ((before ++ [op]).map AccountOperation.handler) s) := by
  intro h
  have hleaves := h [bankClosed, bankReceipt] [bankClosed] [] bankReceipt cashLedger rfl
  have hbalance := hleaves.balance 2 (by decide +kernel)
  revert hbalance
  decide +kernel

end NexusEfos
