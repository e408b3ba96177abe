/-
Which journals a statement posts, and on which accounts.

A path that posts a journal at once says so on the statement that does it: the label has the
institution and the date of the journal and the accounts of its lines.  An approval finds the
rest in the database: `Resolution.MayPost` and `Resolution.MayMove` say what it may post and
which accounts it may move.  `LedgerStep` is what one statement does to the ledger, and the
decision about a request takes such a step (`ResolveCall.ledgerStep_inTx`).
-/
import NexusEfos.Ledger.Periods
import NexusEfos.Operations.LedgerRuns

namespace NexusEfos

open Proc

/-! ## What a posting does -/

namespace Db

/-- The status of a ledger account. -/
def accountStatus? (s : Db) (a : Id) : Option GLAccountStatus :=
  (s.find? .gLAccount a).map GLAccount.status

/-- The account is inactive. -/
def Inactive (s : Db) (a : Id) : Prop := s.accountStatus? a = some .inactive

instance (s : Db) (a : Id) : Decidable (s.Inactive a) :=
  inferInstanceAs (Decidable (s.accountStatus? a = some .inactive))

/-- A journal becomes posted only if `posts` has it and its lines are on `accounts`.  No other
account is touched, and all of them keep their status. -/
structure PostsTo (posts : Journal → Prop) (accounts : Id → Prop) (s t : Db) : Prop where
  journal : ∀ id j, t.find? .journal id = some j → j.status = .posted →
    s.find? .journal id = some j ∨ posts j ∧ ∀ l ∈ j.lines, accounts l.accountId
  status : ∀ a, t.accountStatus? a = s.accountStatus? a
  account : ∀ a, ¬ accounts a → t.find? .gLAccount a = s.find? .gLAccount a

namespace PostsTo

variable {posts posts' : Journal → Prop} {accounts accounts' : Id → Prop} {s t u : Db}

theorem of_agree (h : s.Agree [.gLAccount, .journal] t) : s.PostsTo posts accounts t where
  journal := fun id j hj _ => .inl (by rwa [h.find? (by decide)] at hj)
  status := fun a => by rw [accountStatus?, h.find? (by decide), accountStatus?]
  account := fun a _ => h.find? (by decide) a

theorem refl (s : Db) : s.PostsTo posts accounts s := of_agree (Agree.refl s)

theorem trans (h : s.PostsTo posts accounts t) (h' : t.PostsTo posts accounts u) :
    s.PostsTo posts accounts u where
  journal := fun id j hj hposted => by
    rcases h'.journal id j hj hposted with hj' | hposts
    · exact h.journal id j hj' hposted
    · exact .inr hposts
  status := fun a => (h'.status a).trans (h.status a)
  account := fun a ha => (h'.account a ha).trans (h.account a ha)

theorem mono (h : s.PostsTo posts accounts t) (hposts : ∀ j, posts j → posts' j)
    (haccounts : ∀ a, accounts a → accounts' a) : s.PostsTo posts' accounts' t where
  journal := fun id j hj hposted => by
    rcases h.journal id j hj hposted with hj' | ⟨hj', hlines⟩
    · exact .inl hj'
    · exact .inr ⟨hposts j hj', fun l hl => haccounts _ (hlines l hl)⟩
  status := h.status
  account := fun a ha => h.account a fun ha' => ha (haccounts a ha')

/-- A new journal. -/
theorem insert {j : Journal}
    (hj : j.status = .posted → posts j ∧ ∀ l ∈ j.lines, accounts l.accountId) :
    s.PostsTo posts accounts (s.insert .journal j) where
  journal := fun id j' hj' hposted => by
    rw [find?_insert] at hj'
    by_cases hid : id = s.nextId .journal
    · rw [if_pos hid] at hj'
      rw [← Option.some.inj hj'] at hposted ⊢
      exact .inr (hj hposted)
    · rw [if_neg hid] at hj'
      exact .inl hj'
  status := fun a => by rw [accountStatus?, find?_insert_of_ne (by decide), accountStatus?]
  account := fun a _ => find?_insert_of_ne (by decide) ..

/-- A journal that was there gets another status. -/
theorem modify {id : Id} {f : Journal → Journal}
    (hf : ∀ j, s.find? .journal id = some j → (f j).status = .posted →
      posts (f j) ∧ ∀ l ∈ (f j).lines, accounts l.accountId) :
    s.PostsTo posts accounts (s.modify .journal id f) where
  journal := fun id' j' hj' hposted => by
    rw [find?_modify] at hj'
    by_cases hid : id' = id
    · rw [if_pos hid] at hj'
      obtain ⟨j, hj, rfl⟩ := Option.map_eq_some_iff.mp hj'
      exact .inr (hf j (hid ▸ hj) hposted)
    · rw [if_neg hid] at hj'
      exact .inl hj'
  status := fun a => by rw [accountStatus?, find?_modify_of_ne (by decide), accountStatus?]
  account := fun a _ => find?_modify_of_ne (by decide) ..

/-- The balance of one of the accounts. -/
theorem modifyAccount {a : Id} (ha : accounts a) {f : GLAccount → GLAccount}
    (hf : ∀ account, (f account).status = account.status) :
    s.PostsTo posts accounts (s.modify .gLAccount a f) where
  journal := fun id j hj _ => .inl (by rwa [find?_modify_of_ne (by decide)] at hj)
  status := fun a' => by
    rw [accountStatus?, find?_modify, accountStatus?]
    by_cases ha' : a' = a
    · rw [if_pos ha', Option.map_map]
      congr 1
      exact funext hf
    · rw [if_neg ha']
  account := fun a' ha' => by
    have hne : a' ≠ a := fun heq => ha' (heq ▸ ha)
    rw [find?_modify, if_neg hne]

theorem applyEffects {lines : List JournalLineInput} (h : ∀ l ∈ lines, accounts l.accountId) :
    s.PostsTo posts accounts (s.applyEffects lines) := by
  induction lines generalizing s with
  | nil => exact refl s
  | cons l ls ih =>
    have hfirst : s.PostsTo posts accounts
        (s.modify .gLAccount l.accountId fun a => a.addBalance l.effectCents) :=
      modifyAccount (h l (List.mem_cons_self ..)) fun _ => rfl
    exact hfirst.trans (ih fun l' hl' => h l' (List.mem_cons_of_mem l hl'))

end PostsTo

end Db

/-! ## The statements of a posting -/

section Statements

variable {α : Type} {posts : Journal → Prop} {accounts : Id → Prop}

theorem Quiet.postsTo {p : Handler α} (hp : Quiet [.gLAccount, .journal] p) :
    p.Every (Db.PostsTo posts accounts) := hp.imp fun _ _ => .of_agree

theorem every_createJournalAs {lab : Access} {j : Journal}
    (hj : j.status = .posted → posts j ∧ ∀ l ∈ j.lines, accounts l.accountId) :
    (createJournalAs lab j).Every (Db.PostsTo posts accounts) := by
  constructor
  · intro s
    by_cases hlines : ∀ l ∈ j.lines, (s.find? .gLAccount l.accountId).isSome
    · simp only [if_pos hlines]
      exact .insert hj
    · simp only [if_neg hlines]
      exact .refl s
  · intro _
    trivial

theorem every_updateBalance {a : Id} (ha : accounts a) {f : GLAccount → GLAccount}
    (hf : ∀ account, (f account).status = account.status) :
    (update .gLAccount a f).Every (Db.PostsTo posts accounts) := by
  constructor
  · intro s
    cases hrow : s.find? .gLAccount a with
    | some row =>
      simp only [hrow]
      exact .modifyAccount ha hf
    | none =>
      simp only [hrow]
      exact .refl s
  · intro _
    trivial

theorem every_applyLines {lines : List JournalLineInput} (h : ∀ l ∈ lines, accounts l.accountId) :
    (applyLines lines).Every (Db.PostsTo posts accounts) := by
  apply Every.forEach
  intro l hl
  refine (every_updateBalance (h l hl) ?_).bind fun _ => trivial
  intro _
  rfl

theorem every_applyLinesById {accountById : Id → Option GLAccount} {lines : List LineInput}
    (h : ∀ l ∈ lines, accounts l.accountId) :
    (applyLinesById accountById lines).Every (Db.PostsTo posts accounts) := by
  apply Every.forEach
  intro l hl
  refine (Every.orFail _ _).bind fun account => ?_
  refine (every_updateBalance (h l hl) ?_).bind fun _ => trivial
  intro _
  rfl

theorem every_postJournal {auth : Auth} {now : DateTime} {description : String}
    {lines : List JournalLineInput} (hposts : posts (automaticJournal auth now description lines))
    (h : ∀ l ∈ lines, accounts l.accountId) :
    (postJournal auth now description lines).Every (Db.PostsTo posts accounts) := by
  refine (every_createJournalAs ?_).bind fun journal => ?_
  · intro _
    refine ⟨hposts, ?_⟩
    intro l hl
    obtain ⟨l', hl', rfl⟩ := List.mem_map.mp hl
    exact h l' hl'
  · exact (every_applyLines h).bind fun _ => trivial

end Statements

/-! ## What a statement may post -/

instance (p : FinancialPeriod) (date : DateTime) : Decidable (p.Covers date) :=
  inferInstanceAs (Decidable (p.startDate ≤ date ∧ date ≤ p.endDate))

namespace Db

/-- An open period of the institution covers the date. -/
def OpenOn (s : Db) (institutionId : Id) (date : DateTime) : Prop :=
  ∃ e ∈ (s.table .financialPeriod).entries,
    e.2.institutionId = institutionId ∧ e.2.Covers date ∧ e.2.status = .opened

instance (s : Db) (institutionId : Id) (date : DateTime) : Decidable (s.OpenOn institutionId date) :=
  inferInstanceAs (Decidable (∃ e ∈ (s.table .financialPeriod).entries,
    e.2.institutionId = institutionId ∧ e.2.Covers date ∧ e.2.status = .opened))

theorem Postable.openOn {s : Db} {institutionId : Id} {date : DateTime}
    (h : s.Postable institutionId date) : s.OpenOn institutionId date := by
  obtain ⟨e, he, hopened⟩ := (Option.any_eq_true _ _).mp h
  have hqualifies := List.find?_some he
  obtain ⟨hinstitution, hcovers⟩ := of_decide_eq_true hqualifies
  exact ⟨e, List.mem_of_find?_eq_some he, hinstitution, hcovers, of_decide_eq_true hopened⟩

/-! ### The accounts of an approval -/

/-- The accounts of lines under construction, if they are posted. -/
def draftAccounts (drafts : List DraftLine) : List Id :=
  if isBalanced (drafts.map DraftLine.amounts) then drafts.filterMap DraftLine.accountId else []

/-- The date of the accrual of a run. -/
def accrualDate (s : Db) (now : DateTime) (run : PayrollRun) : DateTime :=
  ((s.find? .payrollPeriod run.payrollPeriodId).map PayrollPeriod.endDate).getD now

/-- The accounts that the approval of a payroll run posts to. -/
def accrualAccounts (s : Db) (now : DateTime) (runId : Id) (run : PayrollRun) : List Id :=
  let accountIds := accountIdByPurpose ((s.table .payrollGLAccountMapping).entries.filter fun m =>
    m.2.institutionId = run.institutionId)
  let total := fun (f : PayrollEntry → Cents) => (((s.table .payrollEntry).entries.filter fun e =>
    e.2.payrollRunId = runId).map fun e => toNumber (f e.2)).sum
  if (requiredAccrualPurposes.all fun p => (accountIds p).isSome) = true ∧
      s.Postable run.institutionId (s.accrualDate now run) then
    draftAccounts (buildPayrollAccrualLines
      { totalGross := toNumber run.totalGross, totalPaye := total PayrollEntry.paye,
        totalSsnitEmployee := total PayrollEntry.ssnitEmployee,
        totalSsnitEmployerTier1 := total PayrollEntry.ssnitEmployerTier1,
        totalTier2Employer := total PayrollEntry.tier2Employer,
        totalOtherDeductions := total PayrollEntry.otherDeductions,
        totalNet := toNumber run.totalNet } accountIds)
  else []

/-- The accounts that the approval of a disposal posts to. -/
def disposalAccounts (s : Db) (now : DateTime) (disposal : AssetDisposal) (asset : Asset) :
    List Id :=
  let accountIds := accountIdByPurpose ((s.table .assetGLAccountMapping).entries.filter fun m =>
    m.2.institutionId = disposal.institutionId ∧ m.2.purpose ∈ disposalPurposes)
  if ((accountIds "Fixed Asset").isSome && (accountIds "Accumulated Depreciation").isSome) = true ∧
      s.Postable disposal.institutionId now then
    draftAccounts (buildAssetDisposalLines (toNumber asset.acquisitionCost)
      (toNumber asset.accumulatedDepreciation) (toNumber (disposal.saleProceeds.getD 0)) accountIds)
  else []

/-- The settlement account of a branch. -/
def settlementAccount? (s : Db) (branchId : Id) : Option (BranchSettlementAccount × GLAccount) :=
  ((s.table .branchSettlementAccount).entries.find? fun e => e.2.branchId = branchId).bind fun e =>
    (s.find? .gLAccount e.2.glAccountId).map fun a => (e.2, a)

/-- The accounts that the approval of a transfer between branches posts to. -/
def transferAccounts (s : Db) (transfer : InterBranchTransfer) : List Id :=
  match s.settlementAccount? transfer.fromBranchId, s.settlementAccount? transfer.toBranchId,
    s.find? .gLAccount transfer.fromGLAccountId, s.find? .gLAccount transfer.toGLAccountId with
  | some fromSettlement, some toSettlement, some fromAccount, some toAccount =>
    let lines := interBranchLines transfer fromSettlement toSettlement fromAccount toAccount
    if isBalanced (lines.map JournalLineInput.toLineInput) then lines.map fun l => l.accountId
    else []
  | _, _, _, _ => []

end Db

namespace Resolution

/-- The decision is an approval, and the request has not been resolved. -/
def Approves (r : Resolution) (s : Db) : Prop :=
  r.approved = true ∧
    (s.find? .approvalRequest r.requestId).map ApprovalRequest.status = some .pending

/-- The accounts that an approval posts to by the mappings and rows it finds. -/
def accounts (r : Resolution) (s : Db) : List Id :=
  match r.request.type with
  | .payrollRunApproval =>
    match s.find? .payrollRun r.request.targetId with
    | some run => s.accrualAccounts r.now r.request.targetId run
    | none => []
  | .assetDisposal =>
    match s.find? .assetDisposal r.request.targetId with
    | some disposal =>
      match s.find? .asset disposal.assetId with
      | some asset => s.disposalAccounts r.now disposal asset
      | none => []
    | none => []
  | .interBranchTransfer =>
    match s.find? .interBranchTransfer r.request.targetId with
    | some transfer => s.transferAccounts transfer
    | none => []
  | _ => []

/-- A journal that an approval may post.  A transfer between branches is posted without a look
at the period. -/
def MayPost (r : Resolution) (s : Db) (j : Journal) : Prop :=
  s.OpenOn j.institutionId j.postingDate ∨
    r.request.type = .interBranchTransfer ∧ j.postingDate = r.now ∧
      (s.find? .interBranchTransfer r.request.targetId).map InterBranchTransfer.institutionId =
        some j.institutionId

/-- An account that an approval may move.  The posting of a journal looks at its accounts. -/
def MayMove (r : Resolution) (s : Db) (a : Id) : Prop :=
  s.accountStatus? a = some .active ∨ a ∈ r.accounts s

instance (r : Resolution) (s : Db) : Decidable (r.Approves s) :=
  inferInstanceAs (Decidable (_ ∧ _))

end Resolution

/-- A journal that a statement may post. -/
def Access.MayPost (lab : Access) (s : Db) (j : Journal) : Prop :=
  (∃ p ∈ lab.posting, j.institutionId = p.institutionId ∧ j.postingDate = p.date) ∨
    ∃ r ∈ lab.resolves, r.Approves s ∧ r.MayPost s j

/-- An account that a statement may move.  What is carried out on schedule is posted first and
applied in later statements. -/
def Access.MayMove (lab : Access) (s : Db) (a : Id) : Prop :=
  (lab.executes = none ∧ ∃ p ∈ lab.posting, a ∈ p.accountIds) ∨
    ∃ r ∈ lab.resolves, r.Approves s ∧ r.MayMove s a

/-- What a statement does to the ledger. -/
def LedgerStep (lab : Access) (s t : Db) : Prop := s.PostsTo (lab.MayPost s) (lab.MayMove s) t

/-! ## The approvals -/

section Approvals

variable {posts : Journal → Prop} {accounts : Id → Prop} {s t : Db}

theorem mem_accounts_of_mapM {drafts : List DraftLine} {lines : List LineInput}
    (h : drafts.mapM DraftLine.line? = some lines) {l : LineInput} (hl : l ∈ lines) :
    l.accountId ∈ drafts.filterMap DraftLine.accountId := by
  have hforall := forall₂_of_mapM h
  clear h
  induction hforall with
  | nil => exact absurd hl List.not_mem_nil
  | cons hline _ ih =>
    obtain ⟨accountId, haccount, hmade⟩ := Option.map_eq_some_iff.mp hline
    rw [List.filterMap_cons, haccount]
    rcases List.mem_cons.mp hl with rfl | hl
    · rw [← hmade]
      exact List.mem_cons_self ..
    · exact List.mem_cons_of_mem accountId (ih hl)

theorem every_postDraftLines {institutionId approvedById : Id} {now postingDate : DateTime}
    {description : String} {drafts : List DraftLine}
    (hposts : ∀ j : Journal, j.institutionId = institutionId → j.postingDate = postingDate → posts j)
    (haccounts : ∀ a ∈ Db.draftAccounts drafts, accounts a) :
    (postDraftLines institutionId approvedById now postingDate description drafts).Every
      (Db.PostsTo posts accounts) := by
  unfold postDraftLines
  unfold Db.draftAccounts at haccounts
  split
  · next hbalanced =>
    rw [if_pos hbalanced] at haccounts
    cases hlines : drafts.mapM DraftLine.line? with
    | none => trivial
    | some lines =>
      have hmem : ∀ l ∈ lines, accounts l.accountId :=
        fun l hl => haccounts _ (mem_accounts_of_mapM hlines hl)
      rw [orFail_some, done_ok_bind]
      refine Every.bind (Quiet.postsTo (Quiet.query _)) fun accountById => ?_
      refine (every_createJournalAs ?_).bind fun journal => ?_
      · intro _
        refine ⟨hposts _ rfl rfl, ?_⟩
        intro l hl
        obtain ⟨l', hl', rfl⟩ := List.mem_map.mp hl
        exact hmem l' hl'
      · exact (every_applyLinesById hmem).bind fun _ => trivial
  · trivial

/-- What the statements of a process do to the ledger, an execution does. -/
theorem Proc.Every.run_postsTo {α : Type} {p : Handler α} (hp : p.Every (Db.PostsTo posts accounts))
    {a : α} (h : p.run s = (.ok a, t)) : s.PostsTo posts accounts t := by
  have hrun := hp.run Db.PostsTo.refl Db.PostsTo.trans s
  rw [h] at hrun
  exact hrun

theorem run_postAccrual_postsTo {now : DateTime} {approvedById runId : Id} {run : PayrollRun}
    {r : Option Id} (h : (postAccrual now approvedById runId run).run s = (.ok r, t)) :
    s.PostsTo (fun j => s.OpenOn j.institutionId j.postingDate)
      (fun a => a ∈ s.accrualAccounts now runId run) t := by
  obtain ⟨mappings, s₁, hread, h₁⟩ := Proc.run_bind_eq_ok h
  obtain ⟨hmappings, hs₁⟩ := Prod.mk.inj hread
  split at h₁
  · next hmapped =>
    obtain ⟨period, s₂, hreadPeriod, h₂⟩ := Proc.run_bind_eq_ok h₁
    obtain ⟨hperiod, hs₂⟩ := Prod.mk.inj hreadPeriod
    obtain ⟨glPeriod, s₃, hreadGlPeriod, h₃⟩ := Proc.run_bind_eq_ok h₂
    obtain ⟨hglPeriod, hs₃⟩ := run_findPostablePeriod_eq_ok hreadGlPeriod
    split at h₃
    · next hopened =>
      obtain ⟨entries, s₄, hreadEntries, h₄⟩ := Proc.run_bind_eq_ok h₃
      obtain ⟨hentries, hs₄⟩ := Prod.mk.inj hreadEntries
      subst hs₁ hs₂ hs₃ hs₄
      rw [← Except.ok.inj hmappings] at hmapped h₄
      rw [hglPeriod, ← Except.ok.inj hperiod] at hopened
      rw [← Except.ok.inj hperiod, ← Except.ok.inj hentries] at h₄
      have hpostable : s.Postable run.institutionId (s.accrualDate now run) := hopened
      refine (every_postDraftLines ?_ ?_).run_postsTo h₄
      · intro j hinstitution hdate
        rw [hinstitution, hdate]
        exact hpostable.openOn
      · intro a ha
        unfold Db.accrualAccounts
        rw [if_pos ⟨hmapped, hpostable⟩]
        exact ha
    · rw [← (Prod.mk.inj h₃).2, ← hs₃, ← hs₂, ← hs₁]
      exact .refl s
  · rw [← (Prod.mk.inj h₁).2, ← hs₁]
    exact .refl s

theorem run_postDisposal_postsTo {now : DateTime} {approvedById : Id} {disposal : AssetDisposal}
    {asset : Asset} {r : Option Id}
    (h : (postDisposal now approvedById disposal asset).run s = (.ok r, t)) :
    s.PostsTo (fun j => s.OpenOn j.institutionId j.postingDate)
      (fun a => a ∈ s.disposalAccounts now disposal asset) t := by
  obtain ⟨mappings, s₁, hread, h₁⟩ := Proc.run_bind_eq_ok h
  obtain ⟨hmappings, hs₁⟩ := Prod.mk.inj hread
  dsimp only at h₁
  split at h₁
  · next hmapped =>
    obtain ⟨glPeriod, s₂, hreadGlPeriod, h₂⟩ := Proc.run_bind_eq_ok h₁
    obtain ⟨hglPeriod, hs₂⟩ := run_findPostablePeriod_eq_ok hreadGlPeriod
    split at h₂
    · next hopened =>
      subst hs₁ hs₂
      rw [← Except.ok.inj hmappings] at hmapped h₂
      rw [hglPeriod] at hopened
      have hpostable : s.Postable disposal.institutionId now := hopened
      refine (every_postDraftLines ?_ ?_).run_postsTo h₂
      · intro j hinstitution hdate
        rw [hinstitution, hdate]
        exact hpostable.openOn
      · intro a ha
        unfold Db.disposalAccounts
        rw [if_pos ⟨hmapped, hpostable⟩]
        exact ha
    · rw [← (Prod.mk.inj h₂).2, ← hs₂, ← hs₁]
      exact .refl s
  · rw [← (Prod.mk.inj h₁).2, ← hs₁]
    exact .refl s

theorem run_postApprovedJournal_postsTo {now : DateTime} {approvedById journalId : Id} {u : Unit}
    (h : (postApprovedJournal now approvedById journalId).run s = (.ok u, t)) :
    s.PostsTo (fun j => s.OpenOn j.institutionId j.postingDate)
      (fun a => s.accountStatus? a = some .active) t := by
  obtain ⟨j, found, hj, hfst, haccounts, ⟨-, hactive, hpostable, ht⟩ | ⟨reason, ht⟩⟩ :=
    run_postApprovedJournal_eq_ok h
  · have hline : ∀ l ∈ found, s.accountStatus? l.1.accountId = some .active := by
      intro l hl
      rw [Db.accountStatus?, haccounts l hl]
      exact congrArg some (hactive l hl)
    rw [ht]
    refine Db.PostsTo.trans (.applyEffects ?_) (.modify ?_)
    · intro l hl
      obtain ⟨l', hl', rfl⟩ := List.mem_map.mp hl
      exact hline l' hl'
    · intro j' hj' _
      rw [Db.find?_applyEffects_of_ne (by decide), hj] at hj'
      rw [← Option.some.inj hj']
      refine ⟨hpostable.openOn, ?_⟩
      intro l hl
      have hmem : l ∈ found.map Prod.fst := hfst ▸ hl
      obtain ⟨l', hl', rfl⟩ := List.mem_map.mp hmem
      exact hline l' hl'
  · rw [ht]
    exact .modify fun _ _ hposted => absurd hposted nofun

theorem run_findSettlementAccount_eq_some {branchId : Id} {r : BranchSettlementAccount × GLAccount}
    (h : (findSettlementAccount branchId).run s = (.ok r, t)) :
    s.settlementAccount? branchId = some r ∧ t = s := by
  obtain ⟨found, s₁, hread, h₁⟩ := Proc.run_bind_eq_ok h
  obtain ⟨hfound, hs₁⟩ := Prod.mk.inj hread
  obtain ⟨hr, ht⟩ := run_orFail_eq_ok h₁
  rw [← Except.ok.inj hfound] at hr
  exact ⟨hr, ht.trans hs₁.symm⟩

/-- A transfer is posted on the date of its approval, whatever the period. -/
theorem run_transferBetweenBranches_postsTo {now : DateTime} {approvedById targetId : Id} {u : Unit}
    (h : (transferBetweenBranches now approvedById targetId).run s = (.ok u, t)) :
    ∃ transfer, s.find? .interBranchTransfer targetId = some transfer ∧
      s.PostsTo (fun j => j.institutionId = transfer.institutionId ∧ j.postingDate = now)
        (fun a => a ∈ s.transferAccounts transfer) t := by
  obtain ⟨transfer, s₁, hread, h₁⟩ := Proc.run_bind_eq_ok h
  obtain ⟨htransfer, hs₁⟩ := run_findUniqueOrThrow_eq_ok hread
  obtain ⟨fromSettlement, s₂, hfrom, h₂⟩ := Proc.run_bind_eq_ok h₁
  obtain ⟨hfromSettlement, hs₂⟩ := run_findSettlementAccount_eq_some hfrom
  obtain ⟨toSettlement, s₃, hto, h₃⟩ := Proc.run_bind_eq_ok h₂
  obtain ⟨htoSettlement, hs₃⟩ := run_findSettlementAccount_eq_some hto
  obtain ⟨fromAccount, s₄, hreadFrom, h₄⟩ := Proc.run_bind_eq_ok h₃
  obtain ⟨hfromAccount, hs₄⟩ := run_findUniqueOrThrow_eq_ok hreadFrom
  obtain ⟨toAccount, s₅, hreadTo, h₅⟩ := Proc.run_bind_eq_ok h₄
  obtain ⟨htoAccount, hs₅⟩ := run_findUniqueOrThrow_eq_ok hreadTo
  subst hs₁ hs₂ hs₃ hs₄ hs₅
  refine ⟨transfer, htransfer, ?_⟩
  dsimp only at h₅
  split at h₅
  · next hbalanced =>
    have haccounts : ∀ l ∈ interBranchLines transfer fromSettlement toSettlement fromAccount
        toAccount, l.accountId ∈ s₅.transferAccounts transfer := by
      intro l hl
      unfold Db.transferAccounts
      simp only [hfromSettlement, htoSettlement, hfromAccount, htoAccount]
      rw [if_pos hbalanced]
      exact List.mem_map_of_mem hl
    refine Proc.Every.run_postsTo ?_ h₅
    refine (every_createJournalAs ?_).bind fun journal => ?_
    · intro _
      refine ⟨⟨rfl, rfl⟩, ?_⟩
      intro l hl
      obtain ⟨l', hl', rfl⟩ := List.mem_map.mp hl
      exact haccounts l' hl'
    · refine (every_applyLines haccounts).bind fun _ => ?_
      exact Quiet.postsTo (Quiet.update_end (by decide) _ _)
  · exact (Quiet.postsTo (Quiet.update_end (by decide) _ _)).run_postsTo h₅

namespace ResolveCall

variable {call : ResolveCall} {existing : ApprovalRequest}

/-- The decision of a call about a request. -/
def resolution (call : ResolveCall) (existing : ApprovalRequest) : Resolution :=
  ⟨call.requestId, existing, call.decision = .approve, call.now⟩

theorem run_applyApproval_postsTo {u : Unit}
    (h : (applyApproval call.now existing call.auth.userId).run s = (.ok u, t)) :
    s.PostsTo ((call.resolution existing).MayPost s) ((call.resolution existing).MayMove s) t := by
  have hquiet : (∀ m ∈ approvalWrites existing.type, m ∉ [Model.gLAccount, .journal]) →
      s.PostsTo ((call.resolution existing).MayPost s) ((call.resolution existing).MayMove s) t :=
    fun hm => (Quiet.postsTo (Quiet.applyApproval hm _ _)).run_postsTo h
  unfold applyApproval at h
  cases htype : existing.type
  case journalPosting =>
    rw [htype] at h
    exact (run_postApprovedJournal_postsTo h).mono (fun _ hj => .inl hj) fun _ ha => .inl ha
  case interBranchTransfer =>
    rw [htype] at h
    obtain ⟨transfer, htransfer, hpost⟩ := run_transferBetweenBranches_postsTo h
    refine hpost.mono ?_ ?_
    · intro j hj
      refine .inr ⟨htype, hj.2, ?_⟩
      show (s.find? .interBranchTransfer existing.targetId).map _ = _
      rw [htransfer, hj.1]
      rfl
    · intro a ha
      right
      simp only [Resolution.accounts, resolution, htype, htransfer]
      exact ha
  case payrollRunApproval =>
    rw [htype] at h
    obtain ⟨run, s₁, hread, h₁⟩ := Proc.run_bind_eq_ok h
    obtain ⟨hrun, hs₁⟩ := run_findUniqueOrThrow_eq_ok hread
    obtain ⟨accrualJournalId, s₂, haccrual, h₂⟩ := Proc.run_bind_eq_ok h₁
    rw [hs₁] at haccrual
    refine Db.PostsTo.trans ?_ ((Quiet.postsTo (Quiet.update_end (by decide) _ _)).run_postsTo h₂)
    refine (run_postAccrual_postsTo haccrual).mono (fun _ hj => .inl hj) ?_
    intro a ha
    right
    simp only [Resolution.accounts, resolution, htype, hrun]
    exact ha
  case assetDisposal =>
    rw [htype] at h
    obtain ⟨disposal, s₁, hread, h₁⟩ := Proc.run_bind_eq_ok h
    obtain ⟨hdisposal, hs₁⟩ := run_findUniqueOrThrow_eq_ok hread
    obtain ⟨asset, s₂, hread₂, h₂⟩ := Proc.run_bind_eq_ok h₁
    obtain ⟨hasset, hs₂⟩ := run_findUniqueOrThrow_eq_ok hread₂
    obtain ⟨journalId, s₃, hpost, h₃⟩ := Proc.run_bind_eq_ok h₂
    rw [hs₂, hs₁] at hpost
    rw [hs₁] at hasset
    have hrest : s₃.PostsTo ((call.resolution existing).MayPost s)
        ((call.resolution existing).MayMove s) t := by
      refine Proc.Every.run_postsTo (Quiet.postsTo ?_) h₃
      exact (Quiet.update (by decide) _ _).bind fun _ => Quiet.update_end (by decide) _ _
    refine Db.PostsTo.trans ((run_postDisposal_postsTo hpost).mono (fun _ hj => .inl hj) ?_) hrest
    intro a ha
    right
    simp only [Resolution.accounts, resolution, htype, hdisposal, hasset]
    exact ha
  all_goals
    apply hquiet
    rw [htype]
    decide

/-- A rejection posts nothing. -/
theorem run_applyRejection_postsTo {u : Unit}
    (h : (applyRejection existing).run s = (.ok u, t)) : s.PostsTo posts accounts t := by
  have hupdate : ∀ (m : Model) (id : Id) (f : Row m → Row m), m ∉ [Model.gLAccount, .journal] →
      (do let _ ← update m id f : Handler Unit).run s = (.ok u, t) → s.PostsTo posts accounts t :=
    fun m id f hm hrun => (Quiet.postsTo (Quiet.update_end hm id f)).run_postsTo hrun
  have hquiet : (∀ m ∈ approvalWrites existing.type, m ∉ [Model.gLAccount, .journal]) →
      s.PostsTo posts accounts t :=
    fun hm => (Quiet.postsTo (Quiet.applyRejection hm)).run_postsTo h
  unfold applyRejection at h
  cases htype : existing.type
  case journalPosting =>
    rw [htype] at h
    obtain ⟨row, s₁, hrun, hend⟩ := Proc.run_bind_eq_ok h
    obtain ⟨-, -, -, hs₁⟩ := run_update_eq_ok hrun
    rw [← (Prod.mk.inj hend).2, hs₁]
    exact .modify fun _ _ hposted => absurd hposted nofun
  case interBranchTransfer | payrollRunApproval | assetDisposal =>
    rw [htype] at h
    exact hupdate _ _ _ (by decide) h
  all_goals
    apply hquiet
    rw [htype]
    decide

/-- The statement with which a call decides a request. -/
theorem ledgerStep_inTx (h : (call.inTx existing).run s = (.ok (), t)) :
    LedgerStep { resolves := some (call.resolution existing) } s t := by
  obtain ⟨row, v, hrow, hpending, heffect, ht⟩ := run_inTx_effect h
  have hclaimed : s.Agree [.gLAccount, .journal]
      (s.modify .approvalRequest call.requestId call.resolve) :=
    Db.Agree.modify (m := .approvalRequest) (by decide) s _ _
  have hlogged : v.Agree [.gLAccount, .journal] t := by
    rw [ht]
    exact Db.Agree.insert (m := .auditLog) (by decide) v _
  refine (Db.PostsTo.of_agree hclaimed).trans (Db.PostsTo.trans ?_ (.of_agree hlogged))
  unfold effect at heffect
  cases hdecision : call.decision with
  | approve =>
    simp only [hdecision] at heffect
    have happroves : (call.resolution existing).Approves s := by
      refine ⟨decide_eq_true hdecision, ?_⟩
      show (s.find? .approvalRequest call.requestId).map ApprovalRequest.status = _
      rw [hrow]
      exact congrArg some hpending
    -- The claim changes the request alone, on which nothing of what is looked up depends.
    refine (run_applyApproval_postsTo heffect).mono ?_ ?_
    · intro j hj
      exact .inr ⟨_, rfl, happroves, hj⟩
    · intro a ha
      exact .inr ⟨_, rfl, happroves, ha⟩
  | reject =>
    simp only [hdecision] at heffect
    exact run_applyRejection_postsTo heffect

end ResolveCall

end Approvals

end NexusEfos
