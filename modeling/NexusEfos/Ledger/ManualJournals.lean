/-
What goes into the ledger after an approval: manual journals, of
`routes/generalLedger.routes.ts`, and transfers between branches, of
`routes/interBranch.routes.ts`.

A manual journal is created as a draft.  Its posting is requested by one user and approved
by another.
-/
import NexusEfos.Handlers

namespace NexusEfos

/-! ## The code -/

/-- `createJournalSchema`. -/
structure JournalBody where
  description : String
  postingDate : Option DateTime := none
  lines : List LineInput

/-- What the schema asks for. -/
def JournalBody.IsValid (body : JournalBody) : Prop :=
  2 ≤ jsLength body.description ∧ 2 ≤ body.lines.length ∧
    ∀ l ∈ body.lines, 0 ≤ l.debit ∧ 0 ≤ l.credit

instance (body : JournalBody) : Decidable body.IsValid :=
  inferInstanceAs (Decidable (2 ≤ jsLength body.description ∧ 2 ≤ body.lines.length ∧
    ∀ l ∈ body.lines, 0 ≤ l.debit ∧ 0 ≤ l.credit))

/-- The check of one line. -/
def checkJournalLine (line : LineInput) : Handler Unit := do
  Proc.require (¬ (0 < line.debit ∧ 0 < line.credit))
    (.http 400 "A single journal line cannot have both a debit and a credit")
  Proc.require (¬ (line.debit = 0 ∧ line.credit = 0))
    (.http 400 "Every journal line must have either a debit or a credit")

/-- The draft that a request creates. -/
def JournalBody.draft (body : JournalBody) (auth : Auth) (postingDate : DateTime) : Journal :=
  { institutionId := auth.institutionId, type := .manual, description := body.description,
    postingDate, createdById := auth.userId, lines := body.lines.map LineInput.stored }

/-- `POST /journals`. -/
def createManualJournal (auth : Auth) (now : DateTime) (body : JournalBody) : Handler Id := do
  Proc.require body.IsValid .invalid
  Proc.forEach body.lines checkJournalLine
  Proc.require (isBalanced body.lines = true)
    (.http 400 "Total debits must equal total credits")
  let postingDate := body.postingDate.getD now
  let period ← findPostablePeriod auth.institutionId postingDate
  let found ← Proc.orFail period
    (.http 400 "No financial period covers this posting date — create one first")
  Proc.require (found.2.status = .opened)
    (.http 400 ("The financial period covering this date is " ++ found.2.status.text ++
      " — cannot create a journal against it"))
  let journal ← createJournal (body.draft auth postingDate)
  let _ ← create .auditLog
    { institutionId := auth.institutionId, userId := some auth.userId, action := "journal.create",
      resource := "journal", resourceId := some journal }
  return journal

def JournalStatus.text : JournalStatus → String
  | .draft => "DRAFT"
  | .pendingApproval => "PENDING_APPROVAL"
  | .posted => "POSTED"
  | .rejected => "REJECTED"

/-- The request for the posting of a journal. -/
def postingRequest (auth : Auth) (journalId : Id) (journal : Journal) : ApprovalRequest :=
  { institutionId := auth.institutionId, type := .journalPosting, targetType := "Journal",
    targetId := journalId, reason := some ("Post journal: " ++ journal.description),
    requestedById := auth.userId }

/-- `POST /journals/:id/request-posting`. -/
def requestPosting (auth : Auth) (journalId : Id) : Handler Unit := do
  let found ← findById .journal journalId fun j => j.institutionId = auth.institutionId
  let journal ← Proc.orFail found (.http 404 "Journal not found")
  Proc.require (journal.status = .draft)
    (.http 400 ("Only a DRAFT journal can request posting (currently " ++ journal.status.text ++ ")"))
  let _ ← create .approvalRequest (postingRequest auth journalId journal)
  let _ ← updateAs { marksPending := some journalId } .journal journalId fun j =>
    { j with status := .pendingApproval }

/-- `transferSchema` of the transfers between branches. -/
structure InterBranchBody where
  fromBranchId : Id
  toBranchId : Id
  fromGLAccountId : Id
  toGLAccountId : Id
  amount : ℚ
  description : String

/-- `POST /transfers`. -/
def requestInterBranchTransfer (auth : Auth) (body : InterBranchBody) : Handler Id := do
  Proc.require (0 < body.amount ∧ 2 ≤ jsLength body.description) .invalid
  Proc.require (body.fromBranchId ≠ body.toBranchId)
    (.http 400 "Source and destination branches must differ")
  let fromSettlement ← findFirst .branchSettlementAccount fun _ a => a.branchId = body.fromBranchId
  let toSettlement ← findFirst .branchSettlementAccount fun _ a => a.branchId = body.toBranchId
  Proc.require (fromSettlement.isSome ∧ toSettlement.isSome)
    (.http 400 "Both branches must have a settlement account set up first")
  let transfer ← create .interBranchTransfer
    { institutionId := auth.institutionId, fromBranchId := body.fromBranchId,
      toBranchId := body.toBranchId, fromGLAccountId := body.fromGLAccountId,
      toGLAccountId := body.toGLAccountId, amount := ofNumber body.amount,
      description := body.description, requestedById := auth.userId }
  let _ ← create .approvalRequest
    { institutionId := auth.institutionId, type := .interBranchTransfer,
      targetType := "InterBranchTransfer", targetId := transfer, reason := some body.description,
      requestedById := auth.userId }
  let _ ← create .auditLog
    { institutionId := auth.institutionId, userId := some auth.userId,
      action := "inter_branch_transfer.requested", resource := "inter_branch_transfer",
      resourceId := some transfer }
  return transfer

/-! ## What they do -/

section Run

variable {s t : Db} {auth : Auth} {now : DateTime} {body : JournalBody} {journalId : Id}

theorem run_forEach_checkJournalLine {lines : List LineInput} {u : Unit}
    (h : (Proc.forEach lines checkJournalLine).run s = (.ok u, t)) : t = s := by
  have hsame : (Proc.forEach lines checkJournalLine).Every (Eq (α := Db)) :=
    Proc.Every.forEach fun _ _ => (Proc.Every.require _ _).bind fun _ => Proc.Every.require _ _
  have hrun := hsame.run Eq.refl Eq.trans s
  rw [h] at hrun
  exact hrun.symm

/-- A journal that is created is a draft of the lines that were asked for. -/
theorem run_createManualJournal_eq_ok (h : (createManualJournal auth now body).run s = (.ok journalId, t)) :
    body.IsValid ∧ isBalanced body.lines = true ∧ journalId = s.nextId .journal ∧
      (s.insert .journal (body.draft auth (body.postingDate.getD now))).Agree
        [.gLAccount, .journal, .approvalRequest, .recurringJournal] t := by
  obtain ⟨hvalid, h₁⟩ := run_require_bind_eq_ok h
  obtain ⟨_, s₁, hcheck, h₂⟩ := Proc.run_bind_eq_ok h₁
  rw [run_forEach_checkJournalLine hcheck] at h₂
  obtain ⟨hbalanced, h₃⟩ := run_require_bind_eq_ok h₂
  obtain ⟨period, s₂, hread, h₄⟩ := Proc.run_bind_eq_ok h₃
  have hs₂ : s₂ = s := (Prod.mk.inj hread).2.symm
  obtain ⟨found, s₃, hfound, h₅⟩ := Proc.run_bind_eq_ok h₄
  obtain ⟨-, hs₃⟩ := run_orFail_eq_ok hfound
  obtain ⟨-, h₆⟩ := run_require_bind_eq_ok h₅
  obtain ⟨journal, s₄, hcreate, h₇⟩ := Proc.run_bind_eq_ok h₆
  obtain ⟨-, hjournal, hs₄⟩ := run_createJournal_eq_ok hcreate
  obtain ⟨entry, s₅, haudit, h₈⟩ := Proc.run_bind_eq_ok h₇
  obtain ⟨-, hs₅⟩ := run_create_eq_ok haudit
  obtain ⟨hanswer, ht⟩ := Prod.mk.inj h₈
  rw [hs₃, hs₂] at hjournal hs₄
  refine ⟨hvalid, hbalanced, (Except.ok.inj hanswer).symm.trans hjournal, ?_⟩
  rw [← ht, hs₅, hs₄]
  exact Db.Agree.insert (by decide) _ _

/-- A request for a posting finds a draft, and marks it. -/
theorem run_requestPosting_eq_ok {u : Unit} (h : (requestPosting auth journalId).run s = (.ok u, t)) :
    ∃ j, s.find? .journal journalId = some j ∧ j.status = .draft ∧
      t = (s.insert .approvalRequest (postingRequest auth journalId j)).modify .journal journalId
        fun j => { j with status := .pendingApproval } := by
  obtain ⟨found, s₁, hread, h₁⟩ := Proc.run_bind_eq_ok h
  obtain ⟨hfound, hs₁⟩ := Prod.mk.inj hread
  obtain ⟨journal, s₂, hsome, h₂⟩ := Proc.run_bind_eq_ok h₁
  obtain ⟨hjournal, hs₂⟩ := run_orFail_eq_ok hsome
  rw [← Except.ok.inj hfound] at hjournal
  obtain ⟨hfind, -⟩ := Option.filter_eq_some_iff.mp hjournal
  obtain ⟨hdraft, h₃⟩ := run_require_bind_eq_ok h₂
  obtain ⟨request, s₃, hcreate, h₄⟩ := Proc.run_bind_eq_ok h₃
  obtain ⟨-, hs₃⟩ := run_create_eq_ok hcreate
  obtain ⟨updated, s₄, hmark, h₅⟩ := Proc.run_bind_eq_ok h₄
  obtain ⟨row, -, -, hs₄⟩ := run_update_eq_ok hmark
  have ht : t = s₄ := (Prod.mk.inj h₅).2.symm
  refine ⟨journal, hfind, hdraft, ?_⟩
  rw [ht, hs₄, hs₃, hs₂, ← hs₁]

/-- A request for a posting that fails changes nothing. -/
theorem ends_requestPosting (auth : Auth) (journalId : Id) (s : Db) :
    (requestPosting auth journalId).Ends (fun _ t => t = s ∨
      ∃ j, s.find? .journal journalId = some j ∧ j.status = .draft ∧
        t = (s.insert .approvalRequest (postingRequest auth journalId j)).modify .journal journalId
          fun j => { j with status := .pendingApproval }) s := by
  apply ends_query
  apply Proc.Ends.orFail _ fun _ => .inl rfl
  intro journal hjournal
  have hfind := (Option.filter_eq_some_iff.mp hjournal).1
  apply Proc.Ends.require _ fun _ => .inl rfl
  intro hdraft
  have hlater : (s.insert .approvalRequest (postingRequest auth journalId journal)).find? .journal
      journalId = some journal := by
    rw [Db.find?_insert_of_ne (by decide)]
    exact hfind
  apply ends_create
  apply ends_updateAs
  · intro row hrow
    exact .inr ⟨journal, hfind, hdraft, rfl⟩
  · intro hnone
    rw [hlater] at hnone
    exact absurd hnone nofun

end Run

end NexusEfos
