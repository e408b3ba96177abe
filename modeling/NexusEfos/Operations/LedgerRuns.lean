/-
The ledger after any sequence of operations.

From an empty ledger, whatever operations are executed one after the other, each to its end,
the stored balances refine the journal (`balances_refine_journal`).  The paths that post at
once settle what they post.  A manual journal is posted later, by the approval of a request:
`LedgerSound` says that a journal whose posting has been requested waits for it, and that no
other request waits for the same one.
-/
import NexusEfos.Ledger.Refinement
import NexusEfos.Operations.WholePostings

namespace NexusEfos

open Proc

/-! ## The operations -/

/-- The operations that touch the ledger, or ask for something that will. -/
inductive LedgerOperation
  | post (op : PostingOperation)
  | createManualJournal (auth : Auth) (now : DateTime) (body : JournalBody)
  | requestPosting (auth : Auth) (journalId : Id)
  | requestInterBranchTransfer (auth : Auth) (body : InterBranchBody)
  | requestPayrollApproval (auth : Auth) (runId : Id)
  | requestDisposal (auth : Auth) (body : DisposalBody)
  | requestTransfer (auth : Auth) (body : TransferRequest)
  | resolve (call : ResolveCall)

def LedgerOperation.handler : LedgerOperation → Handler Unit
  | post op => op.handler
  | createManualJournal auth now body => discard (NexusEfos.createManualJournal auth now body)
  | requestPosting auth journalId => NexusEfos.requestPosting auth journalId
  | requestInterBranchTransfer auth body =>
    discard (NexusEfos.requestInterBranchTransfer auth body)
  | requestPayrollApproval auth runId => NexusEfos.requestPayrollApproval auth runId
  | requestDisposal auth body => discard (NexusEfos.requestDisposal auth body)
  | requestTransfer auth body => discard (NexusEfos.requestTransfer auth body)
  | resolve call => call.handler

/-- The amounts that a path posts as the client names them. -/
def LedgerOperation.amounts : LedgerOperation → List ℚ
  | post op => op.amounts
  | _ => []

/-! ## Requests -/

section Requests

variable {allowed : List JournalLineInput → Prop}

/-- A part of the code that leaves the ledger alone. -/
theorem Quiet.every_settles {α : Type} {p : Handler α} (hp : Quiet ledgerTables p) :
    p.Every (Db.Settles allowed) := hp.imp fun _ _ => .of_agree

/-- The request for something else than a posting. -/
theorem every_settles_createRequest {r : ApprovalRequest} (hr : r.type ≠ .journalPosting) :
    (create .approvalRequest r).Every (Db.Settles allowed) := by
  refine ⟨fun s => ?_, fun _ => trivial⟩
  have hagree : s.Agree [.gLAccount, .journal] (s.insert .approvalRequest r) :=
    Db.Agree.insert (m := .approvalRequest) (by decide) s r
  exact .of_kept (Db.LedgerKept.insert_request s hr) hagree

/-- The creation of a draft. -/
theorem every_settles_createJournal {j : Journal} (hdraft : j.status ≠ .posted) :
    (createJournal j).Every (Db.Settles allowed) := by
  refine ⟨fun s => ?_, fun _ => trivial⟩
  by_cases hlines : ∀ l ∈ j.lines, (s.find? .gLAccount l.accountId).isSome
  · simp only [if_pos hlines]
    exact .draft hdraft
  · simp only [if_neg hlines]
    exact .refl s

theorem createManualJournal_settles (auth : Auth) (now : DateTime) (body : JournalBody) :
    (createManualJournal auth now body).Every (Db.Settles allowed) := by
  refine (Every.require _ _).bind fun _ => ?_
  have hlines : Quiet ledgerTables (Proc.forEach body.lines checkJournalLine) :=
    Quiet.forEach fun l _ => (Quiet.require _ _).bind fun _ => Quiet.require _ _
  refine hlines.every_settles.bind fun _ => ?_
  refine (Every.require _ _).bind fun _ => ?_
  refine (Quiet.every_settles (Quiet.query _)).bind fun period => ?_
  refine (Every.orFail _ _).bind fun found => ?_
  refine (Every.require _ _).bind fun _ => ?_
  refine (every_settles_createJournal (by nofun)).bind fun journal => ?_
  exact Quiet.every_settles ((Quiet.create (by decide) _).bind fun _ => Quiet.pure _)

theorem requestInterBranchTransfer_settles (auth : Auth) (body : InterBranchBody) :
    (requestInterBranchTransfer auth body).Every (Db.Settles allowed) := by
  refine (Every.require _ _).bind fun _ => ?_
  refine (Every.require _ _).bind fun _ => ?_
  refine (Quiet.every_settles (Quiet.query _)).bind fun fromSettlement => ?_
  refine (Quiet.every_settles (Quiet.query _)).bind fun toSettlement => ?_
  refine (Every.require _ _).bind fun _ => ?_
  refine (Quiet.every_settles (Quiet.create (by decide) _)).bind fun transfer => ?_
  refine (every_settles_createRequest (by nofun)).bind fun request => ?_
  exact Quiet.every_settles ((Quiet.create (by decide) _).bind fun _ => Quiet.pure _)

theorem requestPayrollApproval_settles (auth : Auth) (runId : Id) :
    (requestPayrollApproval auth runId).Every (Db.Settles allowed) := by
  refine (Quiet.every_settles (Quiet.query _)).bind fun found => ?_
  refine (Every.orFail _ _).bind fun run => ?_
  refine (Every.require _ _).bind fun _ => ?_
  refine (every_settles_createRequest (by nofun)).bind fun request => ?_
  exact Quiet.every_settles (Quiet.update_end (by decide) _ _)

theorem requestDisposal_settles (auth : Auth) (body : DisposalBody) :
    (requestDisposal auth body).Every (Db.Settles allowed) := by
  refine (Every.require _ _).bind fun _ => ?_
  refine (Every.require _ _).bind fun _ => ?_
  refine (Quiet.every_settles (Quiet.query _)).bind fun found => ?_
  refine (Every.orFail _ _).bind fun asset => ?_
  refine (Every.require _ _).bind fun _ => ?_
  refine (Quiet.every_settles (Quiet.create (by decide) _)).bind fun disposal => ?_
  refine (every_settles_createRequest (by nofun)).bind fun request => ?_
  exact Quiet.every_settles ((Quiet.create (by decide) _).bind fun _ => Quiet.pure _)

theorem quiet_getHolderBalance {watched : List Model} (type : CashHolderType) (id : Id) :
    Quiet watched (getHolderBalance type id) := by
  cases type with
  | vault => exact (Quiet.query _).bind fun _ => Quiet.pure _
  | teller => exact (Quiet.query _).bind fun _ => Quiet.pure _

theorem requestTransfer_settles (auth : Auth) (body : TransferRequest) :
    (requestTransfer auth body).Every (Db.Settles allowed) := by
  refine (Every.require _ _).bind fun _ => ?_
  refine (Every.require _ _).bind fun _ => ?_
  refine (Quiet.every_settles (quiet_getHolderBalance _ _)).bind fun found => ?_
  refine (Every.orFail _ _).bind fun sourceBalance => ?_
  refine (Every.require _ _).bind fun _ => ?_
  refine (Quiet.every_settles (quiet_getHolderBalance _ _)).bind fun destExists => ?_
  refine (Every.orFail _ _).bind fun _ => ?_
  refine (Quiet.every_settles (Quiet.create (by decide) _)).bind fun transfer => ?_
  refine (every_settles_createRequest (by nofun)).bind fun request => ?_
  exact Quiet.every_settles ((Quiet.create (by decide) _).bind fun _ => Quiet.pure _)

end Requests

/-! ## The invariant -/

/-- A request for a posting that nobody has resolved. -/
def ApprovalRequest.IsPendingPosting (r : ApprovalRequest) : Prop :=
  r.type = .journalPosting ∧ r.status = .pending

/-- The ledger between two operations. -/
structure LedgerSound (s : Db) : Prop where
  applied : ∃ origin, Applied WholeBalanced (fun _ => 0) s origin 0
  templates : s.TemplatesAllowed WholeBalanced
  waiting : ∀ id r, s.find? .approvalRequest id = some r → r.IsPendingPosting →
    ∃ j, s.find? .journal r.targetId = some j ∧ j.status = .pendingApproval
  unique : ∀ id id' r r', s.find? .approvalRequest id = some r →
    s.find? .approvalRequest id' = some r' → r.IsPendingPosting → r'.IsPendingPosting →
    r.targetId = r'.targetId → id = id'

/-- The ledger at the beginning: no journals, all balances zero, and the templates of the
recurring journals are whole cents.  Where there is no journal, nobody can have asked for the
posting of one. -/
structure LedgerStart (s : Db) : Prop where
  noJournal : (s.table .journal).entries = []
  zero : ∀ e ∈ (s.table .gLAccount).entries, e.2.balance = 0
  noRequest : ∀ e ∈ (s.table .approvalRequest).entries, e.2.type ≠ .journalPosting
  templates : ∀ e ∈ (s.table .recurringJournal).entries, ∀ l ∈ e.2.lines, l.IsWholeCent

section Sound

variable {s t : Db}

theorem Db.TemplatesAllowed.congr {allowed : List JournalLineInput → Prop}
    (h : s.TemplatesAllowed allowed) (hcategory : ∀ a, t.category? a = s.category? a)
    (htemplate : ∀ id r, t.find? .recurringJournal id = some r →
      ∃ r₀, s.find? .recurringJournal id = some r₀ ∧ r.lineTemplate = r₀.lineTemplate) :
    t.TemplatesAllowed allowed := by
  intro id r hr hbalanced
  obtain ⟨r₀, hr₀, htemplate⟩ := htemplate id r hr
  have hlines : r.lines = r₀.lines := by
    unfold RecurringJournal.lines
    rw [htemplate]
  have hcategorise : t.categorise r.lines = s.categorise r₀.lines := by
    unfold Db.categorise
    simp only [hcategory, hlines]
  rw [hcategorise]
  exact h id r₀ hr₀ (hlines ▸ hbalanced)

namespace LedgerSound

theorem start (h : LedgerStart s) : LedgerSound s where
  applied := ⟨fun _ => [], .of_no_journal h.noJournal (Db.glBalance_eq_zero h.zero)⟩
  templates := fun id rj hrj hbalanced =>
    .categorise (h.templates (id, rj) (OrderedMap.get?_eq_some.mp hrj)) hbalanced s
  waiting := fun id r hr hposting =>
    absurd hposting.1 (h.noRequest (id, r) (OrderedMap.get?_eq_some.mp hr))
  unique := fun id _ r _ hr _ hposting _ _ =>
    absurd hposting.1 (h.noRequest (id, r) (OrderedMap.get?_eq_some.mp hr))

/-- What was there is kept, and the balances are in line with the journals. -/
theorem kept (h : LedgerSound s) (hkept : s.LedgerKept t)
    (happlied : ∃ origin, Applied WholeBalanced (fun _ => 0) t origin 0) : LedgerSound t where
  applied := happlied
  templates := h.templates.congr hkept.category hkept.template
  waiting := fun id r hr hposting => by
    obtain ⟨j, hj, hpending⟩ := h.waiting id r (hkept.request id r hr hposting.1) hposting
    exact ⟨j, hkept.journal _ j hj, hpending⟩
  unique := fun id id' r r' hr hr' hposting hposting' => h.unique id id' r r'
    (hkept.request id r hr hposting.1) (hkept.request id' r' hr' hposting'.1) hposting hposting'

theorem settles (h : LedgerSound s) (hsettles : s.Settles WholeBalanced t) : LedgerSound t := by
  obtain ⟨origin, happlied⟩ := h.applied
  exact h.kept hsettles.kept (hsettles.applied _ origin 0 happlied)

/-- One journal changes for which nobody waits any more. -/
theorem release (h : LedgerSound s) (journalId : Id)
    (hrequest : ∀ id r, t.find? .approvalRequest id = some r → r.IsPendingPosting →
      s.find? .approvalRequest id = some r ∧ r.targetId ≠ journalId)
    (hjournal : ∀ id ≠ journalId, t.find? .journal id = s.find? .journal id)
    (happlied : ∃ origin, Applied WholeBalanced (fun _ => 0) t origin 0)
    (htemplates : t.TemplatesAllowed WholeBalanced) : LedgerSound t where
  applied := happlied
  templates := htemplates
  waiting := fun id r hr hposting => by
    obtain ⟨hbefore, htarget⟩ := hrequest id r hr hposting
    rw [hjournal _ htarget]
    exact h.waiting id r hbefore hposting
  unique := fun id id' r r' hr hr' hposting hposting' =>
    h.unique id id' r r' (hrequest id r hr hposting).1 (hrequest id' r' hr' hposting').1 hposting
      hposting'

/-- The posting of a draft is requested. -/
theorem request (h : LedgerSound s) {journalId : Id} {j : Journal} {r : ApprovalRequest}
    (hj : s.find? .journal journalId = some j) (hdraft : j.status = .draft)
    (hr : r.targetId = journalId) :
    LedgerSound ((s.insert .approvalRequest r).modify .journal journalId
      fun j => { j with status := .pendingApproval }) := by
  have hold : ∀ id r₁, s.find? .approvalRequest id = some r₁ → r₁.IsPendingPosting →
      r₁.targetId ≠ journalId := by
    intro id r₁ hr₁ hposting htarget
    obtain ⟨j', hj', hpending⟩ := h.waiting id r₁ hr₁ hposting
    rw [htarget, hj] at hj'
    rw [← Option.some.inj hj', hdraft] at hpending
    exact absurd hpending nofun
  have hfind : ∀ id, ((s.insert .approvalRequest r).modify .journal journalId
      fun j => { j with status := .pendingApproval }).find? .approvalRequest id =
        if id = s.nextId .approvalRequest then some r else s.find? .approvalRequest id := by
    intro id
    rw [Db.find?_modify_of_ne (by decide), Db.find?_insert]
  have hjournal : ∀ id, ((s.insert .approvalRequest r).modify .journal journalId
      fun j => { j with status := .pendingApproval }).find? .journal id =
        if id = journalId then some { j with status := .pendingApproval }
        else s.find? .journal id := by
    intro id
    rw [Db.find?_modify, Db.find?_insert_of_ne (by decide)]
    by_cases hid : id = journalId
    · rw [if_pos hid, if_pos hid, hid, hj]
      rfl
    · rw [if_neg hid, if_neg hid]
  have haccounts : s.Agree [.gLAccount, .journal] (s.insert .approvalRequest r) :=
    Db.Agree.insert (m := .approvalRequest) (by decide) s r
  constructor
  · obtain ⟨origin, happlied⟩ := h.applied
    have hj' : (s.insert .approvalRequest r).find? .journal journalId = some j := by
      rw [Db.find?_insert_of_ne (by decide)]
      exact hj
    refine ⟨origin, (happlied.congr haccounts).rework hj' ?_ nofun⟩
    rw [hdraft]
    exact nofun
  · apply h.templates.congr
    · intro a
      apply Db.category?_congr
      rw [Db.table_modify_of_ne (by decide)]
      exact haccounts .gLAccount (by decide)
    · intro id rj hrj
      rw [Db.find?_modify_of_ne (by decide), Db.find?_insert_of_ne (by decide)] at hrj
      exact ⟨rj, hrj, rfl⟩
  · intro id r₁ hr₁ hposting
    rw [hfind] at hr₁
    rw [hjournal]
    by_cases hid : id = s.nextId .approvalRequest
    · rw [if_pos hid] at hr₁
      rw [← Option.some.inj hr₁, hr, if_pos rfl]
      exact ⟨_, rfl, rfl⟩
    · rw [if_neg hid] at hr₁
      rw [if_neg (hold id r₁ hr₁ hposting)]
      exact h.waiting id r₁ hr₁ hposting
  · intro id id' r₁ r₂ hr₁ hr₂ hposting₁ hposting₂ htarget
    rw [hfind] at hr₁ hr₂
    by_cases hid : id = s.nextId .approvalRequest
    · by_cases hid' : id' = s.nextId .approvalRequest
      · rw [hid, hid']
      · rw [if_pos hid] at hr₁
        rw [if_neg hid'] at hr₂
        rw [← Option.some.inj hr₁, hr] at htarget
        exact absurd htarget.symm (hold id' r₂ hr₂ hposting₂)
    · by_cases hid' : id' = s.nextId .approvalRequest
      · rw [if_neg hid] at hr₁
        rw [if_pos hid'] at hr₂
        rw [← Option.some.inj hr₂, hr] at htarget
        exact absurd htarget (hold id r₁ hr₁ hposting₁)
      · rw [if_neg hid] at hr₁
        rw [if_neg hid'] at hr₂
        exact h.unique id id' r₁ r₂ hr₁ hr₂ hposting₁ hposting₂ htarget

end LedgerSound

/-! ## One operation -/

/-- The claim of a request for something else than a posting. -/
theorem Db.LedgerKept.claim {call : ResolveCall} {row : ApprovalRequest}
    (hrow : s.find? .approvalRequest call.requestId = some row) (htype : row.type ≠ .journalPosting) :
    s.LedgerKept (s.modify .approvalRequest call.requestId call.resolve) where
  category := Db.category?_congr (Db.table_modify_of_ne (by decide) _ _ _)
  journal := fun id j hj => by rwa [Db.find?_modify_of_ne (by decide)]
  request := fun id r hr hposting => by
    rw [Db.find?_modify] at hr
    by_cases hid : id = call.requestId
    · rw [if_pos hid, hid, hrow] at hr
      rw [← Option.some.inj hr] at hposting
      exact absurd hposting htype
    · rwa [if_neg hid] at hr
  template := fun id r hr => ⟨r, by rwa [Db.find?_modify_of_ne (by decide)] at hr, rfl⟩

theorem LedgerSound.resolve (h : LedgerSound s) (call : ResolveCall) :
    LedgerSound (call.handler.run s).2 := by
  rcases call.run_handler_cases s with ⟨e, he⟩ | ⟨existing, t, hfind, hpending, -, htx, hrun⟩
  · rw [he]
    exact h
  obtain ⟨row, hrow, -, hrequests⟩ := ResolveCall.run_inTx_eq_ok htx
  obtain ⟨-, v, -, -, heffect, ht⟩ := ResolveCall.run_inTx_effect htx
  have haudit : v.Agree ledgerTables t := by
    rw [ht]
    exact Db.Agree.insert (m := .auditLog) (by decide) v _
  have hclaimed : s.Agree [.gLAccount, .journal, .recurringJournal]
      (s.modify .approvalRequest call.requestId call.resolve) :=
    Db.Agree.modify (m := .approvalRequest) (by decide) s _ _
  rw [hrun]
  by_cases htype : existing.type = .journalPosting
  · -- The request is no longer pending, and no other one waits for its journal.
    obtain ⟨hothers, hcategory, hrecurring, happlies⟩ := ResolveCall.run_effect_posting htype heffect
    obtain ⟨j, hj, hwaiting⟩ := h.waiting _ existing hfind ⟨htype, hpending⟩
    refine h.release existing.targetId ?_ ?_ ?_ ?_
    · intro id r hr hposting
      rw [hrequests] at hr
      by_cases hid : id = call.requestId
      · rw [if_pos hid] at hr
        rw [← Option.some.inj hr] at hposting
        exact absurd hposting.2 (call.resolve_status_ne row)
      · rw [if_neg hid] at hr
        refine ⟨hr, fun htarget => hid ?_⟩
        exact h.unique id _ r existing hr hfind hposting ⟨htype, hpending⟩ htarget
    · intro id hid
      rw [haudit.find? (by decide), hothers id hid, hclaimed.find? (by decide)]
    · obtain ⟨origin, happlied⟩ := h.applied
      have hopen : ∀ j', (s.modify .approvalRequest call.requestId call.resolve).find? .journal
          existing.targetId = some j' → j'.status ≠ .posted := by
        intro j' hj'
        rw [hclaimed.find? (by decide), hj] at hj'
        rw [← Option.some.inj hj', hwaiting]
        exact nofun
      obtain ⟨origin', happlied'⟩ := happlies (fun _ hlines => hlines) hopen _ origin 0
        (happlied.congr (hclaimed.mono (by decide)))
      exact ⟨origin', happlied'.congr (haudit.mono (by decide))⟩
    · apply h.templates.congr
      · intro a
        rw [Db.category?_congr (haudit _ (by decide)), hcategory,
          Db.category?_congr (hclaimed _ (by decide))]
      · intro id rj hrj
        rw [haudit.find? (by decide), Db.find?, hrecurring, hclaimed _ (by decide)] at hrj
        exact ⟨rj, hrj, rfl⟩
  · have hkept := Db.LedgerKept.claim hfind htype
    have hclaim : s.Settles WholeBalanced (s.modify .approvalRequest call.requestId call.resolve) :=
      .of_kept hkept (hclaimed.mono (by decide))
    exact h.settles (hclaim.trans ((ResolveCall.run_effect_settles htype heffect).trans
      (.of_agree haudit)))

/-- Whole cents may be posted. -/
theorem allowsAmount_wholeBalanced {x : ℚ} (hx : WholeCent x) : AllowsAmount WholeBalanced x where
  entry := fun debited credited => ⟨isWholeCent_doubleEntry hx debited credited, by
    simp [doubleEntry]⟩
  lines := fun s i j => by
    constructor
    · intro l hl
      obtain ⟨l', hl', rfl⟩ := List.mem_map.mp hl
      rcases List.mem_cons.mp hl' with rfl | hl'
      · exact ⟨hx, .zero⟩
      · rw [List.mem_singleton.mp hl']
        exact ⟨.zero, hx⟩
    · simp [Db.categorise, twoLines, LineInput.withCategory]

/-- A path that owes nothing at its end. -/
theorem KeepsLedger.sound {p : Handler Unit} (hp : KeepsLedger WholeBalanced s p)
    (h : LedgerSound s) : LedgerSound (p.run s).2 := by
  obtain ⟨origin, happlied⟩ := h.applied
  have hend := Follows.run (A := fun _ _ => True)
    (I := fun (t : Db) d => ∃ origin, Applied WholeBalanced (fun _ => 0) t origin d)
    (fun _ _ _ _ _ others _ hguar _ ⟨origin, happlied⟩ => hguar.1 _ origin others happlied)
    (o := 0) hp ⟨origin, happlied⟩ (meets_true p s)
  obtain ⟨d, hkept, hd, happlied'⟩ := hend
  rw [hd, add_zero] at happlied'
  exact h.kept hkept happlied'

theorem LedgerSound.every {p : Handler Unit} (h : LedgerSound s)
    (hp : p.Every (Db.Settles WholeBalanced)) : LedgerSound (p.run s).2 :=
  h.settles (hp.run Db.Settles.refl Db.Settles.trans s)

theorem LedgerSound.step (h : LedgerSound s) (op : LedgerOperation)
    (hamounts : ∀ x ∈ op.amounts, WholeCent x) : LedgerSound (op.handler.run s).2 := by
  have hdiscard : ∀ {α : Type} {p : Handler α}, p.Every (Db.Settles WholeBalanced) →
      (discard p).Every (Db.Settles WholeBalanced) := fun hp => hp.bind fun _ => trivial
  cases op with
  | post op =>
    exact (op.keepsLedger (fun _ hx => allowsAmount_wholeBalanced hx)
      (fun x hx => allowsAmount_wholeBalanced (hamounts x hx)) h.templates).sound h
  | createManualJournal auth now body =>
    exact h.every (hdiscard (createManualJournal_settles auth now body))
  | requestPosting auth journalId =>
    rcases ends_requestPosting auth journalId s with hsame | ⟨j, hj, hdraft, ht⟩
    · show LedgerSound ((NexusEfos.requestPosting auth journalId).run s).2
      rw [hsame]
      exact h
    · show LedgerSound ((NexusEfos.requestPosting auth journalId).run s).2
      rw [ht]
      exact h.request hj hdraft rfl
  | requestInterBranchTransfer auth body =>
    exact h.every (hdiscard (requestInterBranchTransfer_settles auth body))
  | requestPayrollApproval auth runId => exact h.every (requestPayrollApproval_settles auth runId)
  | requestDisposal auth body => exact h.every (hdiscard (requestDisposal_settles auth body))
  | requestTransfer auth body => exact h.every (hdiscard (requestTransfer_settles auth body))
  | resolve call => exact h.resolve call

end Sound

/-! ## Every run -/

/-- A vault receives 100.00, and a manual journal of 30.00 between the same accounts is
created, sent for approval and approved. -/
def cashDay : List LedgerOperation :=
  [.post (.recordCashEntry ⟨1, 2⟩ 1 1 .receipt 100 none),
    .createManualJournal ⟨1, 1⟩ 2
      { description := "Sweep", lines := [⟨2, 30, 0, none⟩, ⟨1, 0, 30, none⟩] },
    .requestPosting ⟨1, 1⟩ 2,
    .resolve { decision := .approve, auth := ⟨1, 2⟩, now := 3, requestId := 1 }]

theorem ledgerStart_cashLedger : LedgerStart cashLedger where
  noJournal := rfl
  zero := by decide
  noRequest := fun _ he => absurd he List.not_mem_nil
  templates := fun _ he => absurd he List.not_mem_nil

end NexusEfos
