/-
A journal is posted once.

The request for a posting reads the journal, creates the approval request and marks the
journal in three statements, and neither an approval nor a rejection looks at the status of
the journal.  So two users can ask for the posting of one draft at the same time, and the
second approval applies its lines again (`journal_posted_twice`).  As long as no statement of
these calls reaches a journal that has been posted, every posted journal has been applied once
and stays posted (`journals_posted_once`).
-/
import NexusEfos.Ledger.Refinement

namespace NexusEfos

open DoubleEntry

/-! ## The calls -/

/-- A call that takes part in the posting of a journal. -/
inductive PostingCall
  | requestPosting (auth : Auth) (journalId : Id)
  | resolve (call : ResolveCall)

def PostingCall.handler : PostingCall → Handler Unit
  | requestPosting auth journalId => NexusEfos.requestPosting auth journalId
  | resolve call => call.handler

def postingCallPool {ι : Type} (calls : ι → PostingCall) (s : Db) :
    Pool ι Access Db Failure Unit :=
  ⟨fun i => (calls i).handler, s⟩

/-- If there is a request under this key, it is one for a posting. -/
def Db.AsksForPosting (s : Db) (requestId : Id) : Prop :=
  ∀ r, s.find? .approvalRequest requestId = some r → r.type = .journalPosting

/-- A call resolves requests for postings only. -/
def PostingCall.ConcernsPosting (s : Db) : PostingCall → Prop
  | requestPosting _ _ => True
  | resolve call => s.AsksForPosting call.requestId

/-! ## What is to be shown -/

namespace Db

/-- The journal has been posted. -/
def Posted (s : Db) (id : Id) : Prop :=
  (s.find? .journal id).map Journal.status = some .posted

instance (s : Db) (id : Id) : Decidable (s.Posted id) :=
  inferInstanceAs (Decidable ((s.find? .journal id).map Journal.status = some .posted))

/-- What the lines of the journals that are posted in `t`, and were not posted in `s`, come to
on an account. -/
def newlyPosted (s t : Db) (a : Id) : Cents :=
  (t.table .journal).total fun id j =>
    if j.status = .posted ∧ ¬ s.Posted id then movement s.side (j.lines.map JournalLine.entry) a
    else 0

/-- Since `s`, what was posted has stayed posted, and the balances have moved by the lines of
the journals that have been posted, each of them once. -/
structure PostedSince (s t : Db) : Prop where
  category : ∀ a, t.category? a = s.category? a
  posted : ∀ id, s.Posted id → t.Posted id
  balance : ∀ a, t.glBalance a = s.glBalance a + newlyPosted s t a

end Db

/-- The statement reaches no journal that has been posted: neither does it resolve a request
for the posting of one, nor does it mark one as pending. -/
def Access.LeavesPosted (lab : Access) (s : Db) : Prop :=
  (∀ r ∈ lab.resolves, (s.find? .approvalRequest r.requestId).map ApprovalRequest.status =
    some .pending → ¬ s.Posted r.request.targetId) ∧ ∀ id ∈ lab.marksPending, ¬ s.Posted id

instance (lab : Access) (s : Db) : Decidable (lab.LeavesPosted s) :=
  inferInstanceAs (Decidable ((∀ r ∈ lab.resolves,
    (s.find? .approvalRequest r.requestId).map ApprovalRequest.status = some .pending →
      ¬ s.Posted r.request.targetId) ∧ ∀ id ∈ lab.marksPending, ¬ s.Posted id))

/-! ## One statement -/

section Step

variable {s t u : Db}

theorem Db.posted_congr (h : t.table .journal = s.table .journal) (id : Id) :
    t.Posted id ↔ s.Posted id := by
  unfold Posted find?
  rw [h]

theorem Db.posted_of_find? {id : Id} {j : Journal} (h : s.find? .journal id = some j) :
    s.Posted id ↔ j.status = .posted := by
  unfold Posted
  rw [h]
  exact ⟨fun hstatus => Option.some.inj hstatus, fun hstatus => congrArg some hstatus⟩

namespace Db.PostedSince

theorem refl (s : Db) : s.PostedSince s where
  category := fun _ => rfl
  posted := fun _ h => h
  balance := fun a => by
    have hnone : newlyPosted s s a = 0 := by
      apply OrderedMap.total_eq_zero
      intro id j hmem
      apply if_neg
      intro h
      exact h.2 ((posted_of_find? (OrderedMap.get?_eq_some.mpr hmem)).mpr h.1)
    rw [hnone, add_zero]

theorem congr (h : s.PostedSince t) (hsame : t.Agree [.gLAccount, .journal] u) :
    s.PostedSince u where
  category := fun a => (category?_congr (hsame _ (by decide)) a).trans (h.category a)
  posted := fun id hid => (posted_congr (hsame _ (by decide)) id).mpr (h.posted id hid)
  balance := fun a => by
    unfold newlyPosted
    rw [glBalance_congr (hsame _ (by decide)), hsame .journal (by decide)]
    exact h.balance a

/-- The sum over the new postings after a journal that was not posted has changed. -/
theorem newlyPosted_modify (h : s.PostedSince t) {id : Id} {j : Journal}
    (hj : t.find? .journal id = some j) (hopen : j.status ≠ .posted) {f : Journal → Journal}
    (hlines : (f j).lines = j.lines) (a : Id) :
    newlyPosted s (t.modify .journal id f) a = newlyPosted s t a +
      if (f j).status = .posted then movement s.side (j.lines.map JournalLine.entry) a else 0 := by
  have hbefore : ¬ s.Posted id := fun hs => hopen ((posted_of_find? hj).mp (h.posted id hs))
  unfold newlyPosted
  rw [table_modify_self, OrderedMap.total_modify_of_some hj, hlines,
    if_neg fun hboth : j.status = .posted ∧ ¬ s.Posted id => hopen hboth.1, sub_zero]
  congr 1
  by_cases hstatus : (f j).status = .posted
  · rw [if_pos ⟨hstatus, hbefore⟩, if_pos hstatus]
  · rw [if_neg hstatus, if_neg fun hboth => hstatus hboth.1]

theorem posted_modify (h : s.PostedSince t) {id : Id} {j : Journal}
    (hj : t.find? .journal id = some j) (hopen : j.status ≠ .posted) (f : Journal → Journal)
    (id' : Id) (hid' : s.Posted id') : (t.modify .journal id f).Posted id' := by
  have hne : id' ≠ id := by
    intro heq
    rw [heq] at hid'
    exact hopen ((posted_of_find? hj).mp (h.posted id hid'))
  unfold Posted
  rw [find?_modify, if_neg hne]
  exact h.posted id' hid'

/-- A journal that is not posted changes, and is still not posted. -/
theorem rework (h : s.PostedSince t) {id : Id} {j : Journal} (hj : t.find? .journal id = some j)
    (hopen : j.status ≠ .posted) {f : Journal → Journal} (hlines : (f j).lines = j.lines)
    (hstill : (f j).status ≠ .posted) : s.PostedSince (t.modify .journal id f) where
  category := fun a =>
    (category?_congr (table_modify_of_ne (by decide) _ _ _) a).trans (h.category a)
  posted := h.posted_modify hj hopen f
  balance := fun a => by
    rw [glBalance_congr (table_modify_of_ne (by decide) _ _ _), h.newlyPosted_modify hj hopen hlines,
      if_neg hstill, add_zero]
    exact h.balance a

/-- A journal that is not posted is applied and posted. -/
theorem publish (h : s.PostedSince t) {id : Id} {j : Journal} (hj : t.find? .journal id = some j)
    (hopen : j.status ≠ .posted) {found : List (JournalLine × GLAccount)}
    (hfst : found.map Prod.fst = j.lines)
    (haccounts : ∀ l ∈ found, t.find? .gLAccount l.1.accountId = some l.2) {f : Journal → Journal}
    (hlines : (f j).lines = j.lines) (hposted : (f j).status = .posted) :
    s.PostedSince ((t.applyEffects (inputsOf found)).modify .journal id f) := by
  have hside : t.side = s.side := by
    funext a
    unfold side
    rw [h.category]
  have hmoved : ∀ a, (t.applyEffects (inputsOf found)).glBalance a =
      t.glBalance a + movement s.side (j.lines.map JournalLine.entry) a := by
    intro a
    have hcategorised := categorised_describedInputsOf haccounts
    have hmovement := movementOf_eq (isWholeCent_describedInputsOf found) hcategorised a
    rw [stored_describedInputsOf, hfst, hside] at hmovement
    rw [← applyEffects_describedInputsOf, ← hmovement]
    exact glBalance_applyEffects_of_category? hcategorised a
  have hjournal : (t.applyEffects (inputsOf found)).table .journal = t.table .journal :=
    table_applyEffects (by decide) _ _
  have hagree : (t.modify .journal id f).Agree [.journal]
      ((t.applyEffects (inputsOf found)).modify .journal id f) := by
    intro m hm
    rw [List.mem_singleton.mp hm, table_modify_self, table_modify_self, hjournal]
  constructor
  · intro a
    rw [category?_congr (table_modify_of_ne (by decide) _ _ _), category?_applyEffects, h.category]
  · intro id' hid'
    rw [posted_congr (hagree .journal (by decide))]
    exact h.posted_modify hj hopen f id' hid'
  · intro a
    have hnew : newlyPosted s ((t.applyEffects (inputsOf found)).modify .journal id f) a =
        newlyPosted s (t.modify .journal id f) a := by
      unfold newlyPosted
      rw [hagree .journal (by decide)]
    rw [hnew, h.newlyPosted_modify hj hopen hlines, if_pos hposted,
      glBalance_congr (table_modify_of_ne (by decide) _ _ _), hmoved, h.balance, add_assoc]

end Db.PostedSince

end Step

/-! ## The calls keep to it -/

/-- A key under which requests for postings are filed stays one, and a statement that reaches
no posted journal posts each journal once. -/
def postingProtocol : Protocol Access Db Unit where
  rely s t := ∀ id, s.AsksForPosting id → t.AsksForPosting id
  guar lab t _ u _ := lab.LeavesPosted t → ∀ s : Db, s.PostedSince t → s.PostedSince u
  refl := fun _ _ h => h
  trans := fun h h' id hid => h' id (h id hid)

theorem postingProtocol_watches : postingProtocol.Watches [.gLAccount, .journal, .approvalRequest] := by
  intro lab t u _ hsame
  constructor
  · intro id hid r hr
    rw [hsame.find? (by decide)] at hr
    exact hid r hr
  · intro _ s hs
    exact hs.congr (hsame.mono (by decide))

section Calls

variable {s : Db}

theorem follows_requestPosting (auth : Auth) (journalId : Id) :
    (requestPosting auth journalId).Follows postingProtocol (fun _ _ _ => True) s () := by
  apply postingProtocol_watches.query
  intro s₁ _
  refine Proc.Follows.orFail (fun journal _ => ?_) fun _ => trivial
  refine Proc.Follows.require (fun _ => ?_) fun _ => trivial
  -- The request is created.
  intro s₂ _
  refine ⟨(), ?_, ?_, ?_⟩
  · intro id hid r hr
    have hfind := Db.find?_insert s₂ .approvalRequest (postingRequest auth journalId journal) id
    by_cases hnew : id = s₂.nextId .approvalRequest
    · rw [if_pos hnew] at hfind
      rw [← Option.some.inj (hfind.symm.trans hr)]
      rfl
    · rw [if_neg hnew] at hfind
      exact hid r (hfind.symm.trans hr)
  · intro _ s hs
    refine hs.congr ?_
    exact Db.Agree.insert (m := .approvalRequest) (by decide) s₂ _
  -- The journal is marked.
  intro s₃ _
  cases hrow : s₃.find? .journal journalId with
  | none =>
    simp only [hrow]
    exact ⟨(), fun _ h => h, fun _ _ h => h, trivial⟩
  | some j =>
    simp only [hrow]
    refine ⟨(), ?_, ?_, trivial⟩
    · intro id hid r hr
      rw [Db.find?_modify_of_ne (by decide)] at hr
      exact hid r hr
    · intro hleaves s hs
      have hopen : j.status ≠ .posted := by
        intro hposted
        exact hleaves.2 journalId rfl ((Db.posted_of_find? hrow).mpr hposted)
      exact hs.rework hrow hopen rfl nofun

/-- A decision about a posting that reaches no posted journal. -/
theorem postedSince_inTx {call : ResolveCall} {existing : ApprovalRequest} {t u : Db}
    (htype : existing.type = .journalPosting) (hopen : ¬ t.Posted existing.targetId)
    (h : (call.inTx existing).run t = (.ok (), u)) (hs : s.PostedSince t) : s.PostedSince u := by
  obtain ⟨-, v, -, -, heffect, hu⟩ := ResolveCall.run_inTx_effect h
  have hclaimed : t.Agree [.gLAccount, .journal]
      (t.modify .approvalRequest call.requestId call.resolve) :=
    Db.Agree.modify (m := .approvalRequest) (by decide) t _ _
  have hbefore := hs.congr hclaimed
  have hopen' : ∀ j, (t.modify .approvalRequest call.requestId call.resolve).find? .journal
      existing.targetId = some j → j.status ≠ .posted := by
    intro j hj hposted
    rw [hclaimed.find? (by decide)] at hj
    exact hopen ((Db.posted_of_find? hj).mpr hposted)
  rw [hu]
  refine Db.PostedSince.congr ?_ (Db.Agree.insert (m := .auditLog) (by decide) v _)
  unfold ResolveCall.effect at heffect
  cases hdecision : call.decision with
  | approve =>
    simp only [hdecision, applyApproval, htype] at heffect
    obtain ⟨j, found, hj, hfst, haccounts, ⟨-, -, -, hv⟩ | ⟨reason, hv⟩⟩ :=
      run_postApprovedJournal_eq_ok heffect
    · rw [hv]
      exact hbefore.publish hj (hopen' j hj) hfst haccounts rfl rfl
    · rw [hv]
      exact hbefore.rework hj (hopen' j hj) rfl (by simp [Journal.reject])
  | reject =>
    simp only [hdecision, applyRejection, htype] at heffect
    obtain ⟨row, w, hupdate, hend⟩ := Proc.run_bind_eq_ok heffect
    obtain ⟨j, hj, -, hw⟩ := run_update_eq_ok hupdate
    rw [← (Prod.mk.inj hend).2, hw]
    exact hbefore.rework hj (hopen' j hj) rfl (by simp)

theorem follows_resolve {call : ResolveCall} (hs : s.AsksForPosting call.requestId) :
    call.handler.Follows postingProtocol (fun _ _ _ => True) s () := by
  apply postingProtocol_watches.query
  intro s₁ h₁
  refine Proc.Follows.orFail (fun existing hexisting => ?_) fun _ => trivial
  have htype : existing.type = .journalPosting :=
    h₁ _ hs existing (Option.filter_eq_some_iff.mp hexisting).1
  refine Proc.Follows.require (fun _ => ?_) fun _ => trivial
  refine Proc.Follows.require (fun _ => ?_) fun _ => trivial
  -- The transaction.
  intro t ht
  cases hrun : ((call.inTx existing).interrupted call.fault).run t with
  | mk r u =>
    simp only [hrun]
    cases r with
    | error e => exact ⟨(), fun _ h => h, fun _ _ h => h, trivial⟩
    | ok v =>
      have hinTx := Proc.run_interrupted_eq_ok hrun
      obtain ⟨row, hrow, hpending, hrequests⟩ := ResolveCall.run_inTx_eq_ok hinTx
      refine ⟨(), ?_, ?_, trivial⟩
      · intro id hid r hr
        rw [hrequests] at hr
        by_cases hsame : id = call.requestId
        · rw [if_pos hsame] at hr
          rw [← Option.some.inj hr]
          exact hid row (hsame ▸ hrow)
        · rw [if_neg hsame] at hr
          exact hid r hr
      · intro hleaves s hs
        refine postedSince_inTx htype (hleaves.1 _ rfl ?_) hinTx hs
        rw [hrow]
        exact congrArg some hpending

theorem PostingCall.follows {call : PostingCall} (h : call.ConcernsPosting s) :
    call.handler.Follows postingProtocol (fun _ _ _ => True) s () := by
  cases call with
  | requestPosting auth journalId => exact follows_requestPosting auth journalId
  | resolve call => exact follows_resolve h

end Calls

/-! ## Every interleaving -/

section Runs

variable {ι : Type} [DecidableEq ι]

theorem postedSince_run {c : Pool ι Access Db Failure Unit} {sched : List ι}
    (hc : c.Follows postingProtocol (fun _ _ => True) fun _ => ())
    (h : c.Allowed Access.LeavesPosted sched) : c.state.PostedSince (c.run sched).state := by
  have hrun := Pool.run_induction (A := Access.LeavesPosted) (P := fun c' =>
    c'.Follows postingProtocol (fun _ _ => True) (fun _ => ()) ∧ c.state.PostedSince c'.state)
    ?_ ⟨hc, .refl c.state⟩ h
  · exact hrun.2
  · intro c' i hc' hmeets
    rcases hc'.1.step_cases i with hsame | ⟨lab, d', hlab, hguar, -, hnext⟩
    · rw [hsame]
      exact hc'
    · exact ⟨hnext, hguar (hlab _ hmeets) c.state hc'.2⟩

/-- If no statement of a run reaches a journal that has been posted, the balances move by the
lines of the journals that get posted, each of them once, and a journal that is posted at one
moment is posted at every later one. -/
theorem journals_posted_once (calls : ι → PostingCall) {s : Db}
    (hcalls : ∀ i, (calls i).ConcernsPosting s) {sched : List ι}
    (h : (postingCallPool calls s).Allowed Access.LeavesPosted sched) :
    s.PostedSince ((postingCallPool calls s).run sched).state ∧
      ∀ before after, sched = before ++ after → ∀ id,
        ((postingCallPool calls s).run before).state.Posted id →
          ((postingCallPool calls s).run sched).state.Posted id := by
  have hstart : (postingCallPool calls s).Follows postingProtocol (fun _ _ => True) fun _ => () :=
    fun i => PostingCall.follows (hcalls i)
  refine ⟨postedSince_run hstart h, ?_⟩
  intro before after hsched id hid
  rw [hsched] at h ⊢
  obtain ⟨d, hbefore⟩ := hstart.run before
  rw [Pool.run_append]
  exact (postedSince_run hbefore (Pool.allowed_append.mp h).2).posted id hid

end Runs

/-! ## Two users at once -/

/-- Rent of 30.00 that is paid in cash, as a draft. -/
def rentDraft : Db :=
  ((Db.empty.insert .gLAccount
    { institutionId := 1, code := "5000", name := "Rent", category := .expense }).insert .gLAccount
    { institutionId := 1, code := "1000", name := "Cash", category := .asset }).insert
      .financialPeriod { institutionId := 1, startDate := 0, endDate := 10 } |>.insert .journal
    { institutionId := 1, description := "Rent", postingDate := 1, createdById := 1,
      lines := [{ accountId := 1, debit := 3000 }, { accountId := 2, credit := 3000 }] }

/-- Two users ask for its posting, and a third approves what they have asked for. -/
def rentCalls : Fin 4 → PostingCall
  | 0 => .requestPosting ⟨1, 1⟩ 1
  | 1 => .requestPosting ⟨1, 2⟩ 1
  | 2 => .resolve { decision := .approve, auth := ⟨1, 3⟩, now := 2, requestId := 1 }
  | 3 => .resolve { decision := .approve, auth := ⟨1, 3⟩, now := 2, requestId := 2 }

theorem concernsPosting_rentCalls (i : Fin 4) : (rentCalls i).ConcernsPosting rentDraft := by
  have hnone : ∀ id, rentDraft.AsksForPosting id := fun _ _ hr => absurd hr nofun
  match i with
  | 0 => trivial
  | 1 => trivial
  | 2 => exact hnone 1
  | 3 => exact hnone 2

/-- One after the other. -/
theorem journals_posted_once_rentCalls :
    rentDraft.PostedSince ((postingCallPool rentCalls rentDraft).run [0, 0, 0, 1, 2, 2, 3]).state ∧
      ∀ before after, [0, 0, 0, 1, 2, 2, 3] = before ++ after → ∀ id,
        ((postingCallPool rentCalls rentDraft).run before).state.Posted id →
          ((postingCallPool rentCalls rentDraft).run [0, 0, 0, 1, 2, 2, 3]).state.Posted id :=
  journals_posted_once rentCalls concernsPosting_rentCalls (by decide +kernel)

/-- Both users read the draft before either has marked it, and both requests are approved: the
rent of 30.00 is paid twice. -/
theorem journal_posted_twice :
    ¬ ∀ (calls : Fin 4 → PostingCall) (s : Db), (∀ i, (calls i).ConcernsPosting s) →
      ∀ sched, s.PostedSince ((postingCallPool calls s).run sched).state := by
  intro h
  have hbalance := (h rentCalls rentDraft concernsPosting_rentCalls
    [0, 1, 0, 0, 1, 1, 2, 2, 3, 3]).balance 1
  revert hbalance
  decide +kernel

end NexusEfos
