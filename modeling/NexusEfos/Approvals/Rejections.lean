/-
What a rejection leaves of a request that had marked its target.

Nine kinds of request put their target into a pending status when they are filed.  A
rejection gives the target a status of its own choice, which is the one it had before
(`rejection_restores_iff`) unless the request is a change of a customer's profile, which
does not keep the status, or the activation of a product that was no draft.
-/
import NexusEfos.Approvals.Requests

namespace NexusEfos

/-! ## Filing and rejecting -/

/-- A request has been filed, and the row it is about has been marked. -/
structure Filed (request : ApprovalRequest) (m : Model) (id : Id) (mark : Row m → Row m)
    (s t : Db) : Prop where
  request : t.find? .approvalRequest (s.nextId .approvalRequest) = some request
  target : ∃ row, s.find? m id = some row ∧ t.find? m id = some (mark row)

section Filing

variable {s t u : Db} {α : Type} {a : α} {request : ApprovalRequest} {m : Model} {id : Id}
  {mark : Row m → Row m}

/-- A target that is as it was, and a request that is filed. -/
theorem filed_insert (hm : m ≠ .approvalRequest) {row : Row m}
    (hrow : (s.insert .approvalRequest request).find? m id = some row)
    (ht : ((s.insert .approvalRequest request).modify m id mark).Agree [.approvalRequest, m] t) :
    Filed request m id mark s t := by
  constructor
  · rw [ht.find? (List.mem_cons_self ..), Db.find?_modify_of_ne hm.symm, Db.find?_insert,
      if_pos rfl]
  · rw [Db.find?_insert_of_ne hm] at hrow
    refine ⟨row, hrow, ?_⟩
    rw [ht.find? (by simp), Db.find?_modify, if_pos rfl, Db.find?_insert_of_ne hm, hrow]
    rfl

/-- The end that the endpoints have in common. -/
theorem filed_of_run (hm : m ≠ .approvalRequest) {k : Id → Row m → Handler α}
    (hk : ∀ r row, Quiet [.approvalRequest, m] (k r row))
    (h : (create .approvalRequest request >>= fun r => update m id mark >>= k r).run s =
      (.ok a, t)) : Filed request m id mark s t := by
  obtain ⟨r, s₁, hcreate, h₁⟩ := Proc.run_bind_eq_ok h
  obtain ⟨-, hs₁⟩ := run_create_eq_ok hcreate
  obtain ⟨marked, s₂, hupdate, h₂⟩ := Proc.run_bind_eq_ok h₁
  obtain ⟨row, hrow, -, hs₂⟩ := run_update_eq_ok hupdate
  have hrest := (hk r marked).run s₂
  rw [h₂, hs₂, hs₁] at hrest
  rw [hs₁] at hrow
  exact filed_insert hm hrow hrest

/-- A rejection that succeeds has carried out what it does to the target of the request. -/
theorem run_reject_eq_ok {call : ResolveCall} (hreject : call.decision = .reject)
    (hrequest : s.find? .approvalRequest call.requestId = some request)
    (h : call.handler.run s = (.ok (), t)) :
    ∃ v, (applyRejection request).run
        (s.modify .approvalRequest call.requestId call.resolve) = (.ok (), v) ∧
      ∀ m, m ≠ .auditLog → ∀ id, t.find? m id = v.find? m id := by
  rcases call.run_handler_cases s with ⟨e, herror⟩ | ⟨existing, t', hfound, -, -, hinTx, hok⟩
  · rw [herror] at h
    exact absurd (congrArg Prod.fst h) nofun
  · rw [hok] at h
    obtain ⟨row, v, -, -, heffect, ht⟩ := ResolveCall.run_inTx_effect hinTx
    have hsame : existing = request := Option.some.inj (hfound.symm.trans hrequest)
    have hrun : call.effect existing = applyRejection request := by
      rw [hsame, ResolveCall.effect, hreject]
    refine ⟨v, hrun ▸ heffect, ?_⟩
    intro m hm id
    rw [← (Prod.mk.inj h).2, ht]
    exact Db.find?_insert_of_ne hm ..

/-- A rejection that finds the row the request is about, and rewrites it. -/
theorem find?_rejected {call : ResolveCall} (hreject : call.decision = .reject)
    (hm : m ≠ .approvalRequest) (hlog : m ≠ .auditLog) (hfiled : Filed request m id mark s t)
    (hid : call.requestId = s.nextId .approvalRequest) {revert : Row m → Row m}
    (hrevert : applyRejection request = do let _ ← update m id revert)
    (h : call.handler.run t = (.ok (), u)) :
    ∃ row, s.find? m id = some row ∧ u.find? m id = some (revert (mark row)) := by
  have hrequest : t.find? .approvalRequest call.requestId = some request := hid ▸ hfiled.request
  obtain ⟨v, heffect, hu⟩ := run_reject_eq_ok hreject hrequest h
  rw [hrevert] at heffect
  obtain ⟨reverted, w, hupdate, hend⟩ := Proc.run_bind_eq_ok heffect
  obtain ⟨-, -, -, hw⟩ := run_update_eq_ok hupdate
  obtain ⟨row, hrow, hmarked⟩ := hfiled.target
  refine ⟨row, hrow, ?_⟩
  rw [hu m hlog, ← (Prod.mk.inj hend).2, hw, Db.find?_modify, if_pos rfl,
    Db.find?_modify_of_ne hm, hmarked]
  rfl

end Filing

/-! ## The nine endpoints -/

/-- A call of one of the endpoints that leave their target pending. -/
inductive Filing
  | updateCustomer (isEmail : String → Bool) (versionNo : Db → Id → Option ℤ) (auth : Auth)
      (customerId : Id) (expectedVersion : Option ℤ) (patch : CustomerProfilePatch)
  | changeCustomerStatus (auth : Auth) (customerId : Id) (status : AccountStatus)
  | activateProduct (auth : Auth) (productId : Id)
  | requestRuleActivation (auth : Auth) (ruleId : Id)
  | requestPosting (auth : Auth) (journalId : Id)
  | requestRecurringActivation (auth : Auth) (rjId : Id)
  | requestSalaryApproval (auth : Auth) (structureId : Id)
  | requestPayrollApproval (auth : Auth) (runId : Id)
  | requestCommissionPayment (auth : Auth) (recordId : Id)

/-- The status of a target, of whatever kind it is. -/
inductive TargetStatus
  | customer (status : AccountStatus)
  | product (status : ProductStatus)
  | businessRule (status : BusinessRuleStatus)
  | journal (status : JournalStatus)
  | recurringJournal (status : RecurringJournalStatus)
  | salaryStructure (status : SalaryStructureStatus)
  | payrollRun (status : PayrollRunStatus)
  | commissionRecord (status : CommissionStatus)
  deriving DecidableEq

namespace Filing

def handler : Filing → Handler Unit
  | updateCustomer isEmail versionNo auth customerId expectedVersion patch =>
    discard (NexusEfos.updateCustomer isEmail versionNo auth customerId expectedVersion patch)
  | changeCustomerStatus auth customerId status =>
    discard (NexusEfos.changeCustomerStatus auth customerId status)
  | activateProduct auth productId => discard (NexusEfos.activateProduct auth productId)
  | requestRuleActivation auth ruleId => discard (NexusEfos.requestRuleActivation auth ruleId)
  | requestPosting auth journalId => NexusEfos.requestPosting auth journalId
  | requestRecurringActivation auth rjId => NexusEfos.requestRecurringActivation auth rjId
  | requestSalaryApproval auth structureId => NexusEfos.requestSalaryApproval auth structureId
  | requestPayrollApproval auth runId => NexusEfos.requestPayrollApproval auth runId
  | requestCommissionPayment auth recordId => NexusEfos.requestCommissionPayment auth recordId

/-- The status of the target. -/
def statusIn (s : Db) : Filing → Option TargetStatus
  | updateCustomer _ _ _ customerId _ _ | changeCustomerStatus _ customerId _ =>
    (s.find? .customer customerId).map fun c => .customer c.status
  | activateProduct _ productId => (s.find? .product productId).map fun p => .product p.status
  | requestRuleActivation _ ruleId =>
    (s.find? .businessRule ruleId).map fun r => .businessRule r.status
  | requestPosting _ journalId => (s.find? .journal journalId).map fun j => .journal j.status
  | requestRecurringActivation _ rjId =>
    (s.find? .recurringJournal rjId).map fun r => .recurringJournal r.status
  | requestSalaryApproval _ structureId =>
    (s.find? .employeeSalaryStructure structureId).map fun e => .salaryStructure e.status
  | requestPayrollApproval _ runId =>
    (s.find? .payrollRun runId).map fun r => .payrollRun r.status
  | requestCommissionPayment _ recordId =>
    (s.find? .commissionRecord recordId).map fun r => .commissionRecord r.status

/-- The rejection knows the status the target had: the request is no change of a profile, and
a product was a draft. -/
def Restorable (s : Db) : Filing → Prop
  | updateCustomer .. => False
  | activateProduct _ productId =>
    (s.find? .product productId).map Product.status = some .draft
  | _ => True

end Filing

section Restored

variable {s t u : Db} {filing : Filing} {call : ResolveCall}

/-- A change of a profile that needs an approval does not keep the status, and any other is
made at once. -/
theorem run_updateCustomer_eq_ok {isEmail : String → Bool} {versionNo : Db → Id → Option ℤ}
    {auth : Auth} {customerId : Id} {expectedVersion : Option ℤ} {patch : CustomerProfilePatch}
    {answer : Option Id}
    (h : (updateCustomer isEmail versionNo auth customerId expectedVersion patch).run s =
      (.ok answer, t)) :
    s.Agree [.approvalRequest] t ∨
      ∃ request row, request.type = .customerProfileUpdate ∧
        request.payload.previousStatus = none ∧ s.find? .customer customerId = some row ∧
        row.status ≠ .pendingApproval ∧
        Filed request .customer customerId (fun c => { c with status := .pendingApproval }) s t := by
  obtain ⟨-, h₁⟩ := run_require_bind_eq_ok h
  obtain ⟨found, s₁, hread, h₂⟩ := Proc.run_bind_eq_ok h₁
  obtain ⟨hfound, hs₁⟩ := Prod.mk.inj hread
  obtain ⟨existing, s₂, hsome, h₃⟩ := Proc.run_bind_eq_ok h₂
  obtain ⟨hexisting, hs₂⟩ := run_orFail_eq_ok hsome
  rw [← Except.ok.inj hfound] at hexisting
  have hrow := (Option.filter_eq_some_iff.mp hexisting).1
  obtain ⟨hopen, h₄⟩ := run_require_bind_eq_ok h₃
  obtain ⟨_, s₃, hversion, h₅⟩ := Proc.run_bind_eq_ok h₄
  have hs₃ : s₃ = s := by
    have hreads : (checkVersion versionNo customerId expectedVersion).Every (Eq (α := Db)) := by
      cases expectedVersion with
      | none => trivial
      | some expected =>
        constructor
        · intro _
          rfl
        · intro current
          exact Proc.Every.require _ _
    have hsame : s₂ = (Except.ok (), s₃).2 := hversion ▸ hreads.run Eq.refl Eq.trans s₂
    have hs : s₂ = s₃ := hsame
    rw [← hs, hs₂, ← hs₁]
  rw [hs₃] at h₅
  by_cases hneeds : patch.touchesCriticalField = true ∧
      existing.status ∈ [AccountStatus.active, .verified]
  · rw [if_pos hneeds] at h₅
    refine .inr ⟨_, existing, rfl, rfl, hrow, ?_, filed_of_run (by decide) ?_ h₅⟩
    · intro hpending
      exact hopen (hpending ▸ by decide)
    · intro r row
      exact (Quiet.create (by decide) _).bind fun _ => Quiet.pure _
  · rw [if_neg hneeds] at h₅
    have hquiet : Quiet [.approvalRequest] (do
        let _ ← updateAs
          { risk := patch.riskRating.map fun riskRating => ⟨some customerId, none, riskRating⟩ }
          .customer customerId fun c => { c with profile := patch.apply c.profile }
        let _ ← create .auditLog (customerLog auth "customer.update" customerId)
        return (none : Option Id)) :=
      (Quiet.updateAs (by decide) _ _ _).bind fun _ =>
        (Quiet.create (by decide) _).bind fun _ => Quiet.pure _
    have hagree := hquiet.run s
    rw [h₅] at hagree
    exact .inl hagree

/-- A change of the status of an active customer keeps the status, and any other is made at
once. -/
theorem run_changeCustomerStatus_eq_ok {auth : Auth} {customerId : Id} {status : AccountStatus}
    {answer : Option Id}
    (h : (changeCustomerStatus auth customerId status).run s = (.ok answer, t)) :
    s.Agree [.approvalRequest] t ∨
      ∃ request row, request.type = .customerStatusChange ∧ request.targetId = customerId ∧
        request.payload.previousStatus = some row.status ∧
        s.find? .customer customerId = some row ∧
        Filed request .customer customerId (fun c => { c with status := .pendingApproval }) s t := by
  obtain ⟨found, s₁, hread, h₁⟩ := Proc.run_bind_eq_ok h
  obtain ⟨hfound, hs₁⟩ := Prod.mk.inj hread
  obtain ⟨existing, s₂, hsome, h₂⟩ := Proc.run_bind_eq_ok h₁
  obtain ⟨hexisting, hs₂⟩ := run_orFail_eq_ok hsome
  rw [← Except.ok.inj hfound] at hexisting
  have hrow := (Option.filter_eq_some_iff.mp hexisting).1
  obtain ⟨-, h₃⟩ := run_require_bind_eq_ok h₂
  obtain ⟨-, h₄⟩ := run_require_bind_eq_ok h₃
  rw [hs₂, ← hs₁] at h₄
  by_cases hactive : existing.status = .active ∧ status ≠ .active
  · rw [if_pos hactive] at h₄
    refine .inr ⟨_, existing, rfl, rfl, rfl, hrow, filed_of_run (by decide) ?_ h₄⟩
    intro r row
    exact (Quiet.create (by decide) _).bind fun _ => Quiet.pure _
  · rw [if_neg hactive] at h₄
    have hquiet : Quiet [.approvalRequest] (do
        let _ ← update .customer customerId fun c => { c with status }
        let _ ← create .auditLog (customerLog auth "customer.status_change" customerId)
        return (none : Option Id)) :=
      (Quiet.update (by decide) _ _).bind fun _ =>
        (Quiet.create (by decide) _).bind fun _ => Quiet.pure _
    have hagree := hquiet.run s
    rw [h₄] at hagree
    exact .inl hagree

/-- Where nothing has been filed there is nothing to reject. -/
theorem not_rejected (hagree : s.Agree [.approvalRequest] t)
    (hid : call.requestId = s.nextId .approvalRequest) : call.handler.run t ≠ (.ok (), u) := by
  intro h
  rcases call.run_handler_cases t with ⟨e, herror⟩ | ⟨existing, t', hfound, -⟩
  · rw [herror] at h
    exact absurd (congrArg Prod.fst h) nofun
  · rw [hid, hagree.find? (List.mem_cons_self ..)] at hfound
    have hnone : s.find? .approvalRequest (s.nextId .approvalRequest) = none :=
      OrderedMap.get?_nextKey _
    rw [hnone] at hfound
    exact absurd hfound nofun

/-- The other endpoints find the target, check its status, file the request and mark the
target. -/
theorem find?_filed_rejected {m : Model} (hm : m ≠ .approvalRequest) (hlog : m ≠ .auditLog)
    {lab : Access} {id : Id} {p : Row m → Bool} {status : Row m → Prop}
    [∀ row, Decidable (status row)] {e : Failure} {e' : Row m → Failure}
    {request : Row m → ApprovalRequest} {mark revert : Row m → Row m} {α : Type} {a : α}
    {k : Row m → Id → Row m → Handler α}
    (hk : ∀ row r marked, Quiet [.approvalRequest, m] (k row r marked))
    (hrevert : ∀ row, applyRejection (request row) = do let _ ← update m id revert)
    (hfile : (findById m id p >>= fun found => Proc.orFail found e >>= fun row =>
      Proc.require (status row) (e' row) >>= fun _ => create .approvalRequest (request row) >>=
        fun r => updateAs lab m id mark >>= k row r).run s = (.ok a, t))
    (hid : call.requestId = s.nextId .approvalRequest) (hreject : call.decision = .reject)
    (h : call.handler.run t = (.ok (), u)) :
    ∃ row, s.find? m id = some row ∧ status row ∧ u.find? m id = some (revert (mark row)) := by
  obtain ⟨found, s₁, hread, h₁⟩ := Proc.run_bind_eq_ok hfile
  obtain ⟨hfound, hs₁⟩ := Prod.mk.inj hread
  obtain ⟨row, s₂, hsome, h₂⟩ := Proc.run_bind_eq_ok h₁
  obtain ⟨hrow, hs₂⟩ := run_orFail_eq_ok hsome
  rw [← Except.ok.inj hfound] at hrow
  have hrow := (Option.filter_eq_some_iff.mp hrow).1
  obtain ⟨hstatus, h₃⟩ := run_require_bind_eq_ok h₂
  rw [hs₂, ← hs₁] at h₃
  have hfiled : Filed (request row) m id mark s t := filed_of_run hm (hk row) h₃
  obtain ⟨row', hrow', hu⟩ := find?_rejected hreject hm hlog hfiled hid (hrevert row) h
  rw [hrow] at hrow'
  rw [← Option.some.inj hrow'] at hu
  exact ⟨row, hrow, hstatus, hu⟩

theorem run_discard_eq_ok {α : Type} {p : Handler α} {x : PUnit}
    (h : (discard p).run s = (.ok x, t)) : ∃ a, p.run s = (.ok a, t) := by
  obtain ⟨a, w, hrun, hend⟩ := Proc.run_bind_eq_ok h
  have hw : w = t := (Prod.mk.inj hend).2
  exact ⟨a, hw ▸ hrun⟩

/-- A request is filed and then rejected, with nothing in between: the target has the status it
had before exactly if the rejection knows it. -/
theorem rejection_restores_iff (filing : Filing) (call : ResolveCall)
    (hfile : filing.handler.run s = (.ok (), t)) (hid : call.requestId = s.nextId .approvalRequest)
    (hreject : call.decision = .reject) (h : call.handler.run t = (.ok (), u)) :
    filing.statusIn u = filing.statusIn s ↔ filing.Restorable s := by
  cases filing with
  | updateCustomer isEmail versionNo auth customerId expectedVersion patch =>
    obtain ⟨answer, hrun⟩ := run_discard_eq_ok hfile
    rcases run_updateCustomer_eq_ok hrun with
      hagree | ⟨request, row, htype, hnone, hrow, hopen, hfiled⟩
    · exact absurd h (not_rejected hagree hid)
    · have hrequest : t.find? .approvalRequest call.requestId = some request :=
        hid ▸ hfiled.request
      obtain ⟨v, heffect, hu⟩ := run_reject_eq_ok hreject hrequest h
      simp only [applyRejection, htype, hnone] at heffect
      obtain ⟨row', hrow', hmarked⟩ := hfiled.target
      have hpending : u.find? .customer customerId = some { row' with status := .pendingApproval } := by
        rw [hu _ (by decide), ← (Prod.mk.inj heffect).2, Db.find?_modify_of_ne (by decide), hmarked]
      constructor
      · intro hsame
        simp only [Filing.statusIn, hpending, hrow, Option.map_some, Option.some.injEq,
          TargetStatus.customer.injEq] at hsame
        exact hopen hsame.symm
      · intro hfalse
        exact hfalse.elim
  | changeCustomerStatus auth customerId status =>
    obtain ⟨answer, hrun⟩ := run_discard_eq_ok hfile
    rcases run_changeCustomerStatus_eq_ok hrun with
      hagree | ⟨request, row, htype, htarget, hprevious, hrow, hfiled⟩
    · exact absurd h (not_rejected hagree hid)
    · have hrevert : applyRejection request = (do
          let _ ← update .customer customerId fun c => { c with status := row.status }) := by
        simp only [applyRejection, htype, htarget, hprevious]
      obtain ⟨row', hrow', hu⟩ :=
        find?_rejected hreject (by decide) (by decide) hfiled hid hrevert h
      simp [Filing.statusIn, Filing.Restorable, hu, hrow]
  | activateProduct auth productId =>
    obtain ⟨answer, hrun⟩ := run_discard_eq_ok hfile
    obtain ⟨row, hrow, -, hu⟩ := find?_filed_rejected (by decide) (by decide)
      (fun _ _ _ => (Quiet.create (by decide) _).bind fun _ => Quiet.pure _) (fun _ => rfl) hrun
      hid hreject h
    simp [Filing.statusIn, Filing.Restorable, hu, hrow, eq_comm]
  | requestRuleActivation auth ruleId =>
    obtain ⟨answer, hrun⟩ := run_discard_eq_ok hfile
    obtain ⟨row, hrow, hdraft, hu⟩ := find?_filed_rejected (by decide) (by decide)
      (fun _ _ _ => (Quiet.create (by decide) _).bind fun _ => Quiet.pure _) (fun _ => rfl) hrun
      hid hreject h
    simp [Filing.statusIn, Filing.Restorable, hu, hrow, hdraft]
  | requestPosting auth journalId =>
    obtain ⟨row, hrow, hdraft, hu⟩ := find?_filed_rejected (by decide) (by decide)
      (fun _ _ _ => Quiet.pure _) (fun _ => rfl) hfile hid hreject h
    simp [Filing.statusIn, Filing.Restorable, hu, hrow, hdraft]
  | requestRecurringActivation auth rjId =>
    obtain ⟨row, hrow, hdraft, hu⟩ := find?_filed_rejected (by decide) (by decide)
      (fun _ _ _ => Quiet.pure _) (fun _ => rfl) hfile hid hreject h
    simp [Filing.statusIn, Filing.Restorable, hu, hrow, hdraft]
  | requestSalaryApproval auth structureId =>
    obtain ⟨row, hrow, hdraft, hu⟩ := find?_filed_rejected (by decide) (by decide)
      (fun _ _ _ => Quiet.pure _) (fun _ => rfl) hfile hid hreject h
    simp [Filing.statusIn, Filing.Restorable, hu, hrow, hdraft]
  | requestPayrollApproval auth runId =>
    obtain ⟨row, hrow, hprocessed, hu⟩ := find?_filed_rejected (by decide) (by decide)
      (fun _ _ _ => Quiet.pure _) (fun _ => rfl) hfile hid hreject h
    simp [Filing.statusIn, Filing.Restorable, hu, hrow, hprocessed]
  | requestCommissionPayment auth recordId =>
    obtain ⟨row, hrow, hpending, hu⟩ := find?_filed_rejected (by decide) (by decide)
      (fun _ _ _ => Quiet.pure _) (fun _ => rfl) hfile hid hreject h
    simp [Filing.statusIn, Filing.Restorable, hu, hrow, hpending]

end Restored

/-- A product that has been withdrawn. -/
def withdrawnProduct : Db := Db.empty.insert .product { institutionId := 1, status := .withdrawn }

/-- The other user rejects the activation. -/
def rejectActivation : ResolveCall :=
  { decision := .reject, auth := ⟨1, 2⟩, now := 1, requestId := 1 }

def requestActivation : Filing := .activateProduct ⟨1, 1⟩ 1

theorem rejection_restores_iff_withdrawnProduct :
    requestActivation.statusIn
        (rejectActivation.handler.run (requestActivation.handler.run withdrawnProduct).2).2 =
      requestActivation.statusIn withdrawnProduct ↔
        requestActivation.Restorable withdrawnProduct :=
  rejection_restores_iff requestActivation rejectActivation (Prod.ext (by decide +kernel) rfl)
    (by decide +kernel) rfl (Prod.ext (by decide +kernel) rfl)

/-- The product becomes a draft. -/
theorem withdrawnProduct_drafted :
    ¬ ∀ (filing : Filing) (call : ResolveCall) (s t u : Db),
      filing.handler.run s = (.ok (), t) → call.requestId = s.nextId .approvalRequest →
      call.decision = .reject → call.handler.run t = (.ok (), u) →
        filing.statusIn u = filing.statusIn s := by
  intro h
  have hsame := h requestActivation rejectActivation withdrawnProduct _ _
    (Prod.ext (by decide +kernel) rfl) (by decide +kernel) rfl (Prod.ext (by decide +kernel) rfl)
  revert hsame
  decide +kernel

end NexusEfos
