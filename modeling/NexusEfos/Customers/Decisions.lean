/-
What a decision does to the customers.

Four types of request are about a customer.  Three of them rewrite its status, and a change of the
profile the profile as well; a merge marks the customer that is merged.
-/
import NexusEfos.Customers.Merges

namespace NexusEfos

open Proc

/-- The requests that decide about the status of a customer. -/
def customerRequests : List ApprovalRequestType :=
  [.customerStatusChange, .customerProfileUpdate, .amlAdjudication]

/-- What a decision makes of the customer that the request is about. -/
def ResolveCall.decide (call : ResolveCall) (request : ApprovalRequest) (c : Customer) : Customer :=
  match call.decision, request.type with
  | .approve, .customerStatusChange => { c with status := request.payload.status.getD c.status }
  | .approve, .customerProfileUpdate =>
    { c with profile := request.payload.profile.apply c.profile, status := .active }
  | .approve, .amlAdjudication =>
    { c with status := request.payload.previousStatus.getD .registered, watchlistFlag := false }
  | .reject, .customerStatusChange | .reject, .customerProfileUpdate =>
    { c with status := request.payload.previousStatus.getD c.status }
  | _, _ => c

theorem Db.modify_id (s : Db) (m : Model) (key : Id) : s.modify m key (fun row => row) = s := by
  show s.setTable m ((s.table m).modify key id) = s
  rw [OrderedMap.modify_id, Db.setTable_self]

section Decided

variable {call : ResolveCall} {request : ApprovalRequest} {s t : Db} {u : Unit}

/-- The effect on the customer, where the request is one about its status. -/
theorem run_effect_customer (htype : request.type ∈ customerRequests)
    (h : (call.effect request).run s = (.ok u, t)) :
    t = s.modify .customer request.targetId (call.decide request) := by
  have hkept := s.modify_id .customer request.targetId
  unfold ResolveCall.effect at h
  unfold ResolveCall.decide
  simp only [customerRequests, List.mem_cons, List.not_mem_nil, or_false] at htype
  cases hdecision : call.decision with
  | approve =>
    rcases htype with htype | htype | htype <;>
      simp only [hdecision, applyApproval, htype] at h ⊢ <;>
      exact run_update_end_eq_ok h
  | reject =>
    have hstill := fun hrun : (pure () : Handler Unit).run s = (.ok u, t) =>
      (Prod.mk.inj hrun).2.symm.trans hkept.symm
    cases hprevious : request.payload.previousStatus with
    | some previousStatus =>
      rcases htype with htype | htype | htype <;>
        simp only [hdecision, applyRejection, htype, hprevious] at h ⊢
      · exact run_update_end_eq_ok h
      · exact run_update_end_eq_ok h
      · exact hstill h
    | none =>
      rcases htype with htype | htype | htype <;>
        simp only [hdecision, applyRejection, htype, hprevious] at h ⊢ <;>
        exact hstill h

/-- A decision keeps a customer, rewrites the one that the request is about, or marks one that is
merged. -/
theorem find?_customer_of_inTx (h : (call.inTx request).run s = (.ok u, t)) (id : Id) :
    t.find? .customer id = s.find? .customer id ∨
      (request.type ∈ customerRequests ∧ id = request.targetId ∧
        t.find? .customer id = (s.find? .customer id).map (call.decide request)) ∨
      ∃ primary, t.find? .customer id = (s.find? .customer id).map (Customer.mergeInto primary) := by
  obtain ⟨row, v, -, -, heffect, rfl⟩ := ResolveCall.run_inTx_effect h
  rw [Db.find?_insert_of_ne (by decide)]
  by_cases htype : request.type ∈ customerRequests
  · rw [run_effect_customer htype heffect, Db.find?_modify, Db.find?_modify_of_ne (by decide)]
    by_cases hid : id = request.targetId
    · rw [if_pos hid]
      exact .inr (.inl ⟨htype, hid, rfl⟩)
    · rw [if_neg hid]
      exact .inl rfl
  · by_cases hmerge : call.decision = .approve ∧ request.type = .customerMerge
    · obtain ⟨hdecision, htype⟩ := hmerge
      simp only [ResolveCall.effect, hdecision, applyApproval, htype] at heffect
      obtain ⟨r, -, -, rfl⟩ := run_mergeCustomers_eq_ok heffect
      rw [Db.find?_modify_of_ne (by decide), find?_merge_customer,
        Db.find?_modify_of_ne (by decide)]
      split
      · exact .inr (.inr ⟨r.primaryCustomerId, rfl⟩)
      · exact .inl rfl
    · have hquiet : Quiet [.customer] (call.effect request) := by
        by_cases hreject : request.type = .customerMerge
        · have hdecision : call.decision = .reject := by
            cases hdecision : call.decision with
            | approve => exact absurd ⟨hdecision, hreject⟩ hmerge
            | reject => rfl
          simp only [ResolveCall.effect, hdecision, applyRejection, hreject]
          exact Quiet.update_end (by decide) _ _
        · apply call.quiet_effect
          revert htype hreject
          cases request.type <;> decide
      have hagree := hquiet.run (s.modify .approvalRequest call.requestId call.resolve)
      rw [heffect] at hagree
      left
      rw [hagree.find? (List.mem_singleton_self _), Db.find?_modify_of_ne (by decide)]

end Decided

end NexusEfos
