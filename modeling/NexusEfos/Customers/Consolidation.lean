/-
What merges of customers leave behind.

No row should belong to a customer who has been merged, and the pointers of the merged customers
should not go round in a circle.  A merge can break the one through the rows that it forgets, and
both through a primary customer who has been merged between the request and its approval.
-/
import NexusEfos.Customers.Merges

namespace NexusEfos

open Proc

/-! ## Pointers -/

/-- Pointers that do not go round in a circle do not after one of them is set either, unless it is
set to where a path leads back from. -/
theorem acyclic_redirect {α : Type} {R R' : α → α → Prop} {p q : α}
    (hR : ∀ a, ¬ Relation.TransGen R a a)
    (hR' : ∀ a b, R' a b → R a b ∨ (a = q ∧ b = p)) (hne : p ≠ q)
    (hpath : ¬ Relation.TransGen R p q) (a : α) : ¬ Relation.TransGen R' a a := by
  have hcases : ∀ a b, Relation.TransGen R' a b →
      Relation.TransGen R a b ∨ (Relation.ReflTransGen R a q ∧ Relation.ReflTransGen R p b) := by
    intro a b h
    induction h with
    | single hab =>
      rcases hR' _ _ hab with hab | ⟨rfl, rfl⟩
      · exact .inl (.single hab)
      · exact .inr ⟨.refl, .refl⟩
    | tail _ hbc ih =>
      rcases hR' _ _ hbc with hbc | ⟨rfl, rfl⟩
      · rcases ih with ih | ⟨haq, hpb⟩
        · exact .inl (ih.tail hbc)
        · exact .inr ⟨haq, hpb.tail hbc⟩
      · rcases ih with ih | ⟨haq, -⟩
        · exact .inr ⟨ih.to_reflTransGen, .refl⟩
        · exact .inr ⟨haq, .refl⟩
  intro h
  rcases hcases a a h with h | ⟨haq, hpa⟩
  · exact hR a h
  · rcases Relation.reflTransGen_iff_eq_or_transGen.mp (hpa.trans haq) with heq | h
    · exact hne heq.symm
    · exact hpath h

/-! ## Nothing is left behind -/

/-- The customer has been merged. -/
def Db.Merged (s : Db) (customerId : Id) : Prop :=
  ∃ c ∈ s.find? .customer customerId, c.mergeStatus = .merged

instance (s : Db) (customerId : Id) : Decidable (s.Merged customerId) :=
  inferInstanceAs (Decidable (∃ c ∈ s.find? .customer customerId, _))

/-- One customer points to another. -/
def Db.PointsTo (s : Db) (a b : Id) : Prop :=
  ∃ c ∈ s.find? .customer a, c.mergedIntoCustomerId = some b

/-- No row belongs to a customer who has been merged, and the customers do not point to each other
in a circle. -/
structure Db.NothingLeftBehind (s : Db) : Prop where
  rows : ∀ m id customerId, s.ownerOf m id = some customerId → ¬ s.Merged customerId
  acyclic : ∀ customerId, ¬ Relation.TransGen s.PointsTo customerId customerId

/-! ## Sequences of calls -/

/-- The record of the merge that an approval executes. -/
def ResolveCall.mergeRecord? (call : ResolveCall) (s : Db) : Option CustomerMergeRecord :=
  ((s.find? .approvalRequest call.requestId).filter fun r =>
    call.decision = .approve ∧ r.institutionId = call.auth.institutionId ∧ r.status = .pending ∧
      r.requestedById ≠ call.auth.userId).bind fun r => s.find? .customerMergeRecord r.targetId

/-- A call of a sequence.  The last constructor stands for every other endpoint, the approvals of
other requests among them. -/
inductive MergeCall
  | request (auth : Auth) (primaryCustomerId mergedCustomerId : Id)
  | resolve (call : ResolveCall)
  | rollback (auth : Auth) (now : DateTime) (recordId : Id) (reason : Option String)
  | other (p : Handler Unit)

/-- The customers stay what they are to each other, new ones have not been merged, and no row comes
to belong to a customer who has been merged. -/
structure Db.KeepsMerges (s t : Db) : Prop where
  customers : ∀ id c', t.find? .customer id = some c' →
    (∃ c, s.find? .customer id = some c ∧ c'.mergeStatus = c.mergeStatus ∧
      c'.mergedIntoCustomerId = c.mergedIntoCustomerId) ∨
    c'.mergeStatus = .active ∧ c'.mergedIntoCustomerId = none
  records : ∀ id r, t.find? .customerMergeRecord id = some r →
    s.find? .customerMergeRecord id = some r
  rows : ∀ m id customerId, t.ownerOf m id = some customerId →
    s.ownerOf m id = some customerId ∨ ¬ t.Merged customerId

namespace MergeCall

def handler : MergeCall → Handler Unit
  | request auth primaryCustomerId mergedCustomerId => do
    let _ ← requestMerge auth primaryCustomerId mergedCustomerId
  | resolve call => call.handler
  | rollback auth now recordId reason => rollbackMerge auth now recordId reason
  | other p => p

/-- The requests that are resolved are about merges, and no other call gives a row to a customer who
has been merged. -/
def Admitted : MergeCall → Db → Prop
  | resolve call, s => ∀ r ∈ s.find? .approvalRequest call.requestId, r.type = .customerMerge
  | other p, s => s.KeepsMerges (p.run s).2
  | _, _ => True

/-- A merge leaves no row behind: the merged customer has none that is forgotten, the primary one
has not been merged if any row moves, and does not lead back to the merged one. -/
def MergesAll (call : MergeCall) (s : Db) : Prop :=
  match call with
  | resolve call => ∀ r ∈ call.mergeRecord? s,
    (∀ m ∈ forgottenModels, s.rowsOfCustomer r.mergedCustomerId m = []) ∧
      (s.mergedRows r.mergedCustomerId = [] ∨ ¬ s.Merged r.primaryCustomerId) ∧
      ¬ Relation.TransGen s.PointsTo r.primaryCustomerId r.mergedCustomerId
  | _ => True

end MergeCall

/-- The two customers of a merge are different. -/
def Db.MergesDiffer (s : Db) : Prop :=
  ∀ id r, s.find? .customerMergeRecord id = some r → r.primaryCustomerId ≠ r.mergedCustomerId

/-- What holds after every sequence of such calls. -/
structure Db.Consolidated (s : Db) : Prop extends s.NothingLeftBehind where
  differ : s.MergesDiffer

section Steps

variable {s t : Db}

/-- The tables that say whose the rows are, and which customers have been merged. -/
def mergeModels : List Model := .customer :: (customerReferencingModels ++ forgottenModels)

/-- A row that belongs to a customer is one of those models. -/
theorem mem_of_ownerOf_eq_some {m : Model} {id a : Id} (h : s.ownerOf m id = some a) :
    m ∈ customerReferencingModels ++ forgottenModels := by
  obtain ⟨row, -, hcustomer⟩ := Option.bind_eq_some_iff.mp h
  cases m
  case nextOfKin | customerNote | beneficiary | beneficialOwner | loan | savingsAccount |
      accountHolder | document | collectionRouteCustomer | collectionTransaction |
      customerConsent | cheque | customerInteraction | customerComplaint => decide
  all_goals exact absurd hcustomer nofun

theorem ownerOf_of_agree (h : s.Agree mergeModels t) (m : Model) (id : Id) :
    t.ownerOf m id = s.ownerOf m id := by
  by_cases hm : m ∈ customerReferencingModels ++ forgottenModels
  · unfold Db.ownerOf Db.find?
    rw [h m (List.mem_cons_of_mem _ hm)]
  · have hnobody : ∀ u : Db, u.ownerOf m id = none := by
      intro u
      rw [Option.eq_none_iff_forall_ne_some]
      exact fun a howner => hm (mem_of_ownerOf_eq_some howner)
    rw [hnobody, hnobody]

namespace Db.Consolidated

/-- The pointers that are left were there before, and the rows that changed hands did not come to a
customer who has been merged. -/
theorem of_customers (hs : s.Consolidated) (hmerged : ∀ a, t.Merged a → s.Merged a)
    (hpoints : ∀ a b, t.PointsTo a b → s.PointsTo a b)
    (hrows : ∀ m id a, t.ownerOf m id = some a → s.ownerOf m id = some a ∨ ¬ t.Merged a)
    (hdiffer : t.MergesDiffer) : t.Consolidated := by
  constructor
  · constructor
    · intro m id a howner hafter
      rcases hrows m id a howner with hbefore | hactive
      · exact hs.rows m id a hbefore (hmerged a hafter)
      · exact hactive hafter
    · exact fun a hcycle => hs.acyclic a (Relation.TransGen.mono hpoints a a hcycle)
  · exact hdiffer

theorem of_keeps (hs : s.Consolidated) (h : s.KeepsMerges t) : t.Consolidated := by
  apply hs.of_customers
  · rintro a ⟨c', hc', hstatus⟩
    rcases h.customers a c' hc' with ⟨c, hc, hsame, -⟩ | ⟨hactive, -⟩
    · exact ⟨c, hc, hsame.symm.trans hstatus⟩
    · rw [hactive] at hstatus
      exact absurd hstatus nofun
  · rintro a b ⟨c', hc', hinto⟩
    rcases h.customers a c' hc' with ⟨c, hc, -, hsame⟩ | ⟨-, hnone⟩
    · exact ⟨c, hc, hsame.symm.trans hinto⟩
    · rw [hnone] at hinto
      exact absurd hinto nofun
  · exact h.rows
  · exact fun id r hr => hs.differ id r (h.records id r hr)

/-- Nothing but the records has changed. -/
theorem of_records (hs : s.Consolidated) (h : s.Agree mergeModels t) (hdiffer : t.MergesDiffer) :
    t.Consolidated := by
  have hcustomers : ∀ id, t.find? .customer id = s.find? .customer id := fun id =>
    h.find? (by decide) id
  apply hs.of_customers
  · rintro a ⟨c, hc, hstatus⟩
    rw [hcustomers] at hc
    exact ⟨c, hc, hstatus⟩
  · rintro a b ⟨c, hc, hinto⟩
    rw [hcustomers] at hc
    exact ⟨c, hc, hinto⟩
  · intro m id a howner
    rw [ownerOf_of_agree h] at howner
    exact .inl howner
  · exact hdiffer

theorem of_agree (hs : s.Consolidated) (h : s.Agree (.customerMergeRecord :: mergeModels) t) :
    t.Consolidated := by
  apply hs.of_records (h.mono fun m hm => List.mem_cons_of_mem _ hm)
  intro id r hr
  rw [h.find? (by decide)] at hr
  exact hs.differ id r hr

theorem insert (hs : s.Consolidated) {m : Model} (hm : m ∉ Model.customerMergeRecord :: mergeModels)
    (row : Row m) : (s.insert m row).Consolidated := hs.of_agree (.insert hm s row)

/-- A record about two different customers. -/
theorem insert_record (hs : s.Consolidated) {r : CustomerMergeRecord}
    (hr : r.primaryCustomerId ≠ r.mergedCustomerId) :
    (s.insert .customerMergeRecord r).Consolidated := by
  apply hs.of_records (.insert (m := .customerMergeRecord) (by decide) s r)
  intro id r' hr'
  rw [Db.find?_insert] at hr'
  split at hr'
  · rw [← Option.some.inj hr']
    exact hr
  · exact hs.differ id r' hr'

/-- A record that is still about the same customers. -/
theorem modify_record (hs : s.Consolidated) (recordId : Id)
    {f : CustomerMergeRecord → CustomerMergeRecord}
    (hf : ∀ r, (f r).primaryCustomerId = r.primaryCustomerId ∧
      (f r).mergedCustomerId = r.mergedCustomerId) :
    (s.modify .customerMergeRecord recordId f).Consolidated := by
  apply hs.of_records (.modify (m := .customerMergeRecord) (by decide) s recordId f)
  intro id r' hr'
  rw [Db.find?_modify] at hr'
  split at hr'
  · obtain ⟨r, hr, rfl⟩ := Option.map_eq_some_iff.mp hr'
    rw [(hf r).1, (hf r).2]
    exact hs.differ id r hr
  · exact hs.differ id r' hr'

/-- The rows of a customer, and its pointer, are given to another one. -/
theorem merge (hs : s.Consolidated) {primary merged : Id} (hne : primary ≠ merged)
    (hforgotten : ∀ m ∈ forgottenModels, s.rowsOfCustomer merged m = [])
    (hprimary : s.mergedRows merged = [] ∨ ¬ s.Merged primary)
    (hpath : ¬ Relation.TransGen s.PointsTo primary merged) :
    (s.merge primary merged).Consolidated := by
  have hmerged : ∀ a, (s.merge primary merged).Merged a → a = merged ∨ s.Merged a := by
    rintro a ⟨c, hc, hstatus⟩
    rw [find?_merge_customer] at hc
    split at hc
    · next heq => exact .inl heq
    · exact .inr ⟨c, hc, hstatus⟩
  constructor
  · constructor
    · intro m id a howner hafter
      rw [ownerOf_merge] at howner
      split at howner
      · next hmoved =>
        -- the primary customer gets rows, so it has not been merged
        obtain rfl := Option.some.inj howner
        have hrow : (m, id) ∈ s.mergedRows merged :=
          List.mem_flatMap.mpr ⟨m, hmoved.1, mem_rowsOfCustomer.mpr ⟨rfl, hmoved.2⟩⟩
        rcases hprimary with hnone | hactive
        · rw [hnone] at hrow
          exact absurd hrow List.not_mem_nil
        · exact hactive ((hmerged _ hafter).resolve_left hne)
      · next hkept =>
        rcases hmerged a hafter with rfl | hbefore
        · -- a row of the merged customer that is not moved would be a forgotten one
          rcases List.mem_append.mp (mem_of_ownerOf_eq_some howner) with hm | hm
          · exact hkept ⟨hm, howner⟩
          · have hrow : (m, id) ∈ s.rowsOfCustomer a m := mem_rowsOfCustomer.mpr ⟨rfl, howner⟩
            rw [hforgotten m hm] at hrow
            exact absurd hrow List.not_mem_nil
        · exact hs.rows m id a howner hbefore
    · intro a
      apply acyclic_redirect hs.acyclic ?_ hne hpath
      rintro a b ⟨c, hc, hinto⟩
      rw [find?_merge_customer] at hc
      split at hc
      · next heq =>
        obtain ⟨c₀, -, rfl⟩ := Option.map_eq_some_iff.mp hc
        exact .inr ⟨heq, (Option.some.inj hinto).symm⟩
      · exact .inl ⟨c, hc, hinto⟩
  · intro id r hr
    have hrecords : (s.merge primary merged).table .customerMergeRecord =
        s.table .customerMergeRecord := table_merge_of_not_mem (by decide)
    rw [Db.find?, hrecords] at hr
    exact hs.differ id r hr

end Db.Consolidated

/-- The rows of a list go back to a customer who is not merged any more. -/
theorem Db.Consolidated.rollback (hs : s.Consolidated) (mergedCustomerId : Id)
    (records : List (Model × Id)) : (s.rollback mergedCustomerId records).Consolidated := by
  have hcustomers : ∀ id, (s.rollback mergedCustomerId records).find? .customer id =
      if id = mergedCustomerId then (s.find? .customer id).map Customer.restore
      else s.find? .customer id := by
    intro id
    rw [Db.rollback, Db.find?_modify, Db.find?, table_giveBack fun _ _ => rfl]
    rfl
  apply hs.of_customers
  · rintro a ⟨c, hc, hstatus⟩
    rw [hcustomers] at hc
    split at hc
    · obtain ⟨c₀, -, rfl⟩ := Option.map_eq_some_iff.mp hc
      exact absurd hstatus (by simp [Customer.restore])
    · exact ⟨c, hc, hstatus⟩
  · rintro a b ⟨c, hc, hinto⟩
    rw [hcustomers] at hc
    split at hc
    · obtain ⟨c₀, -, rfl⟩ := Option.map_eq_some_iff.mp hc
      exact absurd hinto (by simp [Customer.restore])
    · exact ⟨c, hc, hinto⟩
  · intro m id a h
    rw [ownerOf_rollback] at h
    split at h
    · right
      obtain ⟨_, -, rfl⟩ := Option.map_eq_some_iff.mp h
      rintro ⟨c, hc, hstatus⟩
      rw [hcustomers, if_pos rfl] at hc
      obtain ⟨c₀, -, rfl⟩ := Option.map_eq_some_iff.mp hc
      exact absurd hstatus (by simp [Customer.restore])
    · exact .inl h
  · intro id r hr
    rw [Db.rollback, Db.find?_modify_of_ne (by decide), Db.find?, table_giveBack fun _ _ => rfl] at hr
    exact hs.differ id r hr

/-! ## The calls -/

/-- What a request of a merge leaves. -/
theorem consolidated_requestMerge (auth : Auth) (primaryCustomerId mergedCustomerId : Id)
    (hs : s.Consolidated) :
    (requestMerge auth primaryCustomerId mergedCustomerId).Ends (fun _ t => t.Consolidated) s := by
  apply Ends.require
  · intro hne
    apply ends_query
    apply ends_query
    apply Ends.require
    · intro _
      apply ends_create
      apply ends_create
      apply ends_create
      have hrecord : (s.insert .customerMergeRecord
          { institutionId := auth.institutionId
            primaryCustomerId := primaryCustomerId
            mergedCustomerId := mergedCustomerId }).Consolidated := hs.insert_record hne
      exact (hrecord.insert (m := .approvalRequest) (by decide) _).insert (m := .auditLog) (by decide) _
    · exact fun _ => hs
  · exact fun _ => hs

/-- What a rollback leaves. -/
theorem consolidated_rollbackMerge (auth : Auth) (now : DateTime) (recordId : Id)
    (reason : Option String) (hs : s.Consolidated) :
    (rollbackMerge auth now recordId reason).Ends (fun _ t => t.Consolidated) s := by
  apply ends_rollbackMerge
  · exact fun _ => hs
  · intro text record records _ _ _ _ _
    have hback := hs.rollback record.mergedCustomerId records
    apply Db.Consolidated.insert (m := .auditLog) ?_ (by decide)
    exact hback.modify_record recordId fun _ => ⟨rfl, rfl⟩

theorem rowsOfCustomer_of_agree (h : s.Agree mergeModels t) {m : Model}
    (hm : m ∈ customerReferencingModels ++ forgottenModels) (customerId : Id) :
    t.rowsOfCustomer customerId m = s.rowsOfCustomer customerId m := by
  unfold Db.rowsOfCustomer
  rw [h m (List.mem_cons_of_mem _ hm)]

theorem mergedRows_of_agree (h : s.Agree mergeModels t) (customerId : Id) :
    t.mergedRows customerId = s.mergedRows customerId := by
  apply List.flatMap_congr
  intro m hm
  exact rowsOfCustomer_of_agree h (List.mem_append_left _ hm) customerId

/-- What the decision about a merge leaves. -/
theorem consolidated_resolve {call : ResolveCall}
    (hadmitted : MergeCall.Admitted (.resolve call) s)
    (hall : MergeCall.MergesAll (.resolve call) s) (hs : s.Consolidated) :
    (call.handler.run s).2.Consolidated := by
  rcases call.run_handler_cases s with ⟨e, he⟩ | ⟨existing, t, hfound, hpending, hother, hrun, hok⟩
  · rw [he]
    exact hs
  obtain ⟨request, v, -, -, heffect, ht⟩ := ResolveCall.run_inTx_effect hrun
  have htype := hadmitted existing hfound
  have hclaim : s.Agree (.customerMergeRecord :: mergeModels)
      (s.modify .approvalRequest call.requestId call.resolve) :=
    .modify (m := .approvalRequest) (by decide) s _ _
  have hclaimed := hs.of_agree hclaim
  suffices hv : v.Consolidated by
    rw [hok, ht]
    exact hv.insert (m := .auditLog) (by decide) _
  unfold ResolveCall.effect at heffect
  cases hdecision : call.decision with
  | approve =>
    simp only [hdecision, applyApproval, htype] at heffect
    obtain ⟨r, hr, -, hv⟩ := run_mergeCustomers_eq_ok heffect
    rw [hclaim.find? (by decide)] at hr
    have hinstitution := ResolveCall.institutionId_of_run_eq_ok hfound hok
    have hrecord : r ∈ call.mergeRecord? s := by
      unfold ResolveCall.mergeRecord?
      rw [hfound, Option.filter_some, if_pos (by simp [hdecision, hinstitution, hpending, hother])]
      exact hr
    have hmodels : s.Agree mergeModels (s.modify .approvalRequest call.requestId call.resolve) :=
      hclaim.mono fun m hm => List.mem_cons_of_mem _ hm
    have hcustomers : ∀ id, (s.modify .approvalRequest call.requestId call.resolve).find?
        .customer id = s.find? .customer id := fun id => hclaim.find? (by decide) id
    obtain ⟨hforgotten, hprimary, hpath⟩ := hall r hrecord
    rw [hv]
    refine Db.Consolidated.modify_record ?_ _ ?_
    · apply hclaimed.merge (hs.differ _ r hr)
      · intro m hm
        rw [rowsOfCustomer_of_agree hmodels (List.mem_append_right _ hm)]
        exact hforgotten m hm
      · rw [mergedRows_of_agree hmodels]
        unfold Db.Merged
        rw [hcustomers]
        exact hprimary
      · unfold Db.PointsTo
        simp only [hcustomers]
        exact hpath
    · exact fun _ => ⟨rfl, rfl⟩
  | reject =>
    simp only [hdecision, applyRejection, htype] at heffect
    rw [run_update_end_eq_ok heffect]
    exact hclaimed.modify_record _ fun _ => ⟨rfl, rfl⟩

/-- One call. -/
theorem consolidated_run {call : MergeCall} (hadmitted : call.Admitted s) (hall : call.MergesAll s)
    (hs : s.Consolidated) : (call.handler.run s).2.Consolidated := by
  cases call with
  | request auth primaryCustomerId mergedCustomerId =>
    have hend : Ends (fun _ t => t.Consolidated) (MergeCall.handler (.request auth primaryCustomerId
        mergedCustomerId)) s :=
      (consolidated_requestMerge auth primaryCustomerId mergedCustomerId hs).bind
        (fun _ _ h => h) fun _ _ h => h
    exact hend
  | resolve call => exact consolidated_resolve hadmitted hall hs
  | rollback auth now recordId reason => exact consolidated_rollbackMerge auth now recordId reason hs
  | other p => exact hs.of_keeps hadmitted

end Steps

/-- Before the first merge. -/
theorem consolidated_of_unmerged {s : Db}
    (hcustomers : ∀ c ∈ (s.table .customer).values,
      c.mergeStatus = .active ∧ c.mergedIntoCustomerId = none)
    (hrecords : (s.table .customerMergeRecord).values = []) : s.Consolidated := by
  have hcustomer : ∀ id c, s.find? .customer id = some c →
      c.mergeStatus = .active ∧ c.mergedIntoCustomerId = none := fun id c hc =>
    hcustomers c (OrderedMap.mem_values.mpr ⟨id, hc⟩)
  have hpoints : ∀ a b, ¬ s.PointsTo a b := by
    rintro a b ⟨c, hc, hinto⟩
    rw [(hcustomer a c hc).2] at hinto
    exact absurd hinto nofun
  constructor
  · constructor
    · rintro m id a - ⟨c, hc, hstatus⟩
      rw [(hcustomer a c hc).1] at hstatus
      exact absurd hstatus nofun
    · intro a hcycle
      obtain ⟨b, hab, -⟩ := Relation.TransGen.head'_iff.mp hcycle
      exact hpoints a b hab
  · intro id r hr
    have hmem : r ∈ (s.table .customerMergeRecord).values := OrderedMap.mem_values.mpr ⟨id, hr⟩
    rw [hrecords] at hmem
    exact absurd hmem List.not_mem_nil

/-- In a sequence of merge requests, approvals, rejections and rollbacks, no row belongs to a
customer who has been merged and the pointers do not form a circle, if every merge finds, when it
is executed, nothing of the merged customer that it forgets, a primary customer who takes the rows
as one who has not been merged, and no path from the primary customer to the merged one. -/
theorem merges_leave_nothing_behind (calls : List MergeCall) (s : Db) (hs : s.Consolidated)
    (hcalls : AllAlong MergeCall.handler
      (fun (call : MergeCall) s => call.Admitted s ∧ call.MergesAll s) calls s) :
    (runAll (calls.map MergeCall.handler) s).NothingLeftBehind := by
  have hend : (runAll (calls.map MergeCall.handler) s).Consolidated :=
    hcalls.runAll (I := Db.Consolidated) (fun call s h hs => consolidated_run h.1 h.2 hs) hs
  exact hend.toNothingLeftBehind

/-! ## Two customers -/

/-- Two customers of an institution, the second with a document. -/
def twoCustomers : Db :=
  let customer : Customer := { institutionId := 1 }
  ((Db.empty.insert .customer customer).insert .customer customer).insert .document
    (⟨2⟩ : CustomerReference)

/-- The two customers, the second of whom has given a consent. -/
def withConsent : Db := twoCustomers.insert .customerConsent (⟨2⟩ : CustomerReference)

/-- Someone else approves a request. -/
def mergeApproval (requestId : Id) : MergeCall :=
  .resolve { decision := .approve, auth := ⟨1, 2⟩, now := 5, requestId }

/-- The second customer is merged into the first. -/
def secondIntoFirst : List MergeCall := [.request ⟨1, 1⟩ 1 2, mergeApproval 1]

/-- Each is to be merged into the other. -/
def crossingMerges : List MergeCall :=
  [.request ⟨1, 1⟩ 1 2, .request ⟨1, 1⟩ 2 1, mergeApproval 1, mergeApproval 2]

theorem merges_leave_nothing_behind_secondIntoFirst :
    (runAll (secondIntoFirst.map MergeCall.handler) twoCustomers).NothingLeftBehind := by
  apply merges_leave_nothing_behind
  · apply consolidated_of_unmerged
    · decide
    · rfl
  · refine ⟨⟨trivial, trivial⟩, ⟨?_, ?_⟩, trivial⟩
    · intro r hr
      obtain rfl := Option.some.inj hr
      rfl
    · intro r hr
      obtain rfl := Option.some.inj hr
      refine ⟨by decide +kernel, .inr (by decide +kernel), ?_⟩
      intro hpath
      obtain ⟨b, ⟨c, hc, hinto⟩, -⟩ := Relation.TransGen.head'_iff.mp hpath
      obtain rfl := Option.some.inj hc
      exact absurd hinto nofun

/-- The consent of a customer who is merged stays behind, and two customers who are merged into
each other point to each other. -/
theorem merges_leave_something_behind :
    (withConsent.Consolidated ∧
      AllAlong MergeCall.handler MergeCall.Admitted secondIntoFirst withConsent ∧
      ¬ (runAll (secondIntoFirst.map MergeCall.handler) withConsent).NothingLeftBehind) ∧
    twoCustomers.Consolidated ∧
      AllAlong MergeCall.handler MergeCall.Admitted crossingMerges twoCustomers ∧
      Relation.TransGen (runAll (crossingMerges.map MergeCall.handler) twoCustomers).PointsTo 1 1 := by
  have hrequest : ∀ {s : Db} {requestId : Id} {r : ApprovalRequest},
      s.find? .approvalRequest requestId = some r → r.type = .customerMerge →
      (mergeApproval requestId).Admitted s := by
    intro s requestId r hr htype r' hr'
    have hfound : s.find? .approvalRequest requestId = some r' := hr'
    rw [hr] at hfound
    rw [← Option.some.inj hfound]
    exact htype
  refine ⟨⟨?_, ?_, ?_⟩, ?_, ?_, ?_⟩
  · exact consolidated_of_unmerged (by decide) rfl
  · exact ⟨trivial, hrequest rfl rfl, trivial⟩
  · intro hnothing
    exact hnothing.rows .customerConsent 1 2 (by decide +kernel) (by decide +kernel)
  · exact consolidated_of_unmerged (by decide) rfl
  · exact ⟨trivial, trivial, hrequest rfl rfl, hrequest rfl rfl, trivial⟩
  · exact .tail (.single ⟨_, rfl, rfl⟩) (b := (2 : Id)) ⟨_, rfl, rfl⟩

end NexusEfos
