/-
The routes of the collectors: the assignment of customers in `routes/collections.routes.ts`.

A customer should be on one route at a time.  An assignment looks for another active one before it
creates its own, in a statement of its own, and a merge gives the assignments of one customer to
another without looking.  So a customer is on one route at most in runs in which an assignment
still finds the customer free when it is created, and no merge brings two customers together who
are both on a route.
-/
import NexusEfos.Customers.Merges
import NexusEfos.Schema.LiveRows

namespace NexusEfos

open Proc

/-! ## The endpoints -/

/-- `POST /routes/:id/customers`. -/
def assignCustomer (auth : Auth) (routeId customerId : Id) (sequence : Option ℤ) : Handler Id := do
  let found ← findById .collectionRoute routeId fun r => r.institutionId = auth.institutionId
  let _ ← Proc.orFail found (.http 404 "Route not found")
  let conflict ← findFirst .collectionRouteCustomer fun _ a =>
    decide (a.customerId = customerId) && a.active
  Proc.require (conflict.isNone = true)
    (.http 400
      "This customer is already assigned to an active route — remove them from it first")
  let assignment ← createAs { assignsRoute := some customerId } .collectionRouteCustomer
    { routeId, customerId, sequence }
  let _ ← create .auditLog
    { institutionId := auth.institutionId, userId := some auth.userId,
      action := "collection_route.customer_assigned", resource := "collection_route",
      resourceId := some routeId }
  return assignment

/-- `DELETE /routes/:routeId/customers/:assignmentId`. -/
def unassignCustomer (auth : Auth) (now : DateTime) (routeId assignmentId : Id) : Handler Unit := do
  let found ← findById .collectionRouteCustomer assignmentId fun a => a.routeId = routeId
  let _ ← Proc.orFail found (.http 404 "Assignment not found")
  let _ ← update .collectionRouteCustomer assignmentId fun a =>
    { a with active := false, removedAt := some now }
  let _ ← create .auditLog
    { institutionId := auth.institutionId, userId := some auth.userId,
      action := "collection_route.customer_removed", resource := "collection_route",
      resourceId := some routeId }

/-! ## One route at a time -/

/-- The customer is on a route. -/
def Db.OnRoute (s : Db) (customerId : Id) : Prop :=
  ∃ a ∈ (s.table .collectionRouteCustomer).values, a.customerId = customerId ∧ a.active = true

instance (s : Db) (customerId : Id) : Decidable (s.OnRoute customerId) :=
  inferInstanceAs (Decidable (∃ a ∈ (s.table .collectionRouteCustomer).values, _))

theorem Db.onRoute_iff {s : Db} {customerId : Id} : s.OnRoute customerId ↔
    ∃ id a, s.find? .collectionRouteCustomer id = some a ∧ a.customerId = customerId ∧
      a.active = true := by
  constructor
  · rintro ⟨a, ha, h⟩
    obtain ⟨id, hid⟩ := OrderedMap.mem_values.mp ha
    exact ⟨id, a, hid, h⟩
  · rintro ⟨id, a, hid, h⟩
    exact ⟨a, OrderedMap.mem_values.mpr ⟨id, hid⟩, h⟩

/-- A customer has one active assignment at most. -/
def Db.OneRoute (s : Db) : Prop :=
  s.AtMostOne .collectionRouteCustomer CollectionRouteCustomer.active
    CollectionRouteCustomer.customerId

instance (s : Db) : Decidable s.OneRoute :=
  inferInstanceAs (Decidable (s.AtMostOne .collectionRouteCustomer CollectionRouteCustomer.active
    CollectionRouteCustomer.customerId))

/-- An assignment is created for a customer who is on no route, and of two customers who are
merged one at most is on a route. -/
def Access.KeepsOneRoute (lab : Access) (s : Db) : Prop :=
  (∀ customerId ∈ lab.assignsRoute, ¬ s.OnRoute customerId) ∧
    ∀ r ∈ lab.merge? s, ¬ (s.OnRoute r.primaryCustomerId ∧ s.OnRoute r.mergedCustomerId)

instance (lab : Access) (s : Db) : Decidable (lab.KeepsOneRoute s) :=
  inferInstanceAs (Decidable ((∀ customerId ∈ lab.assignsRoute, _) ∧ ∀ r ∈ lab.merge? s, _))

section Steps

variable {s t : Db}

theorem Db.OneRoute.of_agree (hs : s.OneRoute) (h : s.Agree [.collectionRouteCustomer] t) :
    t.OneRoute := Db.AtMostOne.of_table_eq hs (h _ (List.mem_singleton_self _))

/-- The assignments of one customer become those of another. -/
theorem Db.OneRoute.merge (hs : s.OneRoute) {primary merged : Id}
    (hone : ¬ (s.OnRoute primary ∧ s.OnRoute merged)) : (s.merge primary merged).OneRoute := by
  have hrow : ∀ id a, (s.merge primary merged).find? .collectionRouteCustomer id = some a →
      ∃ a₀, s.find? .collectionRouteCustomer id = some a₀ ∧ a₀.active = a.active ∧
        a.customerId = if a₀.customerId = merged then primary else a₀.customerId := by
    intro id a ha
    rw [Db.find?, table_merge_of_mem (by decide), OrderedMap.get?_updateAll] at ha
    obtain ⟨a₀, ha₀, rfl⟩ := Option.map_eq_some_iff.mp ha
    refine ⟨a₀, ha₀, ?_⟩
    by_cases hmoved : a₀.customerId = merged
    · have howned : customerIdOf .collectionRouteCustomer a₀ = some merged := congrArg some hmoved
      rw [if_pos hmoved, moveRow, if_pos howned]
      exact ⟨rfl, rfl⟩
    · have hkept : customerIdOf .collectionRouteCustomer a₀ ≠ some merged := fun h =>
        hmoved (Option.some.inj h)
      rw [if_neg hmoved, moveRow, if_neg hkept]
      exact ⟨rfl, rfl⟩
  intro id a id' a' ha ha' hactive hactive' hcustomer
  obtain ⟨b, hb, hbactive, hbcustomer⟩ := hrow id a ha
  obtain ⟨b', hb', hbactive', hbcustomer'⟩ := hrow id' a' ha'
  have hlive : b.active = true := hbactive.trans hactive
  have hlive' : b'.active = true := hbactive'.trans hactive'
  apply hs id b id' b' hb hb' hlive hlive'
  show b.customerId = b'.customerId
  rw [hbcustomer, hbcustomer'] at hcustomer
  by_cases hmoved : b.customerId = merged <;> by_cases hmoved' : b'.customerId = merged
  · rw [hmoved, hmoved']
  · rw [if_pos hmoved, if_neg hmoved'] at hcustomer
    exact absurd ⟨Db.onRoute_iff.mpr ⟨id', b', hb', hcustomer.symm, hlive'⟩,
      Db.onRoute_iff.mpr ⟨id, b, hb, hmoved, hlive⟩⟩ hone
  · rw [if_neg hmoved, if_pos hmoved'] at hcustomer
    exact absurd ⟨Db.onRoute_iff.mpr ⟨id, b, hb, hcustomer, hlive⟩,
      Db.onRoute_iff.mpr ⟨id', b', hb', hmoved', hlive'⟩⟩ hone
  · rwa [if_neg hmoved, if_neg hmoved'] at hcustomer

/-- What a statement does to the assignments, if it is one that keeps customers on one route. -/
def RouteStep (lab : Access) (s t : Db) : Prop := lab.KeepsOneRoute s → s.OneRoute → t.OneRoute

theorem RouteStep.of_quiet {α : Type} {p : Handler α} (hp : Quiet [.collectionRouteCustomer] p) :
    p.EveryStep RouteStep :=
  .of_every (fun _ _ _ hagree _ hs => hs.of_agree hagree) hp

theorem RouteStep.assignCustomer (auth : Auth) (routeId customerId : Id) (sequence : Option ℤ) :
    (assignCustomer auth routeId customerId sequence).EveryStep RouteStep := by
  refine (of_quiet (Quiet.query _)).bind fun _ => ?_
  refine (EveryStep.orFail _ _).bind fun _ => ?_
  refine (of_quiet (Quiet.query _)).bind fun _ => ?_
  refine (EveryStep.require _ _).bind fun _ => EveryStep.bind ?_ fun _ => ?_
  · refine ⟨fun s hlab hs => ?_, fun _ => trivial⟩
    apply Db.AtMostOne.insert hs
    intro _ id a ha hactive hsame
    exact hlab.1 customerId rfl (Db.onRoute_iff.mpr ⟨id, a, ha, hsame, hactive⟩)
  · exact of_quiet ((Quiet.create (by decide) _).bind fun _ => Quiet.pure _)

theorem RouteStep.unassignCustomer (auth : Auth) (now : DateTime) (routeId assignmentId : Id) :
    (unassignCustomer auth now routeId assignmentId).EveryStep RouteStep := by
  refine (of_quiet (Quiet.query _)).bind fun _ => ?_
  refine (EveryStep.orFail _ _).bind fun _ => EveryStep.bind ?_ fun _ => ?_
  · refine ⟨fun s _ hs => ?_, fun _ => trivial⟩
    dsimp only
    split
    · exact Db.AtMostOne.modify hs assignmentId fun _ h => absurd h nofun
    · exact hs
  · exact of_quiet ((Quiet.create (by decide) _).bind fun _ => Quiet.pure _)

theorem RouteStep.resolve (call : ResolveCall) : call.handler.EveryStep RouteStep := by
  apply call.everyStep
  · exact fun _ _ _ hs => hs
  · intro existing s t hrun hlab hs
    have hwrites : ∀ type, type ≠ ApprovalRequestType.customerMerge →
        ∀ m ∈ approvalWrites type, m ∉ [Model.collectionRouteCustomer] := by
      intro type htype
      revert htype
      cases type <;> decide
    rcases run_inTx_merge (by decide) hwrites hrun with hagree | ⟨r, hr, hmerged⟩
    · exact hs.of_agree hagree
    · exact (hs.merge (hlab.2 r hr)).of_agree hmerged

end Steps

/-! ## Runs of the calls -/

/-- The calls of a run.  The last constructor stands for every other endpoint. -/
inductive RouteCall
  | assign (auth : Auth) (routeId customerId : Id) (sequence : Option ℤ)
  | unassign (auth : Auth) (now : DateTime) (routeId assignmentId : Id)
  | resolve (call : ResolveCall)
  | other (p : Handler Unit) (h : Quiet [.collectionRouteCustomer] p)

def RouteCall.handler : RouteCall → Handler Unit
  | assign auth routeId customerId sequence => do
    let _ ← assignCustomer auth routeId customerId sequence
  | unassign auth now routeId assignmentId => unassignCustomer auth now routeId assignmentId
  | resolve call => call.handler
  | other p _ => p

theorem RouteCall.everyStep (call : RouteCall) : call.handler.EveryStep RouteStep := by
  cases call with
  | assign auth routeId customerId sequence =>
    exact (RouteStep.assignCustomer auth routeId customerId sequence).bind fun _ => trivial
  | unassign auth now routeId assignmentId =>
    exact RouteStep.unassignCustomer auth now routeId assignmentId
  | resolve call => exact RouteStep.resolve call
  | other p h => exact RouteStep.of_quiet h

section Runs

variable {ι : Type} [DecidableEq ι]

def routePool (calls : ι → RouteCall) (s : Db) : Pool ι Access Db Failure Unit :=
  ⟨fun i => (calls i).handler, s⟩

/-- In every state of a run in which an assignment is created for a customer who is on no route,
and of two customers who are merged one at most is on a route, every customer has one active
assignment at most. -/
theorem customers_on_one_route (calls : ι → RouteCall) (s : Db) (hs : s.OneRoute) {sched : List ι}
    (hallowed : (routePool calls s).Allowed Access.KeepsOneRoute sched) :
    ((routePool calls s).run sched).state.OneRoute := by
  have hcalls : ∀ i, ((routePool calls s).threads i).EveryStep RouteStep :=
    fun i => (calls i).everyStep
  have hkeeps : s.OneRoute → ((routePool calls s).run sched).state.OneRoute :=
    Pool.run_rel (R := fun s t => s.OneRoute → t.OneRoute) (fun _ h => h) (fun h h' hs => h' (h hs))
      (fun _ _ _ hstep hlab => hstep hlab) hcalls hallowed
  exact hkeeps hs

end Runs

/-- An assignment with nothing else in between is created for a customer who is on no route. -/
theorem assignCustomer_meets (auth : Auth) (routeId customerId : Id) (sequence : Option ℤ) (s : Db) :
    (assignCustomer auth routeId customerId sequence).Meets Access.KeepsOneRoute s := by
  have hnomerge : ∀ lab : Access, lab.resolves = none → ∀ t : Db, ∀ r ∈ lab.merge? t,
      ¬ (t.OnRoute r.primaryCustomerId ∧ t.OnRoute r.mergedCustomerId) := by
    intro lab hlab t r hr
    rw [merge?_of_resolves hlab] at hr
    exact absurd hr (Option.not_mem_none r)
  have hreads : ∀ t : Db, ({} : Access).KeepsOneRoute t := fun t =>
    ⟨fun c hc => absurd hc (Option.not_mem_none c), hnomerge _ rfl t⟩
  apply meets_query (hreads s)
  apply Meets.orFail
  intro _ _
  apply meets_query (hreads s)
  apply Meets.require
  intro hnone
  refine ⟨⟨?_, hnomerge _ rfl s⟩, hreads _, trivial⟩
  rintro c hc ⟨a, ha, hcustomer, hactive⟩
  obtain rfl := Option.some.inj hc
  obtain ⟨id, hid⟩ := OrderedMap.mem_values.mp ha
  have hmem : (id, a) ∈ (s.table .collectionRouteCustomer).entries := OrderedMap.get?_eq_some.mp hid
  have hfree := List.find?_eq_none.mp (Option.isNone_iff_eq_none.mp hnone) (id, a) hmem
  exact hfree (by simp [hcustomer, hactive])

/-! ## Two assignments -/

/-- Two routes of an institution, and two customers to be merged, the first of whom is on a
route. -/
def routeBook : Db :=
  let record : CustomerMergeRecord :=
    { institutionId := 1, primaryCustomerId := 1, mergedCustomerId := 2 }
  let request : ApprovalRequest :=
    { institutionId := 1, type := .customerMerge, targetType := "CustomerMergeRecord", targetId := 1,
      requestedById := 1 }
  let routes := (Db.empty.insert .collectionRoute (⟨1, "North"⟩ : CollectionRoute)).insert
    .collectionRoute (⟨1, "South"⟩ : CollectionRoute)
  let customers := (routes.insert .customer ({ institutionId := 1 } : Customer)).insert .customer
    ({ institutionId := 1 } : Customer)
  ((customers.insert .collectionRouteCustomer
    ({ routeId := 1, customerId := 1 } : CollectionRouteCustomer)).insert .customerMergeRecord
      record).insert .approvalRequest request

/-- The second customer is assigned to each route, by two users, and the merge is approved. -/
def routeCalls : Fin 3 → RouteCall
  | 0 => .assign ⟨1, 1⟩ 1 2 none
  | 1 => .assign ⟨1, 2⟩ 2 2 none
  | 2 => .resolve { decision := .approve, auth := ⟨1, 2⟩, now := 5, requestId := 1 }

/-- The first customer is on a route and the second is not when they are merged. -/
theorem customers_on_one_route_mergedFirst :
    ((routePool routeCalls routeBook).run (List.replicate 2 2 ++ List.replicate 4 0)).state.OneRoute :=
  customers_on_one_route routeCalls routeBook (by decide +kernel) (by decide +kernel)

/-- Two assignments that both find the customer free, and a merge of two customers who are both on
a route. -/
theorem customers_on_two_routes :
    routeBook.OneRoute ∧
      ¬ ((routePool routeCalls routeBook).run [0, 0, 1, 1, 0, 1]).state.OneRoute ∧
      ¬ ((routePool routeCalls routeBook).run
        (List.replicate 4 0 ++ List.replicate 2 2)).state.OneRoute := by
  decide +kernel

end NexusEfos
