/-
Approval requests are resolved exactly once.

Any number of approvals and rejections may run at the same time, on the same or on
different requests, and any of their transactions may be cut short.  Whatever the
schedule, the state is the one in which the calls that succeeded were executed one
after the other, each from start to end, and no two of them resolved the same
request (`resolved_exactly_once`).
-/
import NexusEfos.Approvals.Writes

namespace NexusEfos

def Db.requestStatus (s : Db) (requestId : Id) : Option ApprovalRequestStatus :=
  (s.find? .approvalRequest requestId).map ApprovalRequest.status

namespace ResolveCall

variable {call : ResolveCall} {existing : ApprovalRequest} {s s' : Db}

/-! ## One transaction -/

theorem run_claim_eq_ok {u : Unit} (h : call.claim.run s = (.ok u, s')) :
    ∃ row, s.find? .approvalRequest call.requestId = some row ∧ row.status = .pending ∧
      s' = s.modify .approvalRequest call.requestId call.resolve := by
  obtain ⟨claimed, t, hupdate, h⟩ := Proc.run_bind_eq_ok h
  have hclaimed : claimed = true ∧ s' = t := by
    by_cases hc : claimed = true
    · rw [Proc.require_pos hc] at h
      exact ⟨hc, (Prod.mk.inj h).2.symm⟩
    · rw [Proc.require_neg hc] at h
      exact absurd (congrArg Prod.fst h) nofun
  obtain ⟨rfl, rfl⟩ := hclaimed
  obtain ⟨row, hrow, hpending, rfl⟩ := run_updateGuarded_eq_true hupdate
  exact ⟨row, hrow, of_decide_eq_true hpending, rfl⟩

/-- A transaction that commits has claimed the request, carried out the decision and logged
it. -/
theorem run_inTx_effect {u : Unit} (h : (call.inTx existing).run s = (.ok u, s')) :
    ∃ row t, s.find? .approvalRequest call.requestId = some row ∧ row.status = .pending ∧
      (call.effect existing).run (s.modify .approvalRequest call.requestId call.resolve) =
        (.ok (), t) ∧
      s' = t.insert .auditLog
        { institutionId := call.auth.institutionId, userId := some call.auth.userId,
          action := "approval." ++ call.decision.verb, resource := "approval_request",
          resourceId := some call.requestId } := by
  obtain ⟨_, s₁, hclaim, h₁⟩ := Proc.run_bind_eq_ok h
  obtain ⟨row, hrow, hpending, hs₁⟩ := run_claim_eq_ok hclaim
  obtain ⟨_, s₂, heffect, h₂⟩ := Proc.run_bind_eq_ok h₁
  obtain ⟨entry, s₃, haudit, h₃⟩ := Proc.run_bind_eq_ok h₂
  obtain ⟨-, hs₃⟩ := run_create_eq_ok haudit
  rw [hs₁] at heffect
  exact ⟨row, s₂, hrow, hpending, heffect, (Prod.mk.inj h₃).2.symm.trans hs₃⟩

/-- A transaction that commits finds the request pending, resolves it and leaves the
other requests alone. -/
theorem run_inTx_eq_ok {u : Unit} (h : (call.inTx existing).run s = (.ok u, s')) :
    ∃ row, s.find? .approvalRequest call.requestId = some row ∧ row.status = .pending ∧
      ∀ r, s'.find? .approvalRequest r =
        if r = call.requestId then some (call.resolve row) else s.find? .approvalRequest r := by
  obtain ⟨_, t, hclaim, h⟩ := Proc.run_bind_eq_ok h
  obtain ⟨row, hrow, hpending, rfl⟩ := run_claim_eq_ok hclaim
  have hquiet : Quiet [.approvalRequest] (call.effect existing >>= fun _ => do
      let _ ← create .auditLog
        { institutionId := call.auth.institutionId, userId := some call.auth.userId,
          action := "approval." ++ call.decision.verb, resource := "approval_request",
          resourceId := some call.requestId }) := by
    have hm : ∀ m ∈ approvalWrites existing.type, m ∉ [Model.approvalRequest] := by
      cases existing.type <;> decide
    refine (call.quiet_effect hm).bind fun _ => ?_
    exact (Quiet.create (by decide) _).bind fun _ => Quiet.pure _
  have hagree := hquiet.run (s.modify .approvalRequest call.requestId call.resolve)
  refine ⟨row, hrow, hpending, fun r => ?_⟩
  have hsame := hagree.find? (m := .approvalRequest) (by decide) r
  rw [h] at hsame
  rw [hsame, Db.find?_modify]
  by_cases hr : r = call.requestId
  · rw [if_pos hr, if_pos hr, hr, hrow]
    rfl
  · rw [if_neg hr, if_neg hr]

/-- Every statement of a call, if reading does what it may and so does a transaction that
commits. -/
theorem everyStep {D : Access → Db → Db → Prop} (hrefl : ∀ lab s, D lab s s)
    (h : ∀ existing s s', (call.inTx existing).run s = (.ok (), s') →
      D { resolves := some ⟨call.requestId, existing, call.decision = .approve, call.now⟩ } s s') :
    call.handler.EveryStep D := by
  refine Proc.EveryStep.bind ?_ fun found => ?_
  · exact ⟨fun s => hrefl _ s, fun _ => trivial⟩
  · refine (Proc.EveryStep.orFail _ _).bind fun existing => ?_
    refine (Proc.EveryStep.require _ _).bind fun _ => ?_
    refine (Proc.EveryStep.require _ _).bind fun _ => ?_
    apply Proc.EveryStep.transaction
    · intro s
      exact hrefl _ s
    · intro s _ s' hrun
      exact h existing s s' (Proc.run_interrupted_eq_ok hrun)

theorem resolve_status_ne (call : ResolveCall) (row : ApprovalRequest) :
    (call.resolve row).status ≠ .pending := by
  show call.decision.status ≠ .pending
  cases call.decision <;> decide

/-! ## One call -/

/-- What is left of a call once it has read its request. -/
def rest (call : ResolveCall) (found : Option ApprovalRequest) : Handler Unit := do
  let existing ← Proc.orFail found (.http 404 "Approval request not found")
  Proc.require (existing.status = .pending)
    (.http 400 "This request has already been resolved")
  Proc.require (existing.requestedById ≠ call.auth.userId)
    (.http 403 ("Segregation of duties: cannot " ++ call.decision.verb ++
      " a request you submitted yourself"))
  call.commit existing

/-- A call ends with an answer, or goes on with a request that is pending and was
submitted by someone else. -/
theorem rest_cases (call : ResolveCall) (found : Option ApprovalRequest) :
    (∃ e, call.rest found = .done (.error e)) ∨
      ∃ existing, found = some existing ∧ existing.status = .pending ∧
        existing.requestedById ≠ call.auth.userId ∧ call.rest found = call.commit existing := by
  cases found with
  | none => exact .inl ⟨_, rfl⟩
  | some existing =>
    have hrest : call.rest (some existing) =
        (Proc.require (existing.status = .pending)
          (.http 400 "This request has already been resolved") >>= fun _ =>
        Proc.require (existing.requestedById ≠ call.auth.userId)
          (.http 403 ("Segregation of duties: cannot " ++ call.decision.verb ++
            " a request you submitted yourself")) >>= fun _ => call.commit existing) := rfl
    by_cases hpending : existing.status = .pending
    · by_cases hother : existing.requestedById ≠ call.auth.userId
      · rw [Proc.require_pos hpending, Proc.require_pos hother] at hrest
        exact .inr ⟨existing, rfl, hpending, hother, hrest⟩
      · rw [Proc.require_pos hpending, Proc.require_neg hother] at hrest
        exact .inl ⟨_, hrest⟩
    · rw [Proc.require_neg hpending] at hrest
      exact .inl ⟨_, hrest⟩

theorem run_handler (call : ResolveCall) (s : Db) :
    call.handler.run s =
      (call.rest ((s.find? .approvalRequest call.requestId).filter fun r =>
        r.institutionId = call.auth.institutionId)).run s := rfl

/-- A call that is executed alone either succeeds, and then its transaction did, with
the request as it is, or fails, and leaves the database as it was. -/
theorem run_handler_cases (call : ResolveCall) (s : Db) :
    (∃ e, call.handler.run s = (.error e, s)) ∨
      ∃ existing t, s.find? .approvalRequest call.requestId = some existing ∧
        existing.status = .pending ∧ existing.requestedById ≠ call.auth.userId ∧
        (call.inTx existing).run s = (.ok (), t) ∧ call.handler.run s = (.ok (), t) := by
  rw [run_handler]
  rcases call.rest_cases ((s.find? .approvalRequest call.requestId).filter fun r =>
      r.institutionId = call.auth.institutionId) with
    ⟨e, he⟩ | ⟨existing, hexisting, hpending, hother, hrest⟩
  · rw [he]
    exact .inl ⟨e, rfl⟩
  · rw [hrest, commit, Proc.run_transaction]
    cases hrun : ((call.inTx existing).interrupted call.fault).run s with
    | mk r t =>
      cases r with
      | ok u =>
        exact .inr ⟨existing, t, (Option.filter_eq_some_iff.mp hexisting).1, hpending, hother,
          Proc.run_interrupted_eq_ok hrun, rfl⟩
      | error e => exact .inl ⟨e, rfl⟩

/-- A call that succeeds alone is about a request of its institution. -/
theorem institutionId_of_run_eq_ok {call : ResolveCall} {existing : ApprovalRequest} {s t : Db}
    {u : Unit} (hfound : s.find? .approvalRequest call.requestId = some existing)
    (hok : call.handler.run s = (.ok u, t)) :
    existing.institutionId = call.auth.institutionId := by
  by_contra hne
  rw [run_handler, hfound, Option.filter_some, if_neg (by simpa using hne)] at hok
  exact absurd (congrArg Prod.fst hok) nofun

/-- A call that succeeds alone has executed its transaction, under a label with the request as it
is. -/
theorem meets_handler {call : ResolveCall} {A : Access → Db → Prop} {s t : Db} {u : Unit}
    (hmeets : call.handler.Meets A s) (hok : call.handler.run s = (.ok u, t)) :
    ∃ existing, s.find? .approvalRequest call.requestId = some existing ∧
      A { resolves := some ⟨call.requestId, existing, call.decision = .approve, call.now⟩ } s := by
  have hrestMeets := hmeets.2
  rw [run_handler] at hok
  rcases call.rest_cases ((s.find? .approvalRequest call.requestId).filter fun r =>
      r.institutionId = call.auth.institutionId) with ⟨e, he⟩ | ⟨existing, hexisting, -, -, hrest⟩
  · rw [he] at hok
    exact absurd (congrArg Prod.fst hok) nofun
  · have hcommit : (call.commit existing).Meets A s := hrest ▸ hrestMeets
    exact ⟨existing, (Option.filter_eq_some_iff.mp hexisting).1, hcommit.1⟩

theorem next_handler (call : ResolveCall) (s : Db) :
    call.handler.next s =
      (call.rest ((s.find? .approvalRequest call.requestId).filter fun r =>
        r.institutionId = call.auth.institutionId), s) := rfl

/-- Where a call stands, if it started when the requests were those of `s`.  The flag
says whether it has committed. -/
inductive Stage (s : Db) (call : ResolveCall) : Handler Unit → Bool → Prop
  | start : Stage s call call.handler false
  | read {existing : ApprovalRequest}
      (found : s.find? .approvalRequest call.requestId = some existing)
      (pending : existing.status = .pending)
      (other : existing.requestedById ≠ call.auth.userId) : Stage s call (call.commit existing) false
  | failed (e : Failure) : Stage s call (.done (.error e)) false
  | committed : Stage s call (.done (.ok ())) true

/-- A call goes on only with a request that is pending, and was submitted by
someone else. -/
theorem stage_rest {found : Option ApprovalRequest}
    (hfound : ∀ existing, found = some existing → existing.status = .pending →
      s.find? .approvalRequest call.requestId = some existing) :
    Stage s call (call.rest found) false := by
  rcases call.rest_cases found with ⟨e, he⟩ | ⟨existing, hexisting, hpending, hother, hrest⟩
  · rw [he]
    exact .failed e
  · rw [hrest]
    exact .read (hfound existing hexisting hpending) hpending hother

end ResolveCall

/-! ## Any number of calls -/

section Calls

variable {ι : Type} [DecidableEq ι] {calls : ι → ResolveCall} {s : Db}

/-- Calls that share the database. -/
def resolvePool (calls : ι → ResolveCall) (s : Db) : Pool ι Access Db Failure Unit :=
  ⟨fun i => (calls i).handler, s⟩

/-- Execute the transaction of one call, with its request as it is in `s`. -/
def resolveOne (calls : ι → ResolveCall) (s t : Db) (i : ι) : Db :=
  match s.find? .approvalRequest (calls i).requestId with
  | some existing => (((calls i).inTx existing).run t).2
  | none => t

/-- One call after the other. -/
def resolveAll (calls : ι → ResolveCall) (s : Db) (is : List ι) : Db :=
  is.foldl (resolveOne calls s) s

/-- Some calls have committed, in this order, and nothing else has happened. -/
structure Resolving (calls : ι → ResolveCall) (s : Db) (c : Pool ι Access Db Failure Unit)
    (done : List ι) : Prop where
  state : c.state = resolveAll calls s done
  nodup : (done.map fun i => (calls i).requestId).Nodup
  stage : ∀ i, (calls i).Stage s (c.threads i) (decide (i ∈ done))
  resolved : ∀ i ∈ done, ∃ row, s.find? .approvalRequest (calls i).requestId = some row ∧
    row.status = .pending ∧ row.requestedById ≠ (calls i).auth.userId ∧
    c.state.find? .approvalRequest (calls i).requestId = some ((calls i).resolve row)
  others : ∀ r, (∀ i ∈ done, (calls i).requestId ≠ r) →
    c.state.find? .approvalRequest r = s.find? .approvalRequest r

namespace Resolving

variable {c : Pool ι Access Db Failure Unit} {done : List ι}

theorem start (calls : ι → ResolveCall) (s : Db) : Resolving calls s (resolvePool calls s) [] where
  state := rfl
  nodup := List.nodup_nil
  stage := fun _ => .start
  resolved := fun _ hi => absurd hi List.not_mem_nil
  others := fun _ _ => rfl

/-- A step that leaves the state alone. -/
theorem move (h : Resolving calls s c done) {i : ι} {p : Handler Unit}
    (hp : (calls i).Stage s p (decide (i ∈ done))) :
    Resolving calls s ⟨Function.update c.threads i p, c.state⟩ done where
  state := h.state
  nodup := h.nodup
  stage := by
    intro j
    by_cases hj : j = i
    · subst hj
      simpa using hp
    · simpa [hj] using h.stage j
  resolved := h.resolved
  others := h.others

/-- A request that is still pending is as it was. -/
theorem find?_of_pending (h : Resolving calls s c done) {r : Id} {row : ApprovalRequest}
    (hrow : c.state.find? .approvalRequest r = some row) (hpending : row.status = .pending) :
    (∀ i ∈ done, (calls i).requestId ≠ r) ∧ s.find? .approvalRequest r = some row := by
  have hopen : ∀ i ∈ done, (calls i).requestId ≠ r := by
    intro i hi heq
    obtain ⟨row', -, -, -, hresolved⟩ := h.resolved i hi
    rw [heq, hrow] at hresolved
    rw [Option.some.inj hresolved] at hpending
    exact (calls i).resolve_status_ne row' hpending
  exact ⟨hopen, (h.others r hopen).symm.trans hrow⟩

/-- A transaction commits. -/
theorem commit (h : Resolving calls s c done) {i : ι} {existing : ApprovalRequest} {t : Db}
    {u : Unit} (hi : i ∉ done)
    (hfound : s.find? .approvalRequest (calls i).requestId = some existing)
    (hother : existing.requestedById ≠ (calls i).auth.userId)
    (hrun : ((calls i).inTx existing).run c.state = (.ok u, t)) :
    Resolving calls s ⟨Function.update c.threads i (.done (.ok ())), t⟩ (done ++ [i]) := by
  obtain ⟨row, hrow, hpending, hrows⟩ := ResolveCall.run_inTx_eq_ok hrun
  obtain ⟨hopen, hsame⟩ := h.find?_of_pending hrow hpending
  have hexisting : row = existing := Option.some.inj (hsame.symm.trans hfound)
  refine ⟨?_, ?_, ?_, ?_, ?_⟩
  · show t = resolveAll calls s (done ++ [i])
    rw [resolveAll, List.foldl_append]
    show t = resolveOne calls s (resolveAll calls s done) i
    rw [← h.state, resolveOne, hfound]
    simp only [hrun]
  · rw [List.map_append, List.nodup_append]
    refine ⟨h.nodup, List.nodup_singleton _, ?_⟩
    intro a ha b hb
    obtain ⟨j, hj, rfl⟩ := List.mem_map.mp ha
    rw [List.map_singleton, List.mem_singleton] at hb
    rw [hb]
    exact hopen j hj
  · intro j
    by_cases hj : j = i
    · subst hj
      have hmem : decide (j ∈ done ++ [j]) = true := by simp
      rw [hmem]
      simpa using ResolveCall.Stage.committed
    · have hmem : decide (j ∈ done ++ [i]) = decide (j ∈ done) := by simp [hj]
      rw [hmem]
      simpa [hj] using h.stage j
  · intro j hj
    rcases List.mem_append.mp hj with hj | hj
    · obtain ⟨row', hrow', hpending', hother', hnow⟩ := h.resolved j hj
      refine ⟨row', hrow', hpending', hother', ?_⟩
      show t.find? _ _ = _
      rw [hrows, if_neg (hopen j hj), hnow]
    · rw [List.mem_singleton.mp hj]
      refine ⟨row, hsame, hpending, hexisting ▸ hother, ?_⟩
      show t.find? _ _ = _
      rw [hrows, if_pos rfl]
  · intro r hr
    show t.find? _ _ = _
    have hne : r ≠ (calls i).requestId := (hr i (by simp)).symm
    rw [hrows, if_neg hne]
    exact h.others r fun j hj => hr j (List.mem_append_left _ hj)

/-- A step commits a call, or leaves the state alone. -/
theorem step (h : Resolving calls s c done) (i : ι) :
    (Resolving calls s (c.step i) done ∧ (c.step i).state = c.state) ∨
      (Resolving calls s (c.step i) (done ++ [i]) ∧ (c.step i).threads i = .done (.ok ())) := by
  rw [Pool.step_eq_next]
  have hstage := h.stage i
  generalize hp : c.threads i = p at hstage
  generalize hflag : decide (i ∈ done) = flag at hstage
  cases hstage with
  | start =>
    rw [ResolveCall.next_handler]
    refine .inl ⟨h.move ?_, rfl⟩
    rw [hflag]
    apply ResolveCall.stage_rest
    intro existing hexisting hpending
    exact (h.find?_of_pending (Option.filter_eq_some_iff.mp hexisting).1 hpending).2
  | @read existing hfound hpending hother =>
    rw [ResolveCall.commit, Proc.next_transaction]
    have hi : i ∉ done := of_decide_eq_false hflag
    cases hrun : (((calls i).inTx existing).interrupted (calls i).fault).run c.state with
    | mk r t =>
      cases r with
      | ok u =>
        refine .inr ⟨?_, by simp⟩
        exact h.commit hi hfound hother (Proc.run_interrupted_eq_ok hrun)
      | error e =>
        refine .inl ⟨h.move ?_, rfl⟩
        rw [hflag]
        exact .failed e
  | failed e =>
    refine .inl ⟨h.move ?_, rfl⟩
    rw [hflag]
    exact .failed e
  | committed =>
    refine .inl ⟨h.move ?_, rfl⟩
    rw [hflag]
    exact .committed

theorem run (h : Resolving calls s c done) (sched : List ι) :
    ∃ more, Resolving calls s (c.run sched) (done ++ more) := by
  induction sched generalizing c done with
  | nil => exact ⟨[], by rwa [List.append_nil]⟩
  | cons i is ih =>
    rcases h.step i with ⟨hsame, -⟩ | ⟨hcommit, -⟩
    · exact ih hsame
    · obtain ⟨more, hmore⟩ := ih hcommit
      exact ⟨i :: more, by rwa [List.append_assoc] at hmore⟩

/-- The calls that have committed are those that have succeeded. -/
theorem threads_eq_ok_iff (h : Resolving calls s c done) (i : ι) :
    c.threads i = .done (.ok ()) ↔ i ∈ done := by
  have hstage := h.stage i
  generalize hp : c.threads i = p at hstage
  generalize hflag : decide (i ∈ done) = flag at hstage
  cases hstage with
  | start => exact ⟨nofun, fun hi => absurd hi (of_decide_eq_false hflag)⟩
  | read => exact ⟨nofun, fun hi => absurd hi (of_decide_eq_false hflag)⟩
  | failed e => exact ⟨nofun, fun hi => absurd hi (of_decide_eq_false hflag)⟩
  | committed => exact ⟨fun _ => of_decide_eq_true hflag, fun _ => rfl⟩

end Resolving

/-- Every schedule of approvals and rejections comes to the same as the calls that
succeeded, executed one after the other.  Each of these found its request pending and
submitted by someone else, and no two resolved the same one; every other request is
as it was.  A request that is resolved stays as it is, and a step with which a call
fails leaves the database as it was. -/
theorem resolved_exactly_once (calls : ι → ResolveCall) (s : Db) (sched : List ι) :
    (∃ done : List ι,
      (∀ i, ((resolvePool calls s).run sched).threads i = .done (.ok ()) ↔ i ∈ done) ∧
      (done.map fun i => (calls i).requestId).Nodup ∧
      ((resolvePool calls s).run sched).state = resolveAll calls s done ∧
      (∀ i ∈ done, ∃ row, s.find? .approvalRequest (calls i).requestId = some row ∧
        row.status = .pending ∧ row.requestedById ≠ (calls i).auth.userId ∧
        ((resolvePool calls s).run sched).state.find? .approvalRequest (calls i).requestId =
          some ((calls i).resolve row)) ∧
      ∀ r, (∀ i ∈ done, (calls i).requestId ≠ r) →
        ((resolvePool calls s).run sched).state.find? .approvalRequest r =
          s.find? .approvalRequest r) ∧
    (∀ r row sched', ((resolvePool calls s).run sched).state.find? .approvalRequest r = some row →
      row.status ≠ .pending →
      ((resolvePool calls s).run (sched ++ sched')).state.find? .approvalRequest r = some row) ∧
    ∀ i e, ((resolvePool calls s).run (sched ++ [i])).threads i = .done (.error e) →
      ((resolvePool calls s).run (sched ++ [i])).state =
        ((resolvePool calls s).run sched).state := by
  obtain ⟨done, hdone⟩ := (Resolving.start calls s).run sched
  rw [List.nil_append] at hdone
  refine ⟨⟨done, hdone.threads_eq_ok_iff, hdone.nodup, hdone.state, hdone.resolved,
    hdone.others⟩, ?_, ?_⟩
  · intro r row sched' hrow hresolved
    rw [Pool.run_append]
    obtain ⟨more, hmore⟩ := hdone.run sched'
    by_cases hr : ∃ i ∈ done, (calls i).requestId = r
    · obtain ⟨i, hi, rfl⟩ := hr
      obtain ⟨row₁, hrow₁, -, -, hnow⟩ := hdone.resolved i hi
      obtain ⟨row₂, hrow₂, -, -, hlater⟩ := hmore.resolved i (List.mem_append_left _ hi)
      have hsame : row₁ = row₂ := Option.some.inj (hrow₁.symm.trans hrow₂)
      rw [hlater, ← hsame, ← hnow, hrow]
    · have hbefore : s.find? .approvalRequest r = some row := by
        rw [← hdone.others r fun i hi heq => hr ⟨i, hi, heq⟩, hrow]
      rw [hmore.others r ?_, hbefore]
      intro i hi heq
      obtain ⟨row', hrow', hpending, -, -⟩ := hmore.resolved i hi
      rw [heq, hbefore] at hrow'
      rw [← Option.some.inj hrow'] at hpending
      exact hresolved hpending
  · intro i e herror
    rw [Pool.run_append] at herror ⊢
    rcases hdone.step i with ⟨-, hsame⟩ | ⟨-, hok⟩
    · exact hsame
    · have hstep : (((resolvePool calls s).run sched).step i).threads i = .done (.error e) := herror
      rw [hok] at hstep
      exact absurd hstep nofun

end Calls

end NexusEfos
