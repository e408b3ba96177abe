/-
The distributed claim of the scheduled jobs: `claimAndRun` of `lib/scheduler.ts`.

Every instance of the server starts every job at the same time.  The first statement of a start
creates the row of the job and the day, of which there can be one, and whoever does not get it stops
there.  So of the starts of a job on a day at most one ever comes to the job, the row names it and
says how it ended, and what the jobs of the others would have done does not matter.
-/
import NexusEfos.Loans.Arrears
import NexusEfos.Loans.Disbursements
import NexusEfos.Operations.ScheduledDates
import NexusEfos.Schema.LiveRows

namespace NexusEfos

open Proc

/-! ## One start of a job -/

/-- A start of a job by a process.  No job writes the claims. -/
structure JobCall where
  jobType : String
  now : DateTime
  processId : String
  fn : Handler Unit
  quiet : Quiet [.scheduledJobRun] fn

namespace JobCall

/-- The job and the day that a start is for. -/
def key (c : JobCall) : String × DateTime := (c.jobType, startOfDay c.now)

def handler (message : Failure → String) (c : JobCall) : Handler Unit :=
  claimAndRun message c.jobType c.now c.processId c.fn

/-- The row that a start creates. -/
def row (c : JobCall) : ScheduledJobRun :=
  { jobType := c.jobType, runDate := startOfDay c.now, claimedByProcessId := c.processId }

end JobCall

def ScheduledJobRun.key (r : ScheduledJobRun) : String × DateTime := (r.jobType, r.runDate)

/-- The unique index of the claims. -/
abbrev Db.JobRunsUnique (s : Db) : Prop :=
  s.AtMostOne .scheduledJobRun (fun _ => true) ScheduledJobRun.key

/-- The row of the job and the day is there. -/
def Db.Claimed (s : Db) (key : String × DateTime) : Bool :=
  (s.table .scheduledJobRun).values.any fun r => r.jobType = key.1 ∧ r.runDate = key.2

theorem Db.key_ne_of_not_claimed {s : Db} {key : String × DateTime} (h : s.Claimed key = false) {id : Id}
    {r : ScheduledJobRun} (hr : s.find? .scheduledJobRun id = some r) : r.key ≠ key := by
  intro hkey
  have hmem : r ∈ (s.table .scheduledJobRun).values :=
    List.mem_map_of_mem (OrderedMap.get?_eq_some.mp hr)
  have hnot := List.any_eq_false.mp h r hmem
  rw [← hkey] at hnot
  exact hnot (decide_eq_true ⟨rfl, rfl⟩)

section Start

variable (message : Failure → String) (c : JobCall)

/-- What a start does once the job has ended. -/
def JobCall.finish (claim : Id) : Except Failure Unit → Handler Unit
  | .ok _ => pure ()
  | .error err => do
    let _ ← update .scheduledJobRun claim fun r =>
      { r with status := .failed, completedAt := some c.now, error := some (message err) }
    Proc.fail err

/-- What is left of a start while its job has this much left to do. -/
def JobCall.working (claim : Id) (p : Handler Unit) : Handler Unit :=
  (do
    p
    let _ ← update .scheduledJobRun claim fun r =>
      { r with status := .completed, completedAt := some c.now } : Handler Unit).outcome >>=
    c.finish message claim

/-- The first statement of a start, which gets the claim or stops. -/
theorem JobCall.next_handler (s : Db) : (c.handler message).next s =
    if s.Claimed c.key = true then (.done (.ok ()), s)
    else (c.working message (s.nextId .scheduledJobRun) c.fn, s.insert .scheduledJobRun c.row) := by
  by_cases hclaimed : s.Claimed c.key = true
  · have hany : ((s.table .scheduledJobRun).values.any fun r =>
        r.jobType = c.jobType ∧ r.runDate = startOfDay c.now) = true := hclaimed
    rw [if_pos hclaimed]
    unfold handler claimAndRun claimScheduledJobRun
    simp only [attempt, outcome, stmt_bind, Proc.next, if_pos hany, done_ok_bind]
    rfl
  · have hnone : ¬ ((s.table .scheduledJobRun).values.any fun r =>
        r.jobType = c.jobType ∧ r.runDate = startOfDay c.now) = true := hclaimed
    rw [if_neg hclaimed]
    unfold handler claimAndRun claimScheduledJobRun
    simp only [attempt, outcome, stmt_bind, Proc.next, if_neg hnone, done_ok_bind]
    rfl

/-- A job that has ended well is written into the row. -/
theorem JobCall.next_working_ok {s : Db} {claim : Id} {r : ScheduledJobRun}
    (hr : s.find? .scheduledJobRun claim = some r) (u : Unit) :
    (c.working message claim (.done (.ok u))).next s =
      (.done (.ok ()), s.modify .scheduledJobRun claim fun r =>
        { r with status := .completed, completedAt := some c.now }) := by
  unfold JobCall.working update updateAs
  simp only [done_ok_bind, attempt, stmt_bind, outcome, Proc.next, hr]
  rfl

/-- So is one that has failed, with its error. -/
theorem JobCall.next_working_error {s : Db} {claim : Id} {r : ScheduledJobRun}
    (hr : s.find? .scheduledJobRun claim = some r) (err : Failure) :
    (c.working message claim (.done (.error err))).next s =
      (.done (.error err), s.modify .scheduledJobRun claim fun r =>
        { r with status := .failed, completedAt := some c.now,
                 error := some (message err) }) := by
  unfold JobCall.working
  simp only [done_error_bind, outcome, done_ok_bind]
  unfold JobCall.finish update updateAs
  simp only [attempt, stmt_bind, Proc.next, hr]
  rfl

/-- A start that holds a claim has its job to do or has ended, as its row says. -/
inductive JobCall.Stage (claim : Id) : Handler Unit → ScheduledJobRun → Prop
  | working {p : Handler Unit} {r : ScheduledJobRun} (hp : Quiet [.scheduledJobRun] p)
      (h : r.status = .claimed) : Stage claim (c.working message claim p) r
  | completed {r : ScheduledJobRun} (h : r.status = .completed) : Stage claim (.done (.ok ())) r
  | failed {err : Failure} {r : ScheduledJobRun} (h : r.status = .failed)
      (herror : r.error = some (message err)) : Stage claim (.done (.error err)) r

end Start

section Steps

variable {message : Failure → String} {c : JobCall} {s : Db}

theorem Quiet.next {α : Type} {watched : List Model} {p : Handler α} (hp : Quiet watched p)
    (s : Db) : Quiet watched (p.next s).1 ∧ s.Agree watched (p.next s).2 := by
  cases p with
  | done r => exact ⟨hp, .refl s⟩
  | stmt lab act k => exact ⟨hp.2 _, hp.1 s⟩

/-- The row of a claim is written, and no other one. -/
def Db.SetsClaim (s : Db) (claim : Id) (r : ScheduledJobRun) (t : Db) : Prop :=
  ∀ id, t.find? .scheduledJobRun id =
    if id = claim then some r else s.find? .scheduledJobRun id

theorem Db.SetsClaim.of_agree {claim : Id} {r : ScheduledJobRun} {t : Db}
    (hr : s.find? .scheduledJobRun claim = some r) (h : s.Agree [.scheduledJobRun] t) :
    s.SetsClaim claim r t := by
  intro id
  rw [h.find? (List.mem_singleton_self _)]
  by_cases hid : id = claim
  · rw [if_pos hid, hid, hr]
  · rw [if_neg hid]

theorem Db.SetsClaim.modify {claim : Id} {r : ScheduledJobRun}
    (hr : s.find? .scheduledJobRun claim = some r) (f : ScheduledJobRun → ScheduledJobRun) :
    s.SetsClaim claim (f r) (s.modify .scheduledJobRun claim f) := by
  intro id
  rw [Db.find?_modify]
  by_cases hid : id = claim
  · rw [if_pos hid, if_pos hid, hid, hr]
    rfl
  · rw [if_neg hid, if_neg hid]

theorem Db.SetsClaim.unique {claim : Id} {r r' : ScheduledJobRun} {t : Db}
    (h : s.SetsClaim claim r' t) (hr : s.find? .scheduledJobRun claim = some r)
    (hkey : r'.key = r.key) (hs : s.JobRunsUnique) : t.JobRunsUnique := by
  apply hs.of_liveBefore
  intro id row hrow _
  rw [h id] at hrow
  by_cases hid : id = claim
  · rw [if_pos hid] at hrow
    refine ⟨r, by rw [hid]; exact hr, rfl, ?_⟩
    rw [← Option.some.inj hrow, hkey]
  · rw [if_neg hid] at hrow
    exact ⟨row, hrow, rfl, rfl⟩

/-- One statement of a start that holds a claim. -/
theorem JobCall.Stage.next {claim : Id} {q : Handler Unit} {r : ScheduledJobRun}
    (h : c.Stage message claim q r) (hr : s.find? .scheduledJobRun claim = some r) :
    ∃ r' : ScheduledJobRun, r'.key = r.key ∧ r'.claimedByProcessId = r.claimedByProcessId ∧
      s.SetsClaim claim r' (q.next s).2 ∧ c.Stage message claim (q.next s).1 r' := by
  cases h with
  | @working p _ hp hstatus =>
    cases p with
    | stmt lab act k =>
      have hstep := hp.next s
      exact ⟨r, rfl, rfl, .of_agree hr hstep.2, .working hstep.1 hstatus⟩
    | done res =>
      cases res with
      | ok u =>
        rw [c.next_working_ok message hr u]
        exact ⟨{ r with status := .completed, completedAt := some c.now }, rfl, rfl,
          .modify hr _, .completed rfl⟩
      | error err =>
        rw [c.next_working_error message hr err]
        exact ⟨{ r with status := .failed, completedAt := some c.now,
                        error := some (message err) }, rfl, rfl, .modify hr _, .failed rfl rfl⟩
  | completed hstatus => exact ⟨r, rfl, rfl, .of_agree hr (.refl s), .completed hstatus⟩
  | failed hstatus herror => exact ⟨r, rfl, rfl, .of_agree hr (.refl s), .failed hstatus herror⟩

end Steps

/-! ## Any number of starts -/

/-- A start of a job, or something else that leaves the claims alone. -/
inductive SchedulerCall
  | job (c : JobCall)
  | other (p : Handler Unit) (quiet : Quiet [.scheduledJobRun] p)

def SchedulerCall.handler (message : Failure → String) : SchedulerCall → Handler Unit
  | job c => c.handler message
  | other p _ => p

section Pool

variable {ι : Type} [DecidableEq ι] {message : Failure → String} {calls : ι → SchedulerCall}
  {claims : ι → Option Id} {c : Pool ι Access Db Failure Unit}

def schedulerPool (message : Failure → String) (calls : ι → SchedulerCall) (s : Db) :
    Pool ι Access Db Failure Unit := ⟨fun i => (calls i).handler message, s⟩

/-- Where a thread stands: a start has not made its first statement, or has stopped without the
claim, or holds the claim that is noted for it. -/
inductive SchedulerCall.Stands (message : Failure → String) (s : Db) :
    SchedulerCall → Option Id → Handler Unit → Prop
  | waiting (job : JobCall) : Stands message s (.job job) none (job.handler message)
  | skipped (job : JobCall) : Stands message s (.job job) none (.done (.ok ()))
  | holding {job : JobCall} {claim : Id} {q : Handler Unit} {r : ScheduledJobRun}
      (hr : s.find? .scheduledJobRun claim = some r) (hkey : r.key = job.key)
      (hprocess : r.claimedByProcessId = job.processId) (h : job.Stage message claim q r) :
      Stands message s (.job job) (some claim) q
  | other {p q : Handler Unit} {quiet : Quiet [.scheduledJobRun] p}
      (h : Quiet [.scheduledJobRun] q) : Stands message s (.other p quiet) none q

/-- A claim belongs to one start, and there is one claim for a job and a day. -/
structure ClaimsHold (message : Failure → String) (calls : ι → SchedulerCall)
    (claims : ι → Option Id) (c : Pool ι Access Db Failure Unit) : Prop where
  stands : ∀ i, (calls i).Stands message c.state (claims i) (c.threads i)
  owner : ∀ i j claim, claims i = some claim → claims j = some claim → i = j
  unique : c.state.JobRunsUnique

/-- A thread stands where it stood, if its claim is still as it was. -/
theorem SchedulerCall.Stands.of_kept {s t : Db} {call : SchedulerCall} {claim : Option Id}
    {q : Handler Unit} (h : call.Stands message s claim q)
    (hkept : ∀ id ∈ claim, t.find? .scheduledJobRun id = s.find? .scheduledJobRun id) :
    call.Stands message t claim q := by
  cases h with
  | waiting job => exact .waiting job
  | skipped job => exact .skipped job
  | @holding job id q r hr hkey hprocess hstage =>
    exact .holding ((hkept id rfl).trans hr) hkey hprocess hstage
  | other hq => exact .other hq

/-- One thread makes a statement, and the claims of the others stay as they are. -/
theorem ClaimsHold.of_next {claims' : ι → Option Id} (h : ClaimsHold message calls claims c) {i : ι}
    (hi : (calls i).Stands message ((c.threads i).next c.state).2 (claims' i)
      ((c.threads i).next c.state).1)
    (hclaims : ∀ j, j ≠ i → claims' j = claims j)
    (hkept : ∀ j, j ≠ i → ∀ id ∈ claims j, ((c.threads i).next c.state).2.find? .scheduledJobRun id =
      c.state.find? .scheduledJobRun id)
    (howner : ∀ j k claim, claims' j = some claim → claims' k = some claim → j = k)
    (hunique : ((c.threads i).next c.state).2.JobRunsUnique) :
    ClaimsHold message calls claims' (c.step i) := by
  rw [Pool.step_eq_next]
  refine ⟨fun j => ?_, howner, hunique⟩
  by_cases hj : j = i
  · rw [hj]
    show (calls i).Stands message _ _ (Function.update c.threads i _ i)
    rw [Function.update_self]
    exact hi
  · show (calls j).Stands message _ _ (Function.update c.threads i _ j)
    rw [Function.update_of_ne hj, hclaims j hj]
    exact (h.stands j).of_kept (hkept j hj)

omit [DecidableEq ι] in
/-- The row of a claim is there. -/
theorem ClaimsHold.find? (h : ClaimsHold message calls claims c) {i : ι} {claim : Id}
    (hi : claims i = some claim) : ∃ r, c.state.find? .scheduledJobRun claim = some r := by
  have hstands := h.stands i
  rw [hi] at hstands
  generalize calls i = call at hstands
  cases hstands with
  | holding hr _ _ _ => exact ⟨_, hr⟩

/-- A start makes its first statement while the row of its job and day is not there. -/
def GetsClaim (message : Failure → String) (calls : ι → SchedulerCall)
    (c : Pool ι Access Db Failure Unit) (i : ι) : Prop :=
  ∃ job, calls i = .job job ∧ c.threads i = job.handler message ∧
    ¬ c.state.Claimed job.key = true

/-- A start that gets the claim. -/
theorem ClaimsHold.claim (h : ClaimsHold message calls claims c) {i : ι} {job : JobCall}
    (hcall : calls i = .job job) (hwait : c.threads i = job.handler message)
    (hfree : ¬ c.state.Claimed job.key = true) :
    ClaimsHold message calls
      (Function.update claims i (some (c.state.nextId .scheduledJobRun))) (c.step i) := by
  have hnext : (c.threads i).next c.state =
      (job.working message (c.state.nextId .scheduledJobRun) job.fn,
        c.state.insert .scheduledJobRun job.row) := by
    rw [hwait, job.next_handler, if_neg hfree]
  have hnew : ∀ j claim, claims j = some claim → claim ≠ c.state.nextId .scheduledJobRun := by
    intro j claim hj heq
    obtain ⟨r, hr⟩ := h.find? hj
    have hnone : c.state.find? .scheduledJobRun (c.state.nextId .scheduledJobRun) = none :=
      OrderedMap.get?_nextKey _
    rw [heq, hnone] at hr
    exact absurd hr nofun
  apply h.of_next
  · rw [hnext, Function.update_self, hcall]
    refine .holding (r := job.row) ?_ rfl rfl (.working job.quiet rfl)
    rw [Db.find?_insert, if_pos rfl]
  · exact fun j hj => Function.update_of_ne hj _ _
  · intro j _ id hid
    rw [hnext, Db.find?_insert, if_neg (hnew j id hid)]
  · intro j k claim hj hk
    by_cases hji : j = i
    · by_cases hki : k = i
      · rw [hji, hki]
      · rw [hji, Function.update_self] at hj
        rw [Function.update_of_ne hki] at hk
        exact absurd (Option.some.inj hj).symm (hnew k claim hk)
    · rw [Function.update_of_ne hji] at hj
      by_cases hki : k = i
      · rw [hki, Function.update_self] at hk
        exact absurd (Option.some.inj hk).symm (hnew j claim hj)
      · rw [Function.update_of_ne hki] at hk
        exact h.owner j k claim hj hk
  · rw [hnext]
    apply h.unique.insert
    intro _ id row hrow _
    exact Db.key_ne_of_not_claimed (Bool.eq_false_iff.mpr hfree) hrow

/-- Any other statement. -/
theorem ClaimsHold.step (h : ClaimsHold message calls claims c) {i : ι}
    (hi : ¬ GetsClaim message calls c i) : ClaimsHold message calls claims (c.step i) := by
  have hstands := h.stands i
  generalize hcall : calls i = call at hstands
  generalize hclaim : claims i = claim at hstands
  generalize hq : c.threads i = q at hstands
  cases hstands with
  | waiting job =>
    have hclaimed : c.state.Claimed job.key = true := by
      by_contra hfree
      exact hi ⟨job, hcall, hq, hfree⟩
    have hnext : (c.threads i).next c.state = (.done (.ok ()), c.state) := by
      rw [hq, job.next_handler, if_pos hclaimed]
    apply h.of_next
    · rw [hnext, hcall, hclaim]
      exact .skipped job
    · exact fun _ _ => rfl
    · exact fun _ _ id _ => by rw [hnext]
    · exact h.owner
    · rw [hnext]
      exact h.unique
  | skipped job =>
    rw [Pool.step_done hq]
    exact h
  | @holding job id q r hr hkey hprocess hstage =>
    obtain ⟨r', hkey', hprocess', hsets, hstage'⟩ := hstage.next hr
    rw [← hq] at hsets hstage'
    apply h.of_next
    · rw [hcall, hclaim]
      refine .holding ((hsets id).trans (if_pos rfl)) (hkey'.trans hkey) ?_ hstage'
      exact hprocess'.trans hprocess
    · exact fun _ _ => rfl
    · intro j hj id' hid'
      rw [hsets id', if_neg]
      intro heq
      rw [heq] at hid'
      exact hj (h.owner j i id hid' hclaim)
    · exact h.owner
    · exact hsets.unique hr hkey' h.unique
  | @other p q quiet hquiet =>
    obtain ⟨hquiet', hagree⟩ := hquiet.next c.state
    rw [← hq] at hquiet' hagree
    apply h.of_next
    · rw [hcall, hclaim]
      exact .other hquiet'
    · exact fun _ _ => rfl
    · exact fun _ _ id _ => hagree.find? (List.mem_singleton_self _) id
    · exact h.owner
    · exact h.unique.of_table_eq (hagree _ (List.mem_singleton_self _))

/-! ## Starts without the claim -/

/-- Two starts that differ in nothing but the job itself. -/
def SchedulerCall.SameStart (a b : SchedulerCall) : Prop :=
  ∃ job fn quiet, a = .job job ∧ b = .job { job with fn := fn, quiet := quiet }

/-- The pools differ in starts that have not made their first statement, and there in the job. -/
structure Mirrors (message : Failure → String) (calls calls' : ι → SchedulerCall)
    (c c' : Pool ι Access Db Failure Unit) : Prop where
  state : c'.state = c.state
  threads : ∀ i, c'.threads i = c.threads i ∨ (calls i).SameStart (calls' i) ∧
    c.threads i = (calls i).handler message ∧ c'.threads i = (calls' i).handler message

/-- Both pools make the same statement, unless one of them gets the claim for another job. -/
theorem Mirrors.step {calls' : ι → SchedulerCall} {c' : Pool ι Access Db Failure Unit}
    (h : Mirrors message calls calls' c c') {i : ι}
    (hi : GetsClaim message calls c i → calls' i = calls i) :
    Mirrors message calls calls' (c.step i) (c'.step i) := by
  have hnext : ((c'.threads i).next c'.state) = (c.threads i).next c.state := by
    rcases h.threads i with hsame | ⟨⟨job, fn, quiet, hcall, hcall'⟩, hwait, hwait'⟩
    · rw [hsame, h.state]
    · by_cases hclaimed : c.state.Claimed job.key = true
      · rw [hwait, hwait', h.state, hcall, hcall']
        show (JobCall.handler _ _).next _ = (JobCall.handler _ _).next _
        rw [JobCall.next_handler, JobCall.next_handler, if_pos hclaimed]
        exact if_pos hclaimed
      · have hgets : GetsClaim message calls c i := by
          refine ⟨job, hcall, ?_, hclaimed⟩
          rw [hwait, hcall]
          rfl
        rw [hwait, hwait', h.state, hi hgets]
  rw [Pool.step_eq_next, Pool.step_eq_next, hnext]
  refine ⟨rfl, fun j => ?_⟩
  by_cases hj : j = i
  · rw [hj]
    left
    show Function.update _ i _ i = Function.update _ i _ i
    rw [Function.update_self, Function.update_self]
  · show Function.update _ i _ j = Function.update _ i _ j ∨
      _ ∧ Function.update _ i _ j = _ ∧ Function.update _ i _ j = _
    rw [Function.update_of_ne hj, Function.update_of_ne hj]
    exact h.threads j

/-- The same calls, except for the jobs of starts that hold no claim. -/
def SameButJobs (claims : ι → Option Id) (calls calls' : ι → SchedulerCall) : Prop :=
  ∀ i, calls' i = calls i ∨ claims i = none ∧ (calls i).SameStart (calls' i)

/-- The claims of a run, and that it goes the same way whatever the other jobs are. -/
theorem exists_claims {s : Db} (hs : s.JobRunsUnique) (sched : List ι) :
    ∃ claims, ClaimsHold message calls claims ((schedulerPool message calls s).run sched) ∧
      ∀ calls', SameButJobs claims calls calls' → Mirrors message calls calls'
        ((schedulerPool message calls s).run sched) ((schedulerPool message calls' s).run sched) := by
  induction sched using List.reverseRecOn with
  | nil =>
    refine ⟨fun _ => none, ⟨fun i => ?_, fun _ _ _ h => absurd h nofun, hs⟩, ?_⟩
    · show (calls i).Stands message s none ((calls i).handler message)
      cases calls i with
      | job job => exact .waiting job
      | other p quiet => exact .other quiet
    · refine fun calls' hcalls => ⟨rfl, fun i => ?_⟩
      rcases hcalls i with hsame | ⟨-, hstart⟩
      · left
        show (calls' i).handler message = (calls i).handler message
        rw [hsame]
      · exact .inr ⟨hstart, rfl, rfl⟩
  | append_singleton is i ih =>
    obtain ⟨claims, hhold, hmirrors⟩ := ih
    rw [Pool.run_append, Pool.run_cons, Pool.run_nil]
    by_cases hgets : GetsClaim message calls ((schedulerPool message calls s).run is) i
    · obtain ⟨job, hcall, hwait, hfree⟩ := hgets
      refine ⟨_, hhold.claim hcall hwait hfree, fun calls' hcalls => ?_⟩
      have hi : calls' i = calls i := by
        rcases hcalls i with hsame | ⟨hnone, -⟩
        · exact hsame
        · rw [Function.update_self] at hnone
          exact absurd hnone nofun
      rw [Pool.run_append, Pool.run_cons, Pool.run_nil]
      refine (hmirrors calls' fun j => ?_).step fun _ => hi
      by_cases hj : j = i
      · rw [hj]
        exact .inl hi
      · have hj' := hcalls j
        rwa [Function.update_of_ne hj] at hj'
    · refine ⟨claims, hhold.step hgets, fun calls' hcalls => ?_⟩
      rw [Pool.run_append, Pool.run_cons, Pool.run_nil]
      exact (hmirrors calls' hcalls).step fun h => absurd h hgets

/-! ## One start a day -/

/-- The row says whether the start is at its job, is done with it or has failed. -/
def ScheduledJobRun.Tells (message : Failure → String) (r : ScheduledJobRun) : Handler Unit → Prop
  | .done (.ok _) => r.status = .completed
  | .done (.error err) => r.status = .failed ∧ r.error = some (message err)
  | .stmt _ _ _ => r.status = .claimed

theorem JobCall.Stage.tells {job : JobCall} {claim : Id} {q : Handler Unit} {r : ScheduledJobRun}
    (h : job.Stage message claim q r) : r.Tells message q := by
  cases h with
  | @working p _ hp hstatus =>
    cases p with
    | stmt lab act k => exact hstatus
    | done result =>
      cases result with
      | ok u => exact hstatus
      | error err => exact hstatus
  | completed hstatus => exact hstatus
  | failed hstatus herror => exact ⟨hstatus, herror⟩

/-- The claims of a run: one start for a job and a day, whose row names the process and tells how
far it is, and the others have not begun or have stopped. -/
structure RunsOnce (message : Failure → String) (calls : ι → SchedulerCall)
    (claims : ι → Option Id) (c : Pool ι Access Db Failure Unit) : Prop where
  once : ∀ i j job job', calls i = .job job → calls j = .job job' → job.key = job'.key →
    (claims i).isSome → (claims j).isSome → i = j
  row : ∀ i job claim, calls i = .job job → claims i = some claim →
    ∃ r, c.state.find? .scheduledJobRun claim = some r ∧ r.key = job.key ∧
      r.claimedByProcessId = job.processId ∧ r.Tells message (c.threads i)
  without : ∀ i job, calls i = .job job → claims i = none →
    c.threads i = job.handler message ∨ c.threads i = .done (.ok ())

omit [DecidableEq ι] in
theorem ClaimsHold.runsOnce (h : ClaimsHold message calls claims c) :
    RunsOnce message calls claims c := by
  have hrow : ∀ i job claim, calls i = .job job → claims i = some claim →
      ∃ r, c.state.find? .scheduledJobRun claim = some r ∧ r.key = job.key ∧
        r.claimedByProcessId = job.processId ∧ r.Tells message (c.threads i) := by
    intro i job claim hcall hclaim
    have hstands := h.stands i
    rw [hcall, hclaim] at hstands
    cases hstands with
    | holding hr hkey hprocess hstage => exact ⟨_, hr, hkey, hprocess, hstage.tells⟩
  refine ⟨?_, hrow, ?_⟩
  · intro i j job job' hcall hcall' hkey hi hj
    obtain ⟨claim, hclaim⟩ := Option.isSome_iff_exists.mp hi
    obtain ⟨claim', hclaim'⟩ := Option.isSome_iff_exists.mp hj
    obtain ⟨r, hr, hrkey, -⟩ := hrow i job claim hcall hclaim
    obtain ⟨r', hr', hrkey', -⟩ := hrow j job' claim' hcall' hclaim'
    have hsame := h.unique claim r claim' r' hr hr' rfl rfl
      (hrkey.trans (hkey.trans hrkey'.symm))
    rw [← hsame] at hclaim'
    exact h.owner i j claim hclaim hclaim'
  · intro i job hcall hclaim
    have hstands := h.stands i
    rw [hcall, hclaim] at hstands
    generalize c.threads i = q at hstands
    cases hstands with
    | waiting => exact .inl rfl
    | skipped => exact .inr rfl

end Pool

theorem quiet_runArrearsCheck (today : DateTime) :
    Quiet [.scheduledJobRun] (runArrearsCheck today) := by
  refine (Quiet.query _).bind fun loans => Quiet.forEach fun loan _ => ?_
  unfold updateArrears
  dsimp only
  split
  · exact Quiet.update_end (by decide) _ _
  · exact Quiet.update_end (by decide) _ _

/-- Two servers start the arrears check of one night. -/
def twoServers : Fin 2 → SchedulerCall
  | 0 => .job ⟨"ARREARS_CHECK", 100, "first", runArrearsCheck 100, quiet_runArrearsCheck 100⟩
  | 1 => .job ⟨"ARREARS_CHECK", 200, "second", runArrearsCheck 200, quiet_runArrearsCheck 200⟩

end NexusEfos
