/-
One live salary structure for each employee.

A structure becomes ACTIVE only in the transaction of an approval, which supersedes the
structure that was ACTIVE before it.  How many structures of an employee are pending, and in
which order they are resolved, does not matter.  So the structures that a payroll is worked out
from are those of different employees, and what the call has read stays good, since its run and
the entries are created from it in one statement.
-/
import NexusEfos.Operations.PayrollProcessing
import NexusEfos.Operations.PayrollRuns
import NexusEfos.Schema.LiveRows

namespace NexusEfos

open Proc

/-! ## What is to hold -/

def EmployeeSalaryStructure.isActive (e : EmployeeSalaryStructure) : Bool :=
  decide (e.status = .active)

/-- Whose structure it is. -/
def EmployeeSalaryStructure.owner (e : EmployeeSalaryStructure) : Id × Id :=
  (e.institutionId, e.employeeId)

/-- Every employee of an institution has at most one ACTIVE salary structure. -/
def Db.OneActiveSalary (s : Db) : Prop :=
  s.AtMostOne .employeeSalaryStructure EmployeeSalaryStructure.isActive
    EmployeeSalaryStructure.owner

/-- No payroll run has two entries for one employee. -/
def Db.OneEntryPerRun (s : Db) : Prop :=
  s.AtMostOne .payrollEntry (fun _ => true) fun e => (e.payrollRunId, e.employeeId)

/-- The entries of payroll runs. -/
structure Db.EntriesSound (s : Db) : Prop where
  once : s.OneEntryPerRun
  hasRun : ∀ id e, s.find? .payrollEntry id = some e →
    (s.find? .payrollRun e.payrollRunId).isSome = true

/-- Nothing happens to the entries, and no run disappears. -/
def Db.KeepsEntries (s t : Db) : Prop :=
  s.Agree [.payrollEntry] t ∧ s.KeepsRows .payrollRun (fun _ _ => True) t

theorem Db.KeepsEntries.of_agree {s t : Db} (h : s.Agree [.payrollEntry, .payrollRun] t) :
    s.KeepsEntries t :=
  ⟨h.mono (by decide), .of_table_eq (fun _ => trivial) (h _ (by decide))⟩

theorem Db.EntriesSound.keep {s t : Db} (h : s.EntriesSound) (hkept : s.KeepsEntries t) :
    t.EntriesSound where
  once := h.once.of_table_eq (hkept.1 _ (by decide))
  hasRun := by
    intro id e he
    rw [hkept.1.find? (by decide)] at he
    obtain ⟨run, hrun⟩ := Option.isSome_iff_exists.mp (h.hasRun id e he)
    obtain ⟨run', hrun', -⟩ := hkept.2 _ run hrun
    rw [hrun']
    rfl

/-! ## A structure is put in force -/

/-- The structure that is approved takes the place of the one that was ACTIVE. -/
theorem run_changeSalaryStructure_oneActive {s t : Db} {approvedById targetId : Id} {u : Unit}
    (hs : s.OneActiveSalary)
    (h : (changeSalaryStructure approvedById targetId).run s = (.ok u, t)) :
    t.OneActiveSalary := by
  obtain ⟨e, he, h₁⟩ := run_findUniqueOrThrow_bind_eq_ok h
  obtain ⟨n, s₁, hsuperseded, h₂⟩ := run_bind_eq_ok h₁
  obtain ⟨e', he', h₃⟩ := run_updateAs_bind_eq_ok h₂
  obtain rfl := (Prod.mk.inj h₃).2
  have hbefore := fun id => Db.find?_modifyAll s .employeeSalaryStructure
    (fun (_ : Id) (e' : EmployeeSalaryStructure) => if (decide (e'.employeeId = e.employeeId) &&
      decide (e'.institutionId = e.institutionId) && decide (e'.status = .active)) = true then
        { e' with status := .superseded } else e') id
  rw [← run_updateMany_eq_ok hsuperseded] at hbefore
  have howner : e'.owner = e.owner := by
    rw [hbefore, he, Option.map_some] at he'
    rw [← Option.some.inj he']
    split <;> rfl
  have hnow := fun id => Db.find?_modify s₁ .employeeSalaryStructure targetId id
    fun e => { e with status := .active, approvedById := some approvedById }
  apply hs.switch targetId { e' with status := .active, approvedById := some approvedById }
  · rw [hnow, if_pos rfl, he']
    rfl
  · intro id row hid hrow hlive
    rw [hnow, if_neg hid, hbefore] at hrow
    obtain ⟨row₀, hrow₀, hrow⟩ := Option.map_eq_some_iff.mp hrow
    -- A structure of the same employee that was ACTIVE is not ACTIVE any more.
    by_cases hsame : row₀.employeeId = e.employeeId ∧ row₀.institutionId = e.institutionId ∧
        row₀.status = .active
    · obtain ⟨hemployee, hinstitution, hactive⟩ := hsame
      rw [if_pos (by simp [hemployee, hinstitution, hactive])] at hrow
      rw [← hrow] at hlive
      exact absurd (of_decide_eq_true hlive) nofun
    · rw [if_neg (by simpa [and_assoc] using hsame)] at hrow
      rw [hrow] at hrow₀
      refine ⟨?_, row, hrow₀, hlive, rfl⟩
      intro howner'
      obtain ⟨hinstitution, hemployee⟩ := Prod.mk.inj (howner'.trans howner)
      rw [hrow] at hsame
      exact hsame ⟨hemployee, hinstitution, of_decide_eq_true hlive⟩

/-- A structure gets a status other than ACTIVE. -/
theorem Db.OneActiveSalary.setStatus {s : Db} (hs : s.OneActiveSalary) (id : Id)
    {status : SalaryStructureStatus} (hstatus : status ≠ .active) :
    (s.modify .employeeSalaryStructure id fun e => { e with status }).OneActiveSalary := by
  apply hs.modify
  intro e hactive
  exact absurd (of_decide_eq_true hactive) hstatus

/-- A new structure is a draft. -/
theorem Db.OneActiveSalary.insert_draft {s : Db} (hs : s.OneActiveSalary)
    {e : EmployeeSalaryStructure} (he : e.status = .draft) :
    (s.insert .employeeSalaryStructure e).OneActiveSalary := by
  apply hs.insert
  intro hactive
  have hstatus : e.status = .active := of_decide_eq_true hactive
  rw [he] at hstatus
  exact absurd hstatus nofun

/-- The transaction of an approval or a rejection. -/
theorem ResolveCall.run_inTx_oneActive {call : ResolveCall} {existing : ApprovalRequest}
    {s t : Db} {u : Unit} (hs : s.OneActiveSalary)
    (h : (call.inTx existing).run s = (.ok u, t)) : t.OneActiveSalary := by
  obtain ⟨request, v, -, -, heffect, ht⟩ := run_inTx_effect h
  have hlog : t.table .employeeSalaryStructure = v.table .employeeSalaryStructure := by
    rw [ht, Db.table_insert_of_ne (by decide)]
  have hclaim : (s.modify .approvalRequest call.requestId call.resolve).OneActiveSalary :=
    hs.of_table_eq (Db.table_modify_of_ne (by decide) _ _ _)
  apply Db.AtMostOne.of_table_eq _ hlog
  by_cases htype : existing.type = .salaryStructureChange
  · unfold effect at heffect
    cases hdecision : call.decision with
    | approve =>
      simp only [hdecision, applyApproval, htype] at heffect
      exact run_changeSalaryStructure_oneActive hclaim heffect
    | reject =>
      simp only [hdecision, applyRejection, htype] at heffect
      obtain ⟨e, -, hend⟩ := run_updateAs_bind_eq_ok heffect
      rw [← (Prod.mk.inj hend).2]
      exact hclaim.setStatus _ (by decide)
  · have hwrites : ∀ m ∈ approvalWrites existing.type, m ∉ [Model.employeeSalaryStructure] := by
      cases htype' : existing.type
      case salaryStructureChange => exact absurd htype' htype
      all_goals decide
    have hkept := (call.quiet_effect hwrites).run
      (s.modify .approvalRequest call.requestId call.resolve)
    rw [heffect] at hkept
    exact hclaim.of_table_eq (hkept _ (by decide))

theorem ResolveCall.run_inTx_keepsEntries {call : ResolveCall} {existing : ApprovalRequest}
    {s t : Db} {u : Unit} (h : (call.inTx existing).run s = (.ok u, t)) : s.KeepsEntries t := by
  constructor
  · have hwrites : ∀ m ∈ approvalWrites existing.type, m ∉ [Model.payrollEntry] := by
      cases existing.type <;> decide
    obtain ⟨request, v, -, -, heffect, ht⟩ := run_inTx_effect h
    have hkept := (call.quiet_effect hwrites).run
      (s.modify .approvalRequest call.requestId call.resolve)
    rw [heffect] at hkept
    rw [ht]
    exact ((Db.Agree.modify (by decide) _ _ _).trans hkept).trans (Db.Agree.insert (by decide) _ _)
  · obtain ⟨lab, hlab⟩ : ∃ lab : Access, lab.resolves =
        some ⟨call.requestId, existing, call.decision = .approve, call.now⟩ :=
      ⟨{ resolves := some ⟨call.requestId, existing, call.decision = .approve, call.now⟩ }, rfl⟩
    have hstep : PayrollStep lab.payrollAct s t := ResolveCall.run_inTx_payrollStep hlab h
    intro id run hrun
    obtain ⟨run', hrun', -⟩ := hstep.moves id run hrun
    exact ⟨run', hrun', trivial⟩

/-! ## A run is created -/

/-- The entries of a run, for employees that have none in it. -/
theorem Db.OneEntryPerRun.insertAll {runId : Id} {lines : List PayrollLine} {s : Db}
    (hs : s.OneEntryPerRun) (hnodup : (lines.map PayrollLine.employeeId).Nodup)
    (hfree : ∀ id e, s.find? .payrollEntry id = some e → e.payrollRunId = runId →
      e.employeeId ∉ lines.map PayrollLine.employeeId) :
    (lines.foldl (fun t l => t.insert .payrollEntry (l.entry runId)) s).OneEntryPerRun := by
  induction lines generalizing s with
  | nil => exact hs
  | cons l ls ih =>
    rw [List.map_cons, List.nodup_cons] at hnodup
    apply ih
    · apply hs.insert
      intro _ id e he _ hkey
      obtain ⟨hrun, hemployee⟩ := Prod.mk.inj hkey
      exact hfree id e he hrun (hemployee ▸ List.mem_cons_self ..)
    · exact hnodup.2
    · intro id e he hrun
      rw [Db.find?_insert] at he
      split at he
      · rw [← Option.some.inj he]
        exact hnodup.1
      · exact fun hmem => hfree id e he hrun (List.mem_cons_of_mem _ hmem)

/-- The rows of the other tables. -/
theorem find?_insertEntries {runId : Id} {m : Model} (hm : m ≠ .payrollEntry)
    (lines : List PayrollLine) (s : Db) (id : Id) :
    (lines.foldl (fun t l => t.insert .payrollEntry (l.entry runId)) s).find? m id =
      s.find? m id := by
  induction lines generalizing s with
  | nil => rfl
  | cons l ls ih =>
    rw [List.foldl_cons, ih]
    exact Db.find?_insert_of_ne hm _ _ _

/-- An entry was there before, or is one of the run. -/
theorem mem_insertEntries {runId : Id} {lines : List PayrollLine} {s : Db} {id : Id}
    {e : PayrollEntry}
    (h : (lines.foldl (fun t l => t.insert .payrollEntry (l.entry runId)) s).find? .payrollEntry id =
      some e) : s.find? .payrollEntry id = some e ∨
        e.payrollRunId = runId ∧ e.employeeId ∈ lines.map PayrollLine.employeeId := by
  induction lines generalizing s with
  | nil => exact .inl h
  | cons l ls ih =>
    rcases ih h with hbefore | ⟨hrun, hemployee⟩
    · rw [Db.find?_insert] at hbefore
      split at hbefore
      · rw [← Option.some.inj hbefore]
        exact .inr ⟨rfl, List.mem_cons_self ..⟩
      · exact .inl hbefore
    · exact .inr ⟨hrun, List.mem_cons_of_mem _ hemployee⟩

theorem Db.EntriesSound.createRun {s : Db} (h : s.EntriesSound) (run : PayrollRun)
    {lines : List PayrollLine} (hnodup : (lines.map PayrollLine.employeeId).Nodup) :
    (lines.foldl (fun t l => t.insert .payrollEntry (l.entry (s.nextId .payrollRun)))
      (s.insert .payrollRun run)).EntriesSound := by
  have hfresh : s.find? .payrollRun (s.nextId .payrollRun) = none := OrderedMap.get?_nextKey _
  have hentries : ∀ id, (s.insert .payrollRun run).find? .payrollEntry id =
      s.find? .payrollEntry id := Db.find?_insert_of_ne (by decide) _ _
  constructor
  · apply OneEntryPerRun.insertAll _ hnodup
    · intro id e he hrun
      rw [hentries] at he
      have hthere := h.hasRun id e he
      rw [hrun, hfresh] at hthere
      exact absurd hthere nofun
    · exact h.once.of_table_eq (Db.table_insert_of_ne (by decide) _ _)
  · intro id e he
    rw [find?_insertEntries (by decide), Db.find?_insert]
    split
    · rfl
    · rename_i hne
      rcases mem_insertEntries he with hbefore | ⟨hnew, -⟩
      · rw [hentries] at hbefore
        exact h.hasRun id e hbefore
      · exact absurd hnew hne

/-! ## The calls -/

/-- A process may learn whose structures are ACTIVE, and creates a run for no other employees. -/
def salaryProtocol : Protocol Access Db (Option (List Id)) where
  rely := fun _ _ => True
  guar := fun _ s known t known' => (s.OneActiveSalary → t.OneActiveSalary) ∧
    (s.EntriesSound → (∀ ids, known = some ids → ids.Nodup) → t.EntriesSound) ∧
    ∀ ids, known' = some ids → known = some ids ∨ (s.OneActiveSalary → ids.Nodup)
  refl := fun _ => trivial
  trans := fun _ _ => trivial

theorem salaryProtocol_keeps {lab : Access} {s t : Db} (known : Option (List Id))
    (hsalary : s.OneActiveSalary → t.OneActiveSalary) (hentries : s.KeepsEntries t) :
    salaryProtocol.rely s t ∧ salaryProtocol.guar lab s known t known :=
  ⟨trivial, hsalary, fun h _ => h.keep hentries, fun _ hknown => .inl hknown⟩

theorem salaryProtocol_watches :
    salaryProtocol.Watches [.employeeSalaryStructure, .payrollEntry, .payrollRun] := by
  intro lab s t known hagree
  apply salaryProtocol_keeps
  · exact fun h => h.of_table_eq (hagree _ (by decide))
  · exact .of_agree (hagree.mono (by decide))

inductive SalaryCall
  | create (auth : Auth) (body : SalaryStructureRequest)
  | requestApproval (auth : Auth) (structureId : Id)
  | resolve (call : ResolveCall)
  | process (auth : Auth) (now : DateTime) (periodId : Id)
  | other (p : Handler Unit) (h : p.Every fun s t =>
      s.Agree [.employeeSalaryStructure] t ∧ s.KeepsEntries t)

def SalaryCall.handler : SalaryCall → Handler Unit
  | create auth body => do let _ ← createSalaryStructure auth body
  | requestApproval auth structureId => requestSalaryApproval auth structureId
  | resolve call => call.handler
  | process auth now periodId => do let _ ← processPayroll auth now periodId
  | other p _ => p

section Follow

variable {s : Db} {known : Option (List Id)}

/-- Keeping to the protocol, whatever comes out. -/
abbrev FollowsSalary {α : Type} (p : Handler α) (s : Db) (known : Option (List Id)) : Prop :=
  p.Follows salaryProtocol (fun _ _ _ => True) s known

theorem createSalaryStructure_follows (auth : Auth) (body : SalaryStructureRequest) :
    FollowsSalary (createSalaryStructure auth body) s known := by
  have hW := salaryProtocol_watches
  refine Follows.require (fun _ => ?_) fun _ => trivial
  refine hW.quiet ?_ (fun t grade _ => ?_) fun _ _ => trivial
  · unfold findSalaryGrade
    split
    · exact Quiet.query _
    · exact Quiet.pure _
  · refine Follows.require (fun _ => ?_) fun _ => trivial
    refine Follows.require (fun _ => ?_) fun _ => trivial
    intro t' _
    refine ⟨known, trivial, ⟨?_, ?_, fun _ h => .inl h⟩, ?_⟩
    · exact fun h => h.insert_draft rfl
    · exact fun h _ => h.keep (.of_agree (Db.Agree.insert (by decide) t' _))
    · refine hW.quiet_end ?_ fun _ _ _ => trivial
      exact (Quiet.create (by decide) _).bind fun _ => Quiet.pure _

theorem requestSalaryApproval_follows (auth : Auth) (structureId : Id) :
    FollowsSalary (requestSalaryApproval auth structureId) s known := by
  have hW := salaryProtocol_watches
  refine hW.query fun t _ => Follows.orFail (fun e _ => ?_) fun _ => trivial
  refine Follows.require (fun _ => ?_) fun _ => trivial
  refine hW.quiet (Quiet.create (by decide) _) (fun t _ _ => ?_) fun _ _ => trivial
  refine hW.updateAs ?_ fun _ => trivial
  intro t' _ _ _
  refine ⟨known, trivial, ⟨?_, ?_, fun _ h => .inl h⟩, trivial⟩
  · exact fun h => h.setStatus structureId (by decide)
  · exact fun h _ => h.keep (.of_agree (Db.Agree.modify (by decide) t' _ _))

theorem ResolveCall.followsSalary (call : ResolveCall) : FollowsSalary call.handler s known := by
  have hevery : call.handler.EveryStep fun _ s t =>
      (s.OneActiveSalary → t.OneActiveSalary) ∧ s.KeepsEntries t := by
    apply call.everyStep
    · exact fun _ s => ⟨id, .of_agree (.refl s)⟩
    · intro existing s t hrun
      exact ⟨fun h => run_inTx_oneActive h hrun, run_inTx_keepsEntries hrun⟩
  exact (Follows.of_everyStep (fun _ _ _ known h => salaryProtocol_keeps known h.1 h.2) hevery).imp
    fun _ _ _ _ => trivial

/-- The run of the employees that are known. -/
theorem createPayrollRun_follows {α : Type} (run : PayrollRun) (lines : List PayrollLine)
    {k : Id → Handler α} (hknown : known = some (lines.map PayrollLine.employeeId))
    (hk : ∀ id t, FollowsSalary (k id) t known) :
    FollowsSalary (createPayrollRun run lines >>= k) s known := by
  intro t _
  by_cases htaken : run.payrollPeriodId ∈
      (t.table .payrollRun).values.map PayrollRun.payrollPeriodId
  · simp only [if_pos htaken]
    obtain ⟨hrely, hguar⟩ := salaryProtocol_watches _ t t known (Db.Agree.refl t)
    exact ⟨known, hrely, hguar, trivial⟩
  · simp only [if_neg htaken]
    refine ⟨known, trivial, ⟨?_, ?_, fun _ h => .inl h⟩, hk _ _⟩
    · intro h
      have hsame : ∀ id, (lines.foldl (fun t' l =>
          t'.insert .payrollEntry (l.entry (t.nextId .payrollRun)))
            (t.insert .payrollRun run)).find? .employeeSalaryStructure id =
          t.find? .employeeSalaryStructure id := by
        intro id
        rw [find?_insertEntries (by decide), Db.find?_insert_of_ne (by decide)]
      apply h.of_liveBefore
      intro id e he hactive
      rw [hsame] at he
      exact ⟨e, he, hactive, rfl⟩
    · exact fun h hnodup => h.createRun run (hnodup _ hknown)

theorem processPayroll_follows (auth : Auth) (now : DateTime) (periodId : Id) :
    FollowsSalary (processPayroll auth now periodId) s none := by
  have hW := salaryProtocol_watches
  refine hW.query fun t _ => Follows.orFail (fun _ _ => ?_) fun _ => trivial
  refine hW.query fun t _ => Follows.require (fun _ => ?_) fun _ => trivial
  refine hW.query fun t _ => Follows.orFail (fun taxTable _ => ?_) fun _ => trivial
  refine hW.query fun t _ => Follows.orFail (fun found _ => ?_) fun _ => trivial
  obtain ⟨ssnitEmployee, ssnitEmployer, tier2⟩ := found
  -- The employees are those of the structures that this statement reads.
  intro t₁ _
  refine ⟨some (((t₁.table .employeeSalaryStructure).entries.filter fun e =>
    decide (e.2.institutionId = auth.institutionId ∧ e.2.status = .active)).map fun e =>
      e.2.employeeId), trivial, ⟨id, fun h _ => h, ?_⟩, ?_⟩
  · intro ids hids
    rw [← Option.some.inj hids]
    right
    intro h
    have hnodup := h.nodup_keys (p := fun e =>
      decide (e.2.institutionId = auth.institutionId ∧ e.2.status = .active))
      fun e _ he => decide_eq_true (of_decide_eq_true he).2
    apply List.Nodup.of_map (fun employeeId => (auth.institutionId, employeeId))
    rw [List.map_map]
    convert hnodup using 1
    apply List.map_congr_left
    intro e he
    have hinstitution := (of_decide_eq_true (List.mem_filter.mp he).2).1
    show (auth.institutionId, e.2.employeeId) = (e.2.institutionId, e.2.employeeId)
    rw [hinstitution]
  · refine hW.query fun t₂ _ => ?_
    refine createPayrollRun_follows _ _ ?_ fun run t₃ => ?_
    · simp [List.map_map, Function.comp_def, PayrollRates.line]
    · refine hW.updateAs ?_ fun _ => trivial
      intro t₄ _ _ _
      obtain ⟨hrely, hguar⟩ := hW {} t₄ (t₄.modify .payrollPeriod periodId _) _
        (Db.Agree.modify (m := .payrollPeriod) (by decide) t₄ _ _)
      refine ⟨_, hrely, hguar, ?_⟩
      refine hW.quiet_end ?_ fun _ _ _ => trivial
      exact (Quiet.create (by decide) _).bind fun _ => Quiet.pure _

theorem SalaryCall.follows (call : SalaryCall) : FollowsSalary call.handler s none := by
  cases call with
  | create auth body =>
    exact (createSalaryStructure_follows auth body).bind (fun _ _ _ _ => trivial)
      fun _ _ _ _ => trivial
  | requestApproval auth structureId => exact requestSalaryApproval_follows auth structureId
  | resolve call => exact ResolveCall.followsSalary call
  | process auth now periodId =>
    exact (processPayroll_follows auth now periodId).bind (fun _ _ _ _ => trivial)
      fun _ _ _ _ => trivial
  | other p h =>
    refine (Follows.of_every (fun _ t t' known hstep => ?_) h).imp fun _ _ _ _ => trivial
    exact salaryProtocol_keeps known (fun hone => hone.of_table_eq (hstep.1 _ (by decide))) hstep.2

end Follow

/-! ## Runs of the calls -/

section Runs

variable {ι : Type} [DecidableEq ι]

def salaryPool (calls : ι → SalaryCall) (s : Db) : Pool ι Access Db Failure Unit :=
  ⟨fun i => (calls i).handler, s⟩

/-- In every reachable state every employee of an institution has at most one ACTIVE salary
structure, and no payroll run has two entries for one employee. -/
theorem one_live_salary_structure (calls : ι → SalaryCall) (s : Db) (hactive : s.OneActiveSalary)
    (hentries : s.EntriesSound) (sched : List ι) :
    ((salaryPool calls s).run sched).state.OneActiveSalary ∧
      ((salaryPool calls s).run sched).state.OneEntryPerRun := by
  have hfollows : (salaryPool calls s).Follows salaryProtocol (fun _ _ => True) fun _ => none :=
    fun i => (calls i).follows
  have hallowed : (salaryPool calls s).AllowedAfter (fun _ _ _ => ([] : List Empty))
      (fun _ _ _ => True) [] sched := Pool.allowedAfter_true _ _ _
  have hinv := Pool.Follows.run_history
    (J := fun s (_ : List Empty) => s.OneActiveSalary ∧ s.EntriesSound)
    (K := fun known _ => ∀ ids, known = some ids → ids.Nodup) (fun _ _ _ h ids hids => h ids hids) ?_ hfollows
    ⟨hactive, hentries⟩ (fun _ _ h => absurd h nofun) hallowed
  · exact ⟨hinv.1, hinv.2.once⟩
  · intro lab s known t known' past hguar _ _ hstate hknown
    obtain ⟨hone, hsound, hlearns⟩ := hguar
    refine ⟨⟨hone hstate.1, hsound hstate.2 hknown⟩, ?_⟩
    intro ids hids
    rcases hlearns ids hids with hbefore | hread
    · exact hknown ids hbefore
    · exact hread hstate.1

end Runs

theorem Db.oneActiveSalary_empty : Db.empty.OneActiveSalary :=
  fun _ _ _ _ hrow => absurd hrow nofun

theorem Db.entriesSound_empty : Db.empty.EntriesSound :=
  ⟨fun _ _ _ _ hrow => absurd hrow nofun, fun _ _ he => absurd he nofun⟩

/-- Two structures of one employee, a request for each, and the approvals of both. -/
def salaryCalls : Fin 6 → SalaryCall
  | 0 | 1 => .create ⟨1, 1⟩ { employeeId := 7, basicSalary := 2000, effectiveDate := 0 }
  | 2 => .requestApproval ⟨1, 1⟩ 1
  | 3 => .requestApproval ⟨1, 1⟩ 2
  | 4 => .resolve { decision := .approve, auth := ⟨1, 2⟩, now := 5, requestId := 1 }
  | 5 => .resolve { decision := .approve, auth := ⟨1, 2⟩, now := 5, requestId := 2 }

theorem one_live_salary_structure_salaryCalls :
    let s := ((salaryPool salaryCalls Db.empty).run
      [0, 1, 0, 1, 2, 3, 2, 3, 2, 3, 4, 5, 5, 4]).state
    (s.table .employeeSalaryStructure).values.map EmployeeSalaryStructure.status =
      [.active, .superseded] ∧ s.OneActiveSalary :=
  ⟨by decide +kernel, (one_live_salary_structure salaryCalls Db.empty Db.oneActiveSalary_empty
    Db.entriesSound_empty [0, 1, 0, 1, 2, 3, 2, 3, 2, 3, 4, 5, 5, 4]).1⟩

end NexusEfos
