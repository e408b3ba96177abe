/-
How often a payroll run is posted and paid.

The approval of a run posts its accrual in the transaction that resolves the request, and does
not look at the run's status.  Marking a run as paid reads the run first, posts the settlement
then and sets the status last, with nothing around the three, and a reversal reads before it
writes too.  So an accrual or a settlement can be posted twice, and a reversed run can be
approved.  `payroll_posted_once` is about the runs in which this does not happen: an approval
takes effect on a run without an accrual that has not been reversed, and a mark-paid call posts
and enters its settlement with no other one in between.

The settlement is counted when its journal is written; its lines are applied after that, once.
-/
import NexusEfos.Approvals.ExactlyOnce
import NexusEfos.Approvals.LedgerEffects
import NexusEfos.Library.History
import NexusEfos.Operations.Payroll

namespace NexusEfos

open Proc

/-! ## What a statement does to a run -/

/-- A step in the accounting of a run. -/
inductive PayrollAct
  | approve (requestId runId : Id)
  | settle (runId : Id)
  | pay (runId : Id) (settlementJournalId : Option Id)

/-- The step that a label stands for. -/
def Access.payrollAct (lab : Access) : Option PayrollAct :=
  match lab.resolves with
  | some r =>
    if r.approved = true ∧ r.request.type = .payrollRunApproval then
      some (.approve r.requestId r.request.targetId)
    else none
  | none =>
    match lab.payroll with
    | some (.settle runId) => some (.settle runId)
    | some (.pay runId settlementJournalId) => some (.pay runId settlementJournalId)
    | none => none

/-- A run as it comes out of processing. -/
structure PayrollRun.IsNew (run : PayrollRun) : Prop where
  status : run.status = .processed
  accrual : run.accrualJournalId = none
  settlement : run.settlementJournalId = none
  reversed : run.reversedAt = none

instance (run : PayrollRun) : Decidable run.IsNew :=
  decidable_of_iff (run.status = .processed ∧ run.accrualJournalId = none ∧
    run.settlementJournalId = none ∧ run.reversedAt = none)
    ⟨fun h => ⟨h.1, h.2.1, h.2.2.1, h.2.2.2⟩, fun h => ⟨h.1, h.2, h.3, h.4⟩⟩

/-- The run keeps its journals and does not become approved or paid. -/
structure PayrollRun.Shelves (run run' : PayrollRun) : Prop where
  accrual : run'.accrualJournalId = run.accrualJournalId
  settlement : run'.settlementJournalId = run.settlementJournalId
  reversed : run.reversedAt.isSome = true → run'.reversedAt.isSome = true
  idle : run'.status ≠ .approved ∧ run'.status ≠ .paid
  marked : run'.status = .reversed → run'.reversedAt.isSome = true

/-- What one statement may do to the run `id`.  `posted` says whether it wrote a journal. -/
inductive PayrollRun.Moves (act : Option PayrollAct) (id : Id) (posted : Prop)
    (run : PayrollRun) : PayrollRun → Prop
  | same : Moves act id posted run run
  | shelved {run' : PayrollRun} (h : run.Shelves run') : Moves act id posted run run'
  | approved {run' : PayrollRun} {requestId : Id} (hact : act = some (.approve requestId id))
      (accrual : run'.accrualJournalId.isSome = true ↔ posted)
      (settlement : run'.settlementJournalId = run.settlementJournalId)
      (reversed : run'.reversedAt = run.reversedAt) (status : run'.status = .approved) :
      Moves act id posted run run'
  | paid {run' : PayrollRun} {journal : Option Id} (hact : act = some (.pay id journal))
      (accrual : run'.accrualJournalId = run.accrualJournalId)
      (settlement : run'.settlementJournalId = journal)
      (reversed : run'.reversedAt = run.reversedAt) (status : run'.status = .paid) :
      Moves act id posted run run'

theorem PayrollRun.Moves.reversed {act : Option PayrollAct} {id : Id} {posted : Prop}
    {run run' : PayrollRun} (h : run.Moves act id posted run')
    (hreversed : run.reversedAt.isSome = true) : run'.reversedAt.isSome = true := by
  cases h with
  | same => exact hreversed
  | shelved h => exact h.reversed hreversed
  | approved _ _ _ heq _ => rwa [heq]
  | paid _ _ _ heq _ => rwa [heq]

/-- The request is there and pending. -/
def Db.Claimable (s : Db) (requestId : Id) : Prop :=
  ∃ request ∈ s.find? .approvalRequest requestId, request.status = .pending

instance (s : Db) (requestId : Id) : Decidable (s.Claimable requestId) :=
  inferInstanceAs (Decidable (∃ request ∈ s.find? .approvalRequest requestId,
    request.status = .pending))

/-- The run is there, with an accrual. -/
def Db.Accrued (s : Db) (runId : Id) : Prop :=
  ∃ run ∈ s.find? .payrollRun runId, run.accrualJournalId.isSome = true

/-- What one statement may do to the runs. -/
structure PayrollStep (act : Option PayrollAct) (s t : Db) : Prop where
  moves : ∀ id run, s.find? .payrollRun id = some run →
    ∃ run', t.find? .payrollRun id = some run' ∧ run.Moves act id (Db.Creates .journal s t) run'
  new : ∀ id run, t.find? .payrollRun id = some run → s.find? .payrollRun id = none → run.IsNew
  claims : ∀ requestId id, act = some (.approve requestId id) →
    s.Agree [.payrollRun, .journal] t ∨
      s.Claimable requestId ∧ (Db.Creates .journal s t → t.Accrued id)

/-- The runs are kept, but for new ones. -/
def Db.StartsRuns (s t : Db) : Prop :=
  s.KeepsRows .payrollRun (fun run run' => run' = run) t ∧
    ∀ id run, t.find? .payrollRun id = some run → s.find? .payrollRun id = none → run.IsNew

namespace PayrollStep

variable {act : Option PayrollAct} {s t : Db}

theorem of_agree (h : s.Agree [.payrollRun, .journal] t) : PayrollStep act s t where
  moves := by
    intro id run hrun
    refine ⟨run, ?_, .same⟩
    rw [h.find? (by decide), hrun]
  new := by
    intro id run hrun hnone
    rw [h.find? (by decide), hnone] at hrun
    exact absurd hrun nofun
  claims := fun _ _ _ => .inl h

/-- No run is changed. -/
theorem of_table_eq (h : t.table .payrollRun = s.table .payrollRun)
    (hact : ∀ requestId id, act ≠ some (.approve requestId id)) : PayrollStep act s t where
  moves := by
    intro id run hrun
    refine ⟨run, ?_, .same⟩
    rw [Db.find?, h]
    exact hrun
  new := by
    intro id run hrun hnone
    rw [Db.find?, h, ← Db.find?, hnone] at hrun
    exact absurd hrun (by simp)
  claims := fun _ _ heq => absurd heq (hact _ _)

/-- One run is changed. -/
theorem of_modify {f : PayrollRun → PayrollRun} {id : Id}
    (h : t.table .payrollRun = (s.modify .payrollRun id f).table .payrollRun)
    (hmoves : ∀ run, s.find? .payrollRun id = some run →
      run.Moves act id (Db.Creates .journal s t) (f run))
    (hclaims : ∀ requestId id', act = some (.approve requestId id') →
      s.Claimable requestId ∧ (Db.Creates .journal s t → t.Accrued id')) :
    PayrollStep act s t := by
  have hfind : ∀ id', t.find? .payrollRun id' =
      if id' = id then (s.find? .payrollRun id').map f else s.find? .payrollRun id' := by
    intro id'
    rw [Db.find?, h, ← Db.find?, Db.find?_modify]
  refine ⟨?_, ?_, fun requestId id' hact => .inr (hclaims requestId id' hact)⟩
  · intro id' run hrun
    rw [hfind, hrun]
    by_cases hid : id' = id
    · rw [if_pos hid]
      subst hid
      exact ⟨f run, rfl, hmoves run hrun⟩
    · rw [if_neg hid]
      exact ⟨run, rfl, .same⟩
  · intro id' run hrun hnone
    rw [hfind, hnone] at hrun
    by_cases hid : id' = id
    · rw [if_pos hid] at hrun
      exact absurd hrun (by simp)
    · rw [if_neg hid] at hrun
      exact absurd hrun (by simp)

theorem of_startsRuns (h : s.StartsRuns t) : PayrollStep none s t where
  moves := by
    intro id run hrun
    obtain ⟨run', hrun', rfl⟩ := h.1 id run hrun
    exact ⟨run', hrun', .same⟩
  new := h.2
  claims := fun _ _ hact => absurd hact nofun

end PayrollStep

/-! ## The events of a run -/

/-- What happens to a payroll run: its accrual is posted, its settlement is posted, it is marked
as paid with its settlement. -/
inductive PayrollEvent
  | accrued (runId : Id)
  | settled (runId : Id)
  | entered (runId : Id)
  deriving DecidableEq

/-- The run is there, with a settlement. -/
def Db.Settled (s : Db) (runId : Id) : Prop :=
  ∃ run ∈ s.find? .payrollRun runId, run.settlementJournalId.isSome = true

instance (s : Db) (runId : Id) : Decidable (s.Settled runId) :=
  inferInstanceAs (Decidable (∃ run ∈ s.find? .payrollRun runId,
    run.settlementJournalId.isSome = true))

def payrollEvents (lab : Access) (s t : Db) : List PayrollEvent :=
  match lab.payrollAct with
  | some (.approve _ runId) => if Db.Creates .journal s t then [.accrued runId] else []
  | some (.settle runId) => if Db.Creates .journal s t then [.settled runId] else []
  | some (.pay runId _) => if t.Settled runId then [.entered runId] else []
  | none => []

/-- An approval that takes effect finds the run without an accrual and not reversed.  A
settlement is posted where the run has none, and no other mark-paid call has posted one that it
has yet to enter.  A run is marked as paid that has not been reversed, and keeps its
settlement. -/
def Access.PaysOnce (past : List PayrollEvent) (lab : Access) (s : Db) : Prop :=
  match lab.payrollAct with
  | some (.approve requestId runId) =>
    s.Claimable requestId →
      ∀ run ∈ s.find? .payrollRun runId, run.accrualJournalId = none ∧ run.reversedAt = none
  | some (.settle runId) =>
    ¬ s.Settled runId ∧ (.settled runId ∈ past → .entered runId ∈ past)
  | some (.pay runId settlementJournalId) =>
    (s.Settled runId → settlementJournalId.isSome = true) ∧
      ∀ run ∈ s.find? .payrollRun runId, run.reversedAt = none
  | none => True

instance (past : List PayrollEvent) (lab : Access) (s : Db) :
    Decidable (lab.PaysOnce past s) := by
  unfold Access.PaysOnce
  split <;> infer_instance

/-! ## What holds of a run and its events -/

structure PayrollRun.Sound (id : Id) (past : List PayrollEvent) (run : PayrollRun) : Prop where
  accrued : run.accrualJournalId.isSome = true ↔ .accrued id ∈ past
  entered : .entered id ∈ past → run.settlementJournalId.isSome = true
  idle : run.reversedAt.isSome = true → run.status ≠ .approved ∧ run.status ≠ .paid
  marked : run.status = .reversed → run.reversedAt.isSome = true

structure PayrollBooks (s : Db) (past : List PayrollEvent) : Prop where
  sound : ∀ id run, s.find? .payrollRun id = some run → run.Sound id past
  found : ∀ id, .accrued id ∈ past ∨ .entered id ∈ past → (s.find? .payrollRun id).isSome = true
  accruedOnce : ∀ id, past.count (.accrued id) ≤ 1
  settledOnce : ∀ id, past.count (.settled id) ≤ 1
  backed : ∀ id, .settled id ∈ past → .accrued id ∈ past

theorem PayrollRun.IsNew.sound {run : PayrollRun} (h : run.IsNew) {id : Id}
    {past : List PayrollEvent} (haccrued : .accrued id ∉ past) (hentered : .entered id ∉ past) :
    run.Sound id past where
  accrued := by
    rw [h.accrual]
    exact ⟨nofun, fun hmem => absurd hmem haccrued⟩
  entered := fun hmem => absurd hmem hentered
  idle := by
    rw [h.reversed]
    exact nofun
  marked := by
    rw [h.status]
    exact nofun

theorem payrollBooks_start {s : Db} (h : ∀ id run, s.find? .payrollRun id = some run → run.IsNew) :
    PayrollBooks s [] where
  sound := fun id run hrun => (h id run hrun).sound List.not_mem_nil List.not_mem_nil
  found := fun _ hmem => hmem.elim (absurd · List.not_mem_nil) (absurd · List.not_mem_nil)
  accruedOnce := fun _ => Nat.zero_le _
  settledOnce := fun _ => Nat.zero_le _
  backed := fun _ hmem => absurd hmem List.not_mem_nil

namespace PayrollRun.Sound

variable {id : Id} {past new : List PayrollEvent} {run run' : PayrollRun}

/-- Events of other runs. -/
theorem append (h : run.Sound id past) (haccrued : .accrued id ∉ new) (hentered : .entered id ∉ new) :
    run.Sound id (past ++ new) where
  accrued := by
    rw [List.mem_append]
    constructor
    · exact fun hsome => .inl (h.accrued.mp hsome)
    · intro hmem
      rcases hmem with hmem | hmem
      · exact h.accrued.mpr hmem
      · exact absurd hmem haccrued
  entered := by
    rw [List.mem_append]
    intro hmem
    rcases hmem with hmem | hmem
    · exact h.entered hmem
    · exact absurd hmem hentered
  idle := h.idle
  marked := h.marked

theorem shelve (h : run.Sound id past) (hshelves : run.Shelves run') : run'.Sound id past where
  accrued := by
    rw [hshelves.accrual]
    exact h.accrued
  entered := by
    rw [hshelves.settlement]
    exact h.entered
  idle := fun _ => hshelves.idle
  marked := hshelves.marked

/-- The run after its approval, in which the events say whether an accrual was posted. -/
theorem approve (h : run.Sound id past) (hopen : run.reversedAt = none)
    (haccrual : run'.accrualJournalId.isSome = true ↔ .accrued id ∈ past ++ new)
    (hentered : .entered id ∉ new) (hsettlement : run'.settlementJournalId = run.settlementJournalId)
    (hreversed : run'.reversedAt = run.reversedAt) (hstatus : run'.status = .approved) :
    run'.Sound id (past ++ new) where
  accrued := haccrual
  entered := by
    rw [hsettlement, List.mem_append]
    intro hmem
    rcases hmem with hmem | hmem
    · exact h.entered hmem
    · exact absurd hmem hentered
  idle := by
    rw [hreversed, hopen]
    exact nofun
  marked := by
    rw [hstatus]
    exact nofun

/-- The run after it has been marked as paid. -/
theorem pay (h : run.Sound id past) (hopen : run.reversedAt = none)
    (haccrued : .accrued id ∉ new) (hentered : .entered id ∈ past ++ new →
      run'.settlementJournalId.isSome = true)
    (haccrual : run'.accrualJournalId = run.accrualJournalId)
    (hreversed : run'.reversedAt = run.reversedAt) (hstatus : run'.status = .paid) :
    run'.Sound id (past ++ new) where
  accrued := by
    rw [haccrual, List.mem_append]
    constructor
    · exact fun hsome => .inl (h.accrued.mp hsome)
    · intro hmem
      rcases hmem with hmem | hmem
      · exact h.accrued.mpr hmem
      · exact absurd hmem haccrued
  entered := hentered
  idle := by
    rw [hreversed, hopen]
    exact nofun
  marked := by
    rw [hstatus]
    exact nofun

end PayrollRun.Sound

section Steps

variable {act : Option PayrollAct} {lab : Access} {s t : Db} {past new : List PayrollEvent}

/-- New events, if they happen to runs that are there and none happens again. -/
theorem PayrollBooks.append (h : PayrollBooks s past) (hstep : PayrollStep act s t)
    (hnew : new.Nodup)
    (hfound : ∀ id, .accrued id ∈ new ∨ .entered id ∈ new →
      (s.find? .payrollRun id).isSome = true)
    (hmoves : ∀ id run run', s.find? .payrollRun id = some run →
      t.find? .payrollRun id = some run' → run.Moves act id (Db.Creates .journal s t) run' →
        run'.Sound id (past ++ new))
    (haccrued : ∀ id, .accrued id ∈ new → .accrued id ∉ past)
    (hsettled : ∀ id, .settled id ∈ new → .settled id ∉ past ∧ .accrued id ∈ past) :
    PayrollBooks t (past ++ new) := by
  have hkept : ∀ id, (s.find? .payrollRun id).isSome = true →
      (t.find? .payrollRun id).isSome = true := by
    intro id hid
    obtain ⟨run, hrun⟩ := Option.isSome_iff_exists.mp hid
    obtain ⟨run', hrun', -⟩ := hstep.moves id run hrun
    rw [hrun']
    rfl
  have hall : ∀ id, .accrued id ∈ past ++ new ∨ .entered id ∈ past ++ new →
      (s.find? .payrollRun id).isSome = true := by
    intro id hmem
    rw [List.mem_append, List.mem_append] at hmem
    rcases hmem with (hmem | hmem) | (hmem | hmem)
    · exact h.found id (.inl hmem)
    · exact hfound id (.inl hmem)
    · exact h.found id (.inr hmem)
    · exact hfound id (.inr hmem)
  have honce : ∀ e : PayrollEvent, past.count e ≤ 1 → (e ∈ new → e ∉ past) →
      (past ++ new).count e ≤ 1 := by
    intro e hpast hfresh
    rw [List.count_append]
    by_cases hmem : e ∈ new
    · have hzero : past.count e = 0 := List.count_eq_zero_of_not_mem (hfresh hmem)
      have hone := List.nodup_iff_count_le_one.mp hnew e
      omega
    · have hzero : new.count e = 0 := List.count_eq_zero_of_not_mem hmem
      omega
  constructor
  · intro id run' hrun'
    cases hrun : s.find? .payrollRun id with
    | some run =>
      obtain ⟨run'', hrun'', hmove⟩ := hstep.moves id run hrun
      rw [hrun'] at hrun''
      obtain rfl := Option.some.inj hrun''
      exact hmoves id run run' hrun hrun' hmove
    | none =>
      have hno : ∀ {e : Prop}, (e → (s.find? .payrollRun id).isSome = true) → ¬ e := by
        intro e he hmem
        have hsome := he hmem
        rw [hrun] at hsome
        exact absurd hsome nofun
      apply (hstep.new id run' hrun' hrun).sound
      · exact hno fun hmem => hall id (.inl hmem)
      · exact hno fun hmem => hall id (.inr hmem)
  · exact fun id hmem => hkept id (hall id hmem)
  · exact fun id => honce _ (h.accruedOnce id) (haccrued id)
  · exact fun id => honce _ (h.settledOnce id) fun hmem => (hsettled id hmem).1
  · intro id hmem
    rw [List.mem_append] at hmem ⊢
    rcases hmem with hmem | hmem
    · exact .inl (h.backed id hmem)
    · exact .inl (hsettled id hmem).2

/-- No event. -/
theorem PayrollBooks.silent (h : PayrollBooks s past) (hstep : PayrollStep act s t)
    (hmoves : ∀ id run run', s.find? .payrollRun id = some run →
      t.find? .payrollRun id = some run' → run.Moves act id (Db.Creates .journal s t) run' →
        run'.Sound id past) :
    PayrollBooks t (past ++ []) := by
  refine h.append hstep List.nodup_nil ?_ ?_ ?_ ?_
  · exact fun _ hmem => hmem.elim (absurd · List.not_mem_nil) (absurd · List.not_mem_nil)
  · intro id run run' hrun hrun' hmove
    rw [List.append_nil]
    exact hmoves id run run' hrun hrun' hmove
  · exact fun _ hmem => absurd hmem List.not_mem_nil
  · exact fun _ hmem => absurd hmem List.not_mem_nil

theorem PayrollStep.isSome_of_accrued (hstep : PayrollStep act s t) {runId : Id}
    (h : t.Accrued runId) : (s.find? .payrollRun runId).isSome = true := by
  obtain ⟨run', hrun', hsome⟩ := h
  cases hrun : s.find? .payrollRun runId with
  | some run => rfl
  | none =>
    rw [(hstep.new runId run' hrun' hrun).accrual] at hsome
    exact absurd hsome nofun

theorem PayrollStep.isSome_of_settled (hstep : PayrollStep act s t) {runId : Id}
    (h : t.Settled runId) : (s.find? .payrollRun runId).isSome = true := by
  obtain ⟨run', hrun', hsome⟩ := h
  cases hrun : s.find? .payrollRun runId with
  | some run => rfl
  | none =>
    rw [(hstep.new runId run' hrun' hrun).settlement] at hsome
    exact absurd hsome nofun

/-- An approval that takes effect. -/
theorem PayrollBooks.approve {requestId runId : Id} (h : PayrollBooks s past)
    (hstep : PayrollStep (some (.approve requestId runId)) s t)
    (haccrued : Db.Creates .journal s t → t.Accrued runId)
    (hopen : ∀ run ∈ s.find? .payrollRun runId,
      run.accrualJournalId = none ∧ run.reversedAt = none) :
    PayrollBooks t
      (past ++ if Db.Creates .journal s t then [.accrued runId] else []) := by
  have hfresh : ∀ run, s.find? .payrollRun runId = some run → .accrued runId ∉ past := by
    intro run hrun hmem
    have hsome := (h.sound runId run hrun).accrued.mpr hmem
    rw [(hopen run hrun).1] at hsome
    exact absurd hsome nofun
  by_cases hposted : Db.Creates .journal s t
  · rw [if_pos hposted]
    have hthere := hstep.isSome_of_accrued (haccrued hposted)
    obtain ⟨row, hrow⟩ := Option.isSome_iff_exists.mp hthere
    refine h.append hstep (List.nodup_singleton _) ?_ ?_ ?_ ?_
    · intro id hmem
      rcases hmem with hmem | hmem
      · obtain rfl := PayrollEvent.accrued.inj (List.mem_singleton.mp hmem)
        exact hthere
      · exact absurd (List.mem_singleton.mp hmem) nofun
    · intro id run run' hrun hrun' hmove
      have hsound := h.sound id run hrun
      have hentered : PayrollEvent.entered id ∉ [.accrued runId] := by simp
      by_cases hid : id = runId
      · subst hid
        obtain ⟨run'', hrun'', hsome⟩ := haccrued hposted
        rw [hrun'] at hrun''
        obtain rfl := Option.some.inj hrun''
        obtain ⟨hnone, hnever⟩ := hopen run hrun
        cases hmove with
        | same =>
          rw [hnone] at hsome
          exact absurd hsome nofun
        | shelved hshelves =>
          rw [hshelves.accrual, hnone] at hsome
          exact absurd hsome nofun
        | approved _ _ hsettlement hreversed hstatus =>
          refine hsound.approve hnever ?_ hentered hsettlement hreversed hstatus
          simp [hsome]
        | paid hact => exact absurd hact nofun
      · have hother : PayrollEvent.accrued id ∉ [.accrued runId] := by simpa using hid
        cases hmove with
        | same => exact hsound.append hother hentered
        | shelved hshelves => exact (hsound.shelve hshelves).append hother hentered
        | approved hact =>
          have hsame := (PayrollAct.approve.inj (Option.some.inj hact)).2
          exact absurd hsame.symm hid
        | paid hact => exact absurd hact nofun
    · intro id hmem
      obtain rfl := PayrollEvent.accrued.inj (List.mem_singleton.mp hmem)
      exact hfresh row hrow
    · exact fun id hmem => absurd (List.mem_singleton.mp hmem) nofun
  · rw [if_neg hposted]
    apply h.silent hstep
    intro id run run' hrun hrun' hmove
    have hsound := h.sound id run hrun
    cases hmove with
    | same => exact hsound
    | shelved hshelves => exact hsound.shelve hshelves
    | approved hact haccrual hsettlement hreversed hstatus =>
      obtain rfl := (PayrollAct.approve.inj (Option.some.inj hact)).2
      have hafter : run'.Sound runId (past ++ []) := by
        refine hsound.approve (hopen run hrun).2 ?_ List.not_mem_nil hsettlement hreversed hstatus
        rw [List.append_nil, haccrual]
        exact ⟨fun hyes => absurd hyes hposted, fun hmem => absurd hmem (hfresh run hrun)⟩
      rwa [List.append_nil] at hafter
    | paid hact => exact absurd hact nofun

/-- A settlement is posted. -/
theorem PayrollBooks.settle {runId : Id} (h : PayrollBooks s past)
    (hstep : PayrollStep (some (.settle runId)) s t) (hopen : ¬ s.Settled runId)
    (halone : .settled runId ∈ past → .entered runId ∈ past)
    (hback : Db.Creates .journal s t → .accrued runId ∈ past) :
    PayrollBooks t (past ++ if Db.Creates .journal s t then [.settled runId] else []) := by
  have hmoves : ∀ id run run', s.find? .payrollRun id = some run →
      run.Moves (some (.settle runId)) id (Db.Creates .journal s t) run' → run'.Sound id past := by
    intro id run run' hrun hmove
    have hsound := h.sound id run hrun
    cases hmove with
    | same => exact hsound
    | shelved hshelves => exact hsound.shelve hshelves
    | approved hact => exact absurd hact nofun
    | paid hact => exact absurd hact nofun
  by_cases hposted : Db.Creates .journal s t
  · rw [if_pos hposted]
    have hfresh : .settled runId ∉ past := by
      intro hmem
      have hentered := halone hmem
      obtain ⟨run, hrun⟩ := Option.isSome_iff_exists.mp (h.found runId (.inr hentered))
      exact hopen ⟨run, hrun, (h.sound runId run hrun).entered hentered⟩
    refine h.append hstep (List.nodup_singleton _) ?_ ?_ ?_ ?_
    · intro id hmem
      rcases hmem with hmem | hmem
      · exact absurd (List.mem_singleton.mp hmem) nofun
      · exact absurd (List.mem_singleton.mp hmem) nofun
    · intro id run run' hrun _ hmove
      exact (hmoves id run run' hrun hmove).append (by simp) (by simp)
    · exact fun id hmem => absurd (List.mem_singleton.mp hmem) nofun
    · intro id hmem
      obtain rfl := PayrollEvent.settled.inj (List.mem_singleton.mp hmem)
      exact ⟨hfresh, hback hposted⟩
  · rw [if_neg hposted]
    apply h.silent hstep
    exact fun id run run' hrun _ hmove => hmoves id run run' hrun hmove

/-- A run is marked as paid. -/
theorem PayrollBooks.pay {runId : Id} {journal : Option Id} (h : PayrollBooks s past)
    (hstep : PayrollStep (some (.pay runId journal)) s t)
    (hkeeps : s.Settled runId → journal.isSome = true)
    (hopen : ∀ run ∈ s.find? .payrollRun runId, run.reversedAt = none) :
    PayrollBooks t (past ++ if t.Settled runId then [.entered runId] else []) := by
  have hmoves : ∀ (new : List PayrollEvent), (∀ id, .accrued id ∉ new) →
      (∀ id, .entered id ∈ new → id = runId ∧ t.Settled runId) →
      ∀ id run run', s.find? .payrollRun id = some run → t.find? .payrollRun id = some run' →
        run.Moves (some (.pay runId journal)) id (Db.Creates .journal s t) run' →
          run'.Sound id (past ++ new) := by
    intro new haccrued hentered id run run' hrun hrun' hmove
    have hsound := h.sound id run hrun
    have hnow : .entered id ∈ new → run'.settlementJournalId.isSome = true := by
      intro hmem
      obtain ⟨rfl, run'', hrun'', hsome⟩ := hentered id hmem
      rw [hrun'] at hrun''
      rwa [Option.some.inj hrun'']
    have hboth : (run'.Sound id past) → run'.Sound id (past ++ new) := by
      intro hbefore
      refine ⟨?_, ?_, hbefore.idle, hbefore.marked⟩
      · rw [List.mem_append, hbefore.accrued]
        simp [haccrued id]
      · rw [List.mem_append]
        exact fun hmem => hmem.elim hbefore.entered hnow
    cases hmove with
    | same => exact hboth hsound
    | shelved hshelves => exact hboth (hsound.shelve hshelves)
    | approved hact => exact absurd hact nofun
    | paid hact haccrual hsettlement hreversed hstatus =>
      obtain ⟨rfl, rfl⟩ := PayrollAct.pay.inj (Option.some.inj hact)
      refine hsound.pay (hopen run hrun) (haccrued runId) ?_ haccrual hreversed hstatus
      rw [List.mem_append]
      rintro (hmem | hmem)
      · rw [hsettlement]
        exact hkeeps ⟨run, hrun, hsound.entered hmem⟩
      · exact hnow hmem
  by_cases hsettled : t.Settled runId
  · rw [if_pos hsettled]
    refine h.append hstep (List.nodup_singleton _) ?_ ?_ ?_ ?_
    · intro id hmem
      rcases hmem with hmem | hmem
      · exact absurd (List.mem_singleton.mp hmem) nofun
      · obtain rfl := PayrollEvent.entered.inj (List.mem_singleton.mp hmem)
        exact hstep.isSome_of_settled hsettled
    · apply hmoves
      · simp
      · intro id hmem
        exact ⟨PayrollEvent.entered.inj (List.mem_singleton.mp hmem), hsettled⟩
    · exact fun id hmem => absurd (List.mem_singleton.mp hmem) nofun
    · exact fun id hmem => absurd (List.mem_singleton.mp hmem) nofun
  · rw [if_neg hsettled]
    apply h.silent hstep
    intro id run run' hrun hrun' hmove
    have hafter := hmoves [] (fun _ => List.not_mem_nil) (fun _ hmem => absurd hmem List.not_mem_nil)
      id run run' hrun hrun' hmove
    rwa [List.append_nil] at hafter

/-- One statement. -/
theorem PayrollBooks.step (h : PayrollBooks s past) (hstep : PayrollStep lab.payrollAct s t)
    (hlab : lab.PaysOnce past s)
    (hback : ∀ runId, lab.payrollAct = some (.settle runId) → Db.Creates .journal s t →
      .accrued runId ∈ past) :
    PayrollBooks t (past ++ payrollEvents lab s t) := by
  unfold Access.PaysOnce at hlab
  unfold payrollEvents
  generalize lab.payrollAct = act at hstep hlab hback
  cases act with
  | none =>
    apply h.silent hstep
    intro id run run' hrun _ hmove
    have hsound := h.sound id run hrun
    cases hmove with
    | same => exact hsound
    | shelved hshelves => exact hsound.shelve hshelves
    | approved hact => exact absurd hact nofun
    | paid hact => exact absurd hact nofun
  | some act =>
    cases act with
    | approve requestId runId =>
      rcases hstep.claims requestId runId rfl with hagree | ⟨hclaimable, haccrued⟩
      · have hnone : ¬ Db.Creates .journal s t := Db.not_creates (hagree _ (by decide))
        show PayrollBooks t (past ++ if Db.Creates .journal s t then [.accrued runId] else [])
        rw [if_neg hnone]
        apply h.silent hstep
        intro id run run' hrun hrun' _
        rw [hagree.find? (by decide), hrun] at hrun'
        rw [← Option.some.inj hrun']
        exact h.sound id run hrun
      · exact h.approve hstep haccrued (hlab hclaimable)
    | settle runId => exact h.settle hstep hlab.1 hlab.2 (hback runId rfl)
    | pay runId journal => exact h.pay hstep hlab.1 hlab.2

end Steps

/-! ## The statements of the calls -/

section Statements

variable {s t : Db}

/-- The accrual is posted exactly if the answer names its journal. -/
theorem run_postDraftLines_creates {institutionId approvedById : Id} {now postingDate : DateTime}
    {description : String} {drafts : List DraftLine} {journal : Option Id}
    (h : (postDraftLines institutionId approvedById now postingDate description drafts).run s =
      (.ok journal, t)) : journal.isSome = true ↔ Db.Creates .journal s t := by
  rcases run_postDraftLines_eq_ok h with ⟨-, rfl, rfl⟩ | ⟨lines, -, -, -, rfl, rfl⟩
  · exact ⟨nofun, fun hcreates => absurd hcreates (Db.not_creates rfl)⟩
  · exact ⟨fun _ => Db.creates_insert (Db.table_applyEffects (by decide) _ _), fun _ => rfl⟩

theorem run_postAccrual_creates {now : DateTime} {approvedById runId : Id} {run : PayrollRun}
    {journal : Option Id} (h : (postAccrual now approvedById runId run).run s = (.ok journal, t)) :
    journal.isSome = true ↔ Db.Creates .journal s t := by
  have hnone : ∀ {t : Db}, (Except.ok none, s) = ((.ok journal, t) : Except Failure _ × Db) →
      (journal.isSome = true ↔ Db.Creates .journal s t) := by
    intro t hdone
    obtain ⟨hjournal, ht⟩ := Prod.mk.inj hdone
    rw [← Except.ok.inj hjournal, ← ht]
    exact ⟨nofun, fun hcreates => absurd hcreates (Db.not_creates rfl)⟩
  obtain ⟨mappings, s₁, hmappings, h₁⟩ := run_bind_eq_ok h
  obtain rfl := (Prod.mk.inj hmappings).2
  split at h₁
  · obtain ⟨period, s₂, hperiod, h₂⟩ := run_bind_eq_ok h₁
    obtain rfl := (Prod.mk.inj hperiod).2
    obtain ⟨glPeriod, s₃, hglPeriod, h₃⟩ := run_bind_eq_ok h₂
    obtain ⟨-, rfl⟩ := run_findPostablePeriod_eq_ok hglPeriod
    split at h₃
    · obtain ⟨entries, s₄, hentries, h₄⟩ := run_bind_eq_ok h₃
      obtain rfl := (Prod.mk.inj hentries).2
      exact run_postDraftLines_creates h₄
    · exact hnone h₃
  · exact hnone h₁

/-- The approval of a run. -/
theorem run_approvePayrollRun_eq_ok {now : DateTime} {approvedById runId : Id} {u : Unit}
    (h : (approvePayrollRun now approvedById runId).run s = (.ok u, t)) :
    ∃ run journal, s.find? .payrollRun runId = some run ∧
      t.table .payrollRun = (s.modify .payrollRun runId fun r =>
        { r with status := .approved, approvedById := some approvedById, approvedAt := some now,
                 accrualJournalId := journal }).table .payrollRun ∧
      (journal.isSome = true ↔ Db.Creates .journal s t) := by
  obtain ⟨run, hrun, h₁⟩ := run_findUniqueOrThrow_bind_eq_ok h
  obtain ⟨journal, s₁, haccrual, h₂⟩ := run_bind_eq_ok h₁
  have hquiet : Quiet [.payrollRun] (postAccrual now approvedById runId run) :=
    Quiet.postAccrual (by decide) (by decide) _ _ _ _
  have hkept := hquiet.run s
  rw [haccrual] at hkept
  obtain ⟨row, -, h₃⟩ := run_updateAs_bind_eq_ok h₂
  obtain rfl := (Prod.mk.inj h₃).2
  refine ⟨run, journal, hrun, ?_, ?_⟩
  · rw [Db.table_modify_self, Db.table_modify_self, hkept _ (by decide)]
  · rw [run_postAccrual_creates haccrual]
    unfold Db.Creates
    rw [Db.find?_modify_of_ne (by decide)]

/-- The transaction of an approval or a rejection. -/
theorem ResolveCall.run_inTx_payrollStep {call : ResolveCall} {existing : ApprovalRequest}
    {lab : Access} (hlab : lab.resolves =
      some ⟨call.requestId, existing, call.decision = .approve, call.now⟩) {u : Unit}
    (h : (call.inTx existing).run s = (.ok u, t)) : PayrollStep lab.payrollAct s t := by
  obtain ⟨request, v, hrequest, hpending, heffect, ht⟩ := run_inTx_effect h
  have hlog : ∀ m, m ≠ .auditLog → t.table m = v.table m := by
    intro m hm
    rw [ht, Db.table_insert_of_ne hm]
  have hbefore : ∀ m, m ≠ .approvalRequest →
      (s.modify .approvalRequest call.requestId call.resolve).table m = s.table m :=
    fun m hm => Db.table_modify_of_ne hm _ _ _
  by_cases htype : existing.type = .payrollRunApproval
  · unfold effect at heffect
    cases hdecision : call.decision with
    | approve =>
      have hact : lab.payrollAct = some (.approve call.requestId existing.targetId) := by
        unfold Access.payrollAct
        simp [hlab, hdecision, htype]
      simp only [hdecision, applyApproval, htype] at heffect
      obtain ⟨run, journal, hrun, hruns, hjournal⟩ := run_approvePayrollRun_eq_ok heffect
      rw [Db.find?, hbefore _ (by decide), ← Db.find?] at hrun
      have hcreates : Db.Creates .journal s t ↔
          Db.Creates .journal (s.modify .approvalRequest call.requestId call.resolve) v := by
        unfold Db.Creates Db.find? Db.nextId
        rw [hlog _ (by decide), hbefore _ (by decide)]
      rw [Db.table_modify_self, hbefore _ (by decide), ← Db.table_modify_self,
        ← hlog _ (by decide)] at hruns
      rw [hact]
      refine .of_modify hruns ?_ ?_
      · intro run' _
        exact .approved rfl (hjournal.trans hcreates.symm) rfl rfl rfl
      · intro requestId runId heq
        obtain ⟨rfl, rfl⟩ := PayrollAct.approve.inj (Option.some.inj heq)
        refine ⟨⟨request, hrequest, hpending⟩, fun hposted => ?_⟩
        have hjournal' : journal.isSome = true := hjournal.mpr (hcreates.mp hposted)
        have hrow := Db.find?_modify s .payrollRun existing.targetId existing.targetId fun r =>
          { r with status := .approved, approvedById := some call.auth.userId,
                   approvedAt := some call.now, accrualJournalId := journal }
        rw [if_pos rfl, hrun, Db.find?, ← hruns, ← Db.find?] at hrow
        exact ⟨_, hrow, hjournal'⟩
    | reject =>
      have hact : lab.payrollAct = none := by
        unfold Access.payrollAct
        simp [hlab, hdecision]
      simp only [hdecision, applyRejection, htype] at heffect
      obtain ⟨run, -, hend⟩ := run_updateAs_bind_eq_ok heffect
      have hruns : t.table .payrollRun = (s.modify .payrollRun existing.targetId fun r =>
          { r with status := .processed }).table .payrollRun := by
        rw [hlog _ (by decide), ← (Prod.mk.inj hend).2, Db.table_modify_self, hbefore _ (by decide),
          Db.table_modify_self]
      rw [hact]
      refine .of_modify hruns ?_ fun _ _ heq => absurd heq (by simp)
      intro run' _
      exact .shelved ⟨rfl, rfl, id, ⟨by simp, by simp⟩, (by simp)⟩
  · have hact : lab.payrollAct = none := by
      unfold Access.payrollAct
      simp [hlab, htype]
    have hwrites : ∀ m ∈ approvalWrites existing.type, m ∉ [Model.payrollRun] := by
      cases htype' : existing.type
      case payrollRunApproval => exact absurd htype' htype
      all_goals decide
    have hkept := (call.quiet_effect hwrites).run
      (s.modify .approvalRequest call.requestId call.resolve)
    rw [heffect] at hkept
    rw [hact]
    apply PayrollStep.of_table_eq
    · rw [hlog _ (by decide), hkept _ (by decide), hbefore _ (by decide)]
    · exact fun _ _ => (by simp)

end Statements

/-! ## The calls -/

/-- No run loses the date of its reversal.  A process may learn that a run has an accrual, and
posts the settlement of no other run. -/
def payrollProtocol : Protocol Access Db (Option Id) where
  rely := fun s t => s.KeepsRows .payrollRun
    (fun run run' => run.reversedAt.isSome = true → run'.reversedAt.isSome = true) t
  guar := fun lab s known t known' => PayrollStep lab.payrollAct s t ∧
    (∀ runId, known' = some runId → known = some runId ∨ s.Accrued runId) ∧
    ∀ runId, lab.payrollAct = some (.settle runId) → Db.Creates .journal s t → known = some runId
  refl := fun _ => .of_table_eq (fun _ => id) rfl
  trans := Db.KeepsRows.trans fun _ _ _ h h' hreversed => h' (h hreversed)

theorem PayrollStep.rely {act : Option PayrollAct} {s t : Db} (h : PayrollStep act s t) :
    payrollProtocol.rely s t := by
  intro id run hrun
  obtain ⟨run', hrun', hmove⟩ := h.moves id run hrun
  exact ⟨run', hrun', hmove.reversed⟩

/-- A statement that posts no settlement. -/
theorem PayrollStep.follows {lab : Access} {s t : Db} (h : PayrollStep lab.payrollAct s t)
    (hlab : ∀ runId, lab.payrollAct = some (.settle runId) → ¬ Db.Creates .journal s t)
    (known : Option Id) : payrollProtocol.rely s t ∧ payrollProtocol.guar lab s known t known :=
  ⟨h.rely, h, fun _ hknown => .inl hknown, fun runId hact hcreates =>
    absurd hcreates (hlab runId hact)⟩

theorem payrollProtocol_watches : payrollProtocol.Watches [.payrollRun, .journal] := by
  intro lab s t known hagree
  have hstep : PayrollStep lab.payrollAct s t := .of_agree hagree
  exact hstep.follows (fun _ _ => Db.not_creates (hagree _ (by decide))) known

inductive PayrollCall
  | requestApproval (auth : Auth) (runId : Id)
  | resolve (call : ResolveCall)
  | markPaid (auth : Auth) (now : DateTime) (runId : Id)
  | reverse (auth : Auth) (now : DateTime) (runId : Id) (reason : String)
  | other (p : Handler Unit) (h : p.EveryStep fun lab s t =>
      lab.payroll = none ∧ lab.resolves = none ∧ s.StartsRuns t)

def PayrollCall.handler : PayrollCall → Handler Unit
  | requestApproval auth runId => requestPayrollApproval auth runId
  | resolve call => call.handler
  | markPaid auth now runId => do let _ ← markPayrollPaid auth now runId
  | reverse auth now runId reason => do let _ ← reversePayroll auth now runId reason
  | other p _ => p

section Follow

variable {s : Db} {known : Option Id}

/-- Keeping to the protocol, whatever comes out. -/
abbrev FollowsPayroll {α : Type} (p : Handler α) (s : Db) (known : Option Id) : Prop :=
  p.Follows payrollProtocol (fun _ _ _ => True) s known

/-- A run is set aside. -/
theorem followsPayroll_shelve {α : Type} {runId : Id} {f : PayrollRun → PayrollRun}
    (hf : ∀ run : PayrollRun, run.Shelves (f run)) {k : PayrollRun → Handler α}
    (hk : ∀ run t, FollowsPayroll (k run) t known) :
    FollowsPayroll (update .payrollRun runId f >>= k) s known := by
  refine payrollProtocol_watches.updateAs ?_ fun _ => trivial
  intro t run _ _
  have hstep : PayrollStep (Access.payrollAct {}) t (t.modify .payrollRun runId f) :=
    .of_modify rfl (fun run _ => .shelved (hf run)) fun _ _ hact => absurd hact nofun
  obtain ⟨hrely, hguar⟩ := hstep.follows (fun _ hact => absurd hact nofun) known
  exact ⟨known, hrely, hguar, hk _ _⟩

theorem requestPayrollApproval_follows (auth : Auth) (runId : Id) :
    FollowsPayroll (requestPayrollApproval auth runId) s known := by
  have hW := payrollProtocol_watches
  refine hW.query fun t _ => Follows.orFail (fun run _ => ?_) fun _ => trivial
  refine Follows.require (fun _ => ?_) fun _ => trivial
  refine hW.quiet (Quiet.create (by decide) _) (fun t _ _ => ?_) fun _ _ => trivial
  apply followsPayroll_shelve
  · intro run
    exact ⟨rfl, rfl, id, ⟨nofun, nofun⟩, nofun⟩
  · exact fun _ _ => trivial

theorem reversePayroll_follows (auth : Auth) (now : DateTime) (runId : Id) (reason : String) :
    FollowsPayroll (reversePayroll auth now runId reason) s known := by
  have hW := payrollProtocol_watches
  refine Follows.require (fun _ => ?_) fun _ => trivial
  refine hW.query fun t _ => Follows.orFail (fun run _ => ?_) fun _ => trivial
  refine Follows.require (fun _ => ?_) fun _ => trivial
  apply followsPayroll_shelve
  · intro run
    exact ⟨rfl, rfl, fun _ => rfl, ⟨nofun, nofun⟩, fun _ => rfl⟩
  · intro run t
    refine hW.quiet_end ?_ fun _ _ _ => trivial
    exact (Quiet.create (by decide) _).bind fun _ => Quiet.pure _

theorem ResolveCall.followsPayroll (call : ResolveCall) : FollowsPayroll call.handler s known := by
  have hevery : call.handler.EveryStep fun lab s t => PayrollStep lab.payrollAct s t ∧
      ∀ runId, lab.payrollAct = some (.settle runId) → ¬ Db.Creates .journal s t := by
    apply call.everyStep
    · exact fun lab s => ⟨.of_agree (.refl s), fun _ _ => Db.not_creates rfl⟩
    · intro existing s t hrun
      refine ⟨ResolveCall.run_inTx_payrollStep rfl hrun, ?_⟩
      intro runId hact
      unfold Access.payrollAct at hact
      dsimp only at hact
      split at hact
      · exact absurd hact nofun
      · exact absurd hact nofun
  exact (Follows.of_everyStep (fun _ _ _ known h => h.1.follows h.2 known) hevery).imp
    fun _ _ _ _ => trivial

/-- The settlement of a run that is known to have an accrual. -/
theorem followsPayroll_settle {α : Type} {runId : Id} {lab : Access}
    (hlab : lab.payrollAct = some (.settle runId)) (journal : Journal) {k : Id → Handler α}
    (hk : ∀ id t, FollowsPayroll (k id) t (some runId)) :
    FollowsPayroll (createJournalAs lab journal >>= k) s (some runId) := by
  intro t _
  by_cases hlines : ∀ l ∈ journal.lines, (t.find? .gLAccount l.accountId).isSome
  · simp only [if_pos hlines]
    have hstep : PayrollStep lab.payrollAct t (t.insert .journal journal) := by
      rw [hlab]
      exact .of_table_eq (Db.table_insert_of_ne (by decide) _ _) fun _ _ => nofun
    refine ⟨some runId, hstep.rely, ⟨hstep, fun _ hknown => .inl hknown, ?_⟩, hk _ _⟩
    intro id hact _
    rw [hlab] at hact
    rw [PayrollAct.settle.inj (Option.some.inj hact)]
  · simp only [if_neg hlines]
    obtain ⟨hrely, hguar⟩ := payrollProtocol_watches lab t t (some runId) (Db.Agree.refl t)
    exact ⟨some runId, hrely, hguar, trivial⟩

theorem postSettlement_follows {auth : Auth} {now : DateTime} {runId : Id} {run : PayrollRun} :
    FollowsPayroll (postSettlement auth now runId run) s (some runId) := by
  have hW := payrollProtocol_watches
  refine hW.query fun s₁ _ => ?_
  split
  · trivial
  · refine hW.query fun s₂ _ => hW.query fun s₃ _ => hW.query fun s₄ _ => ?_
    split
    · refine followsPayroll_settle rfl _ fun id t => ?_
      refine hW.quiet_end ?_ fun _ _ _ => trivial
      exact (Quiet.applyLinesById (by decide) _ _).bind fun _ => Quiet.pure _
    · trivial

theorem markPayrollPaid_follows (auth : Auth) (now : DateTime) (runId : Id) :
    FollowsPayroll (markPayrollPaid auth now runId) s none := by
  have hW := payrollProtocol_watches
  have hpay : ∀ (journal known : Option Id) (t : Db), FollowsPayroll (do
      let updated ← updateAs { payroll := some (.pay runId journal) } .payrollRun runId fun r =>
        { r with status := .paid, paidById := some auth.userId, paidAt := some now,
                 settlementJournalId := journal }
      let _ ← create .auditLog
        { institutionId := auth.institutionId, userId := some auth.userId,
          action := "payroll_run.mark_paid", resource := "payroll_run", resourceId := some runId }
      return updated) t known := by
    intro journal known t
    refine hW.updateAs ?_ fun _ => trivial
    intro t₁ row _ _
    have hstep : PayrollStep (Access.payrollAct { payroll := some (.pay runId journal) }) t₁
        (t₁.modify .payrollRun runId fun r =>
          { r with status := .paid, paidById := some auth.userId, paidAt := some now,
                   settlementJournalId := journal }) :=
      .of_modify rfl (fun _ _ => .paid rfl rfl rfl rfl rfl) fun _ _ hact => absurd hact nofun
    obtain ⟨hrely, hguar⟩ := hstep.follows (fun _ hact => absurd hact nofun) known
    refine ⟨known, hrely, hguar, ?_⟩
    refine hW.quiet_end ?_ fun _ _ _ => trivial
    exact (Quiet.create (by decide) _).bind fun _ => Quiet.pure _
  -- What the first statement reads decides whether a settlement may be posted.
  intro t _
  obtain ⟨hrely, hstep, -, hsettle⟩ := hW {} t t none (Db.Agree.refl t)
  by_cases haccrued : t.Accrued runId
  · refine ⟨some runId, hrely, ⟨hstep, ?_, fun _ hact => absurd hact nofun⟩, ?_⟩
    · intro id hid
      rw [← Option.some.inj hid]
      exact .inr haccrued
    · refine Follows.orFail (fun run hrun => ?_) fun _ => trivial
      refine Follows.require (fun _ => ?_) fun _ => trivial
      dsimp only
      split
      · exact postSettlement_follows.bind (fun _ _ journal _ => hpay journal _ _) fun _ _ _ _ => trivial
      · exact hpay none _ _
  · refine ⟨none, hrely, ⟨hstep, fun _ hknown => .inl hknown, hsettle⟩, ?_⟩
    refine Follows.orFail (fun run hrun => ?_) fun _ => trivial
    refine Follows.require (fun _ => ?_) fun _ => trivial
    have hnone : ¬ run.accrualJournalId.isSome = true := fun hsome =>
      haccrued ⟨run, (Option.filter_eq_some_iff.mp hrun).1, hsome⟩
    rw [if_neg hnone]
    exact hpay none _ _

/-- Every call follows the protocol, and knows of no accrual when it starts. -/
theorem PayrollCall.follows (call : PayrollCall) : FollowsPayroll call.handler s none := by
  cases call with
  | requestApproval auth runId => exact requestPayrollApproval_follows auth runId
  | resolve call => exact ResolveCall.followsPayroll call
  | markPaid auth now runId =>
    exact (markPayrollPaid_follows auth now runId).bind (fun _ _ _ _ => trivial)
      fun _ _ _ _ => trivial
  | reverse auth now runId reason =>
    exact (reversePayroll_follows auth now runId reason).bind (fun _ _ _ _ => trivial)
      fun _ _ _ _ => trivial
  | other p h =>
    refine (Follows.of_everyStep (fun lab t t' known hstep => ?_) h).imp fun _ _ _ _ => trivial
    obtain ⟨hpayroll, hresolves, hstarts⟩ := hstep
    have hact : lab.payrollAct = none := by
      unfold Access.payrollAct
      simp [hpayroll, hresolves]
    have hmoves : PayrollStep lab.payrollAct t t' := by
      rw [hact]
      exact .of_startsRuns hstarts
    apply hmoves.follows
    intro runId heq
    rw [hact] at heq
    exact absurd heq nofun

end Follow

/-! ## Runs of the calls -/

section Runs

variable {ι : Type} [DecidableEq ι]

def payrollPool (calls : ι → PayrollCall) (s : Db) : Pool ι Access Db Failure Unit :=
  ⟨fun i => (calls i).handler, s⟩

/-- What a schedule does if its statements meet the condition. -/
theorem payrollPool_books (calls : ι → PayrollCall) {s : Db}
    (hnew : ∀ id run, s.find? .payrollRun id = some run → run.IsNew) {sched : List ι}
    (hpays : (payrollPool calls s).AllowedAfter payrollEvents
      (fun past lab s => lab.PaysOnce past s) [] sched) :
    PayrollBooks ((payrollPool calls s).run sched).state
      ((payrollPool calls s).history payrollEvents sched) := by
  have hfollows : (payrollPool calls s).Follows payrollProtocol (fun _ _ => True) fun _ => none :=
    fun i => (calls i).follows
  refine Pool.Follows.run_history (J := PayrollBooks)
    (K := fun known past => ∀ runId, known = some runId → .accrued runId ∈ past) ?_ ?_ hfollows
    (payrollBooks_start hnew) (fun _ _ hknown => absurd hknown nofun) hpays
  · exact fun _ _ _ hknown runId hid => List.mem_append_left _ (hknown runId hid)
  · intro lab s known t known' past hguar _ hlab hbooks hknown
    obtain ⟨hstep, hlearns, hsettles⟩ := hguar
    refine ⟨hbooks.step hstep hlab fun runId hact hcreates => ?_, ?_⟩
    · exact hknown runId (hsettles runId hact hcreates)
    · intro runId hid
      apply List.mem_append_left
      rcases hlearns runId hid with hbefore | ⟨run, hrun, hsome⟩
      · exact hknown runId hbefore
      · exact (hbooks.sound runId run hrun).accrued.mp hsome

/-- In a run in which every statement meets the condition, at most one accrual and at most one
settlement are posted for each payroll run, a settlement only after an accrual, and a run that is
REVERSED is neither APPROVED nor PAID later. -/
theorem payroll_posted_once (calls : ι → PayrollCall) (s : Db)
    (hnew : ∀ id run, s.find? .payrollRun id = some run → run.IsNew) (sched : List ι)
    (hpays : (payrollPool calls s).AllowedAfter payrollEvents
      (fun past lab s => lab.PaysOnce past s) [] sched) :
    (∀ runId, ((payrollPool calls s).history payrollEvents sched).count (.accrued runId) ≤ 1 ∧
      ((payrollPool calls s).history payrollEvents sched).count (.settled runId) ≤ 1 ∧
      (.settled runId ∈ (payrollPool calls s).history payrollEvents sched →
        .accrued runId ∈ (payrollPool calls s).history payrollEvents sched)) ∧
    ∀ before after, sched = before ++ after → ∀ runId run run',
      ((payrollPool calls s).run before).state.find? .payrollRun runId = some run →
      run.status = .reversed →
      ((payrollPool calls s).run sched).state.find? .payrollRun runId = some run' →
      run'.status ≠ .approved ∧ run'.status ≠ .paid := by
  have hbooks := payrollPool_books calls hnew hpays
  constructor
  · exact fun runId => ⟨hbooks.accruedOnce runId, hbooks.settledOnce runId, hbooks.backed runId⟩
  · intro before after hsched runId run run' hrun hreversed hrun'
    rw [hsched] at hpays
    have hearlier := payrollPool_books calls hnew (Pool.allowedAfter_append.mp hpays).1
    have hdate := (hearlier.sound runId run hrun).marked hreversed
    have hfollows : (payrollPool calls s).Follows payrollProtocol (fun _ _ => True) fun _ => none :=
      fun i => (calls i).follows
    obtain ⟨known, hrest⟩ := hfollows.run before
    obtain ⟨later, hlater, hkept⟩ := hrest.run_rely after runId run hrun
    rw [← Pool.run_append, ← hsched, hrun'] at hlater
    rw [Option.some.inj hlater] at hrun' ⊢
    exact (hbooks.sound runId later hrun').idle (hkept hdate)

end Runs

/-! ## Two payments of one run -/

/-- An institution with accounts for its payroll, and a run of 1000.00 that has been
processed. -/
def payrollLedger : Db :=
  (("Cash/Bank Disbursement" :: requiredAccrualPurposes).foldl
    (fun s purpose => s.insert .payrollGLAccountMapping ⟨1, purpose,
      if purpose = "Salary Expense" then 1 else if purpose = "Salaries Payable" then 2 else 3⟩)
    ((((Db.empty.insert .gLAccount
      { institutionId := 1, code := "5000", name := "Salaries", category := .expense }).insert
      .gLAccount
      { institutionId := 1, code := "2100", name := "Payable", category := .liability }).insert
      .gLAccount
      { institutionId := 1, code := "1000", name := "Cash", category := .asset }).insert
      .financialPeriod { institutionId := 1, startDate := 0, endDate := 10 })).insert .payrollRun
        { institutionId := 1, payrollPeriodId := 1, status := .processed, totalGross := 100000,
          totalNet := 100000 }

theorem payrollLedger_isNew (id : Id) (run : PayrollRun)
    (h : payrollLedger.find? .payrollRun id = some run) : run.IsNew := by
  unfold payrollLedger at h
  rw [Db.find?_insert] at h
  split at h
  · rw [← Option.some.inj h]
    exact ⟨rfl, rfl, rfl, rfl⟩
  · exact absurd h nofun

/-- Two requests for the approval of the run, their approvals, a reversal, and two payments. -/
def payrollCalls : Fin 7 → PayrollCall
  | 0 | 1 => .requestApproval ⟨1, 1⟩ 1
  | 2 => .resolve { decision := .approve, auth := ⟨1, 2⟩, now := 5, requestId := 1 }
  | 3 => .resolve { decision := .approve, auth := ⟨1, 2⟩, now := 5, requestId := 2 }
  | 4 | 5 => .markPaid ⟨1, 1⟩ 5 1
  | 6 => .reverse ⟨1, 1⟩ 5 1 "Wrong period"

/-- The run is requested once, approved, paid and reversed. -/
def payrollOnce : List (Fin 7) :=
  List.replicate 3 0 ++ List.replicate 2 2 ++ List.replicate 10 4 ++ List.replicate 3 6

theorem payroll_posted_once_payrollOnce :
    (payrollPool payrollCalls payrollLedger).history payrollEvents payrollOnce =
        [.accrued 1, .settled 1, .entered 1] ∧
      ∀ runId, ((payrollPool payrollCalls payrollLedger).history payrollEvents payrollOnce).count
        (.settled runId) ≤ 1 := by
  constructor
  · decide +kernel
  · have honce := payroll_posted_once payrollCalls payrollLedger payrollLedger_isNew payrollOnce
      (by decide +kernel)
    exact fun runId => (honce.1 runId).2.1

/-- Both requests are submitted before either is approved.  The second approval comes after the
reversal, and the two payments take turns. -/
def payrollTwice : List (Fin 7) :=
  [0, 1, 0, 0, 1, 1, 2, 2, 6, 6, 6] ++ ([3, 3, 4, 5] ++ List.replicate 9 4 ++ List.replicate 9 5)

theorem payroll_posted_twice :
    ((payrollPool payrollCalls payrollLedger).history payrollEvents payrollTwice).count
        (.accrued 1) = 2 ∧
      ((payrollPool payrollCalls payrollLedger).history payrollEvents payrollTwice).count
        (.settled 1) = 2 ∧
      (((payrollPool payrollCalls payrollLedger).run (payrollTwice.take 11)).state.find?
        .payrollRun 1).map PayrollRun.status = some .reversed ∧
      (((payrollPool payrollCalls payrollLedger).run (payrollTwice.take 13)).state.find?
        .payrollRun 1).map PayrollRun.status = some .approved ∧
      (((payrollPool payrollCalls payrollLedger).run payrollTwice).state.find?
        .payrollRun 1).map PayrollRun.status = some .paid := by
  refine ⟨?_, ?_, ?_, ?_, ?_⟩ <;> decide +kernel

end NexusEfos
