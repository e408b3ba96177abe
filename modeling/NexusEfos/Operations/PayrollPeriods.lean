/-
Payroll runs over the same days.

A period is created only if it overlaps no other period of its calendar, and it is processed
once.  So of one calendar no employee is paid twice for the same days.  Periods of two calendars
may overlap, and a run pays every employee with an ACTIVE structure, whatever the calendar:
there it is left to the order in which periods are set up and processed.
-/
import NexusEfos.Operations.SalaryStructures

namespace NexusEfos

open Proc

/-! ## What is to hold -/

namespace PayrollPeriod

variable {p p' : PayrollPeriod}

def Covers (p : PayrollPeriod) (t : DateTime) : Prop := p.startDate ≤ t ∧ t ≤ p.endDate

/-- The two periods have a moment in common. -/
def Overlaps (p p' : PayrollPeriod) : Prop := ∃ t, p.Covers t ∧ p'.Covers t

theorem overlaps_iff :
    p.Overlaps p' ↔ max p.startDate p'.startDate ≤ min p.endDate p'.endDate := by
  constructor
  · rintro ⟨t, ⟨hstart, hend⟩, hstart', hend'⟩
    exact (max_le hstart hstart').trans (le_min hend hend')
  · intro h
    refine ⟨max p.startDate p'.startDate, ⟨le_max_left _ _, ?_⟩, le_max_right _ _, ?_⟩
    · exact h.trans (min_le_left _ _)
    · exact h.trans (min_le_right _ _)

instance (p p' : PayrollPeriod) : Decidable (p.Overlaps p') := decidable_of_iff _ overlaps_iff.symm

theorem Overlaps.symm (h : p.Overlaps p') : p'.Overlaps p := by
  obtain ⟨t, hp, hp'⟩ := h
  exact ⟨t, hp', hp⟩

/-- What the creation of a period looks for. -/
theorem Overlaps.meets (h : p.Overlaps p') : p.startDate ≤ p'.endDate ∧ p'.startDate ≤ p.endDate := by
  obtain ⟨t, ⟨hstart, hend⟩, hstart', hend'⟩ := h
  exact ⟨hstart.trans hend', hstart'.trans hend⟩

/-- The days and the calendar of a period. -/
def timing (p : PayrollPeriod) : Id × Id × DateTime × DateTime :=
  (p.institutionId, p.calendarId, p.startDate, p.endDate)

theorem overlaps_congr {q q' : PayrollPeriod} (h : q.timing = p.timing) (h' : q'.timing = p'.timing) :
    q.Overlaps q' ↔ p.Overlaps p' := by
  unfold timing at h h'
  simp only [Prod.mk.injEq] at h h'
  rw [overlaps_iff, overlaps_iff, h.2.2.1, h.2.2.2, h'.2.2.1, h'.2.2.2]

end PayrollPeriod

namespace Db

variable {s t : Db}

/-- A run has an entry for an employee, and this is its period. -/
structure Paid (s : Db) (employeeId runId : Id) (run : PayrollRun) (p : PayrollPeriod) : Prop where
  entry : ∃ id e, s.find? .payrollEntry id = some e ∧ e.payrollRunId = runId ∧
    e.employeeId = employeeId
  found : s.find? .payrollRun runId = some run
  period : s.find? .payrollPeriod run.payrollPeriodId = some p

/-- No employee has entries in two runs of an institution whose periods overlap. -/
def PaysOnce (s : Db) : Prop :=
  ∀ employeeId runId run p runId' run' p', s.Paid employeeId runId run p →
    s.Paid employeeId runId' run' p' → run.institutionId = run'.institutionId →
    p.Overlaps p' → runId = runId'

/-- The same, entry by entry. -/
theorem PaysOnce.entries (h : s.PaysOnce) :
    ∀ e ∈ (s.table .payrollEntry).values, ∀ e' ∈ (s.table .payrollEntry).values,
      e.employeeId = e'.employeeId → ∀ run ∈ s.find? .payrollRun e.payrollRunId,
        ∀ run' ∈ s.find? .payrollRun e'.payrollRunId, run.institutionId = run'.institutionId →
          ∀ p ∈ s.find? .payrollPeriod run.payrollPeriodId,
            ∀ p' ∈ s.find? .payrollPeriod run'.payrollPeriodId, p.Overlaps p' →
              e.payrollRunId = e'.payrollRunId := by
  intro e he e' he' hemployee run hrun run' hrun' hinstitution p hp p' hp' hoverlap
  obtain ⟨id, hid⟩ := OrderedMap.mem_values.mp he
  obtain ⟨id', hid'⟩ := OrderedMap.mem_values.mp he'
  have hpaid : s.Paid e.employeeId e.payrollRunId run p := ⟨⟨id, e, hid, rfl, rfl⟩, hrun, hp⟩
  have hpaid' : s.Paid e.employeeId e'.payrollRunId run' p' :=
    ⟨⟨id', e', hid', rfl, hemployee.symm⟩, hrun', hp'⟩
  exact h _ _ _ _ _ _ _ hpaid hpaid' hinstitution hoverlap

/-- Of one calendar, no two periods overlap. -/
def PeriodsApart (s : Db) : Prop :=
  ∀ id p id' p', s.find? .payrollPeriod id = some p → s.find? .payrollPeriod id' = some p' →
    p.institutionId = p'.institutionId → p.calendarId = p'.calendarId → p.Overlaps p' → id = id'

/-- The periods, runs and entries of payroll. -/
structure PayrollSound (s : Db) : Prop where
  apart : s.PeriodsApart
  oneRun : s.AtMostOne .payrollRun (fun _ => true) PayrollRun.payrollPeriodId
  hasPeriod : ∀ id run, s.find? .payrollRun id = some run →
    ∃ p, s.find? .payrollPeriod run.payrollPeriodId = some p ∧ p.institutionId = run.institutionId
  hasRun : ∀ id e, s.find? .payrollEntry id = some e →
    (s.find? .payrollRun e.payrollRunId).isSome = true
  once : s.PaysOnce

/-- What neither sets up a period nor processes one does to the tables of payroll. -/
structure KeepsPayroll (s t : Db) : Prop where
  periods : SameOn .payrollPeriod PayrollPeriod.timing s t
  runs : SameOn .payrollRun (fun run => (run.institutionId, run.payrollPeriodId)) s t
  entries : t.table .payrollEntry = s.table .payrollEntry

theorem KeepsPayroll.of_agree (h : s.Agree [.payrollPeriod, .payrollRun, .payrollEntry] t) :
    s.KeepsPayroll t where
  periods := .of_table_eq (h _ (by decide))
  runs := .of_table_eq (h _ (by decide))
  entries := h _ (by decide)

theorem KeepsPayroll.trans {u : Db} (h : s.KeepsPayroll t) (h' : t.KeepsPayroll u) :
    s.KeepsPayroll u :=
  ⟨h.periods.trans h'.periods, h.runs.trans h'.runs, h'.entries.trans h.entries⟩

/-- Who is paid for which days does not change. -/
theorem KeepsPayroll.paid (h : s.KeepsPayroll t) {employeeId runId : Id} {run : PayrollRun}
    {p : PayrollPeriod} (hpaid : t.Paid employeeId runId run p) :
    ∃ run₀ p₀, s.Paid employeeId runId run₀ p₀ ∧ run₀.institutionId = run.institutionId ∧
      p₀.timing = p.timing := by
  obtain ⟨run₀, hrun₀, hkey⟩ := h.runs.find?_eq_some hpaid.found
  obtain ⟨hinstitution, hperiod⟩ := Prod.mk.inj hkey
  obtain ⟨p₀, hp₀, htiming⟩ := h.periods.find?_eq_some hpaid.period
  refine ⟨run₀, p₀, ⟨?_, hrun₀, ?_⟩, hinstitution, htiming⟩
  · obtain ⟨id, e, he, hof⟩ := hpaid.entry
    rw [find?, h.entries, ← find?] at he
    exact ⟨id, e, he, hof⟩
  · rw [hperiod]
    exact hp₀

theorem PayrollSound.keep (hs : s.PayrollSound) (h : s.KeepsPayroll t) : t.PayrollSound where
  apart := by
    intro id p id' p' hp hp' hinstitution hcalendar hoverlap
    obtain ⟨p₀, hp₀, htiming⟩ := h.periods.find?_eq_some hp
    obtain ⟨p₀', hp₀', htiming'⟩ := h.periods.find?_eq_some hp'
    have hoverlap₀ := (PayrollPeriod.overlaps_congr htiming htiming').mpr hoverlap
    unfold PayrollPeriod.timing at htiming htiming'
    simp only [Prod.mk.injEq] at htiming htiming'
    apply hs.apart id p₀ id' p₀' hp₀ hp₀' _ _ hoverlap₀
    · rw [htiming.1, htiming'.1, hinstitution]
    · rw [htiming.2.1, htiming'.2.1, hcalendar]
  oneRun := by
    apply hs.oneRun.of_liveBefore
    intro id run hrun _
    obtain ⟨run₀, hrun₀, hkey⟩ := h.runs.find?_eq_some hrun
    exact ⟨run₀, hrun₀, rfl, (Prod.mk.inj hkey).2⟩
  hasPeriod := by
    intro id run hrun
    obtain ⟨run₀, hrun₀, hkey⟩ := h.runs.find?_eq_some hrun
    obtain ⟨hinstitution, hperiod⟩ := Prod.mk.inj hkey
    obtain ⟨p₀, hp₀, hp₀'⟩ := hs.hasPeriod id run₀ hrun₀
    obtain ⟨p, hp, htiming⟩ := h.periods.symm.find?_eq_some hp₀
    refine ⟨p, hperiod ▸ hp, ?_⟩
    rw [show p.institutionId = p₀.institutionId from (Prod.mk.inj htiming).1, hp₀', hinstitution]
  hasRun := by
    intro id e he
    rw [find?, h.entries, ← find?] at he
    obtain ⟨run, hrun⟩ := Option.isSome_iff_exists.mp (hs.hasRun id e he)
    obtain ⟨run', hrun', -⟩ := h.runs.symm.find?_eq_some hrun
    rw [hrun']
    rfl
  once := by
    intro employeeId runId run p runId' run' p' hpaid hpaid' hinstitution hoverlap
    obtain ⟨run₀, p₀, hpaid₀, hrun₀, htiming⟩ := h.paid hpaid
    obtain ⟨run₀', p₀', hpaid₀', hrun₀', htiming'⟩ := h.paid hpaid'
    apply hs.once employeeId runId run₀ p₀ runId' run₀' p₀' hpaid₀ hpaid₀'
    · rw [hrun₀, hrun₀', hinstitution]
    · exact (PayrollPeriod.overlaps_congr htiming htiming').mpr hoverlap

/-! ## A period is set up -/

/-- The period that is created meets no other of its calendar. -/
theorem PayrollSound.createPeriod (hs : s.PayrollSound) {q : PayrollPeriod}
    (hnew : ∀ id p, s.find? .payrollPeriod id = some p → p.institutionId = q.institutionId →
      p.calendarId = q.calendarId → ¬ p.Overlaps q) :
    (s.insert .payrollPeriod q).PayrollSound := by
  have hfresh : s.find? .payrollPeriod (s.nextId .payrollPeriod) = none :=
    OrderedMap.get?_nextKey _
  have hperiod : ∀ id run, s.find? .payrollRun id = some run →
      (s.insert .payrollPeriod q).find? .payrollPeriod run.payrollPeriodId =
        s.find? .payrollPeriod run.payrollPeriodId := by
    intro id run hrun
    obtain ⟨p, hp, -⟩ := hs.hasPeriod id run hrun
    rw [find?_insert, if_neg]
    intro heq
    rw [heq, hfresh] at hp
    exact absurd hp nofun
  have hother : ∀ {m : Model}, m ≠ .payrollPeriod → ∀ id,
      (s.insert .payrollPeriod q).find? m id = s.find? m id :=
    fun hm id => find?_insert_of_ne hm _ _ _
  have hpaid : ∀ {employeeId runId run p},
      (s.insert .payrollPeriod q).Paid employeeId runId run p → s.Paid employeeId runId run p := by
    intro employeeId runId run p hpaid
    have hrun := hpaid.found
    rw [hother (by decide)] at hrun
    refine ⟨?_, hrun, ?_⟩
    · obtain ⟨id, e, he, hof⟩ := hpaid.entry
      rw [hother (by decide)] at he
      exact ⟨id, e, he, hof⟩
    · rw [← hperiod runId run hrun]
      exact hpaid.period
  constructor
  · intro id p id' p' hp hp' hinstitution hcalendar hoverlap
    rw [find?_insert] at hp hp'
    split at hp
    · next hid =>
      split at hp'
      · next hid' => rw [hid, hid']
      · rw [← Option.some.inj hp] at hinstitution hcalendar hoverlap
        exact absurd hoverlap.symm (hnew id' p' hp' hinstitution.symm hcalendar.symm)
    · split at hp'
      · rw [← Option.some.inj hp'] at hinstitution hcalendar hoverlap
        exact absurd hoverlap (hnew id p hp hinstitution hcalendar)
      · exact hs.apart id p id' p' hp hp' hinstitution hcalendar hoverlap
  · exact hs.oneRun.of_table_eq (table_insert_of_ne (by decide) _ _)
  · intro id run hrun
    rw [hother (by decide)] at hrun
    rw [hperiod id run hrun]
    exact hs.hasPeriod id run hrun
  · intro id e he
    rw [hother (by decide)] at he ⊢
    exact hs.hasRun id e he
  · intro employeeId runId run p runId' run' p' h h'
    exact hs.once employeeId runId run p runId' run' p' (hpaid h) (hpaid h')

/-! ## A period is processed -/

/-- No employee who is paid has an entry in a run of the institution whose period belongs to
another calendar and overlaps the period that is processed. -/
def SparesOtherCalendars (s : Db) (x : PayrollProcessing) : Prop :=
  ∀ e ∈ (s.table .payrollEntry).values, e.employeeId ∈ x.employeeIds →
    ∀ run ∈ s.find? .payrollRun e.payrollRunId, run.institutionId = x.institutionId →
      ∀ p ∈ s.find? .payrollPeriod run.payrollPeriodId,
        ∀ q ∈ s.find? .payrollPeriod x.payrollPeriodId,
          p.calendarId ≠ q.calendarId → ¬ p.Overlaps q

instance (s : Db) (x : PayrollProcessing) : Decidable (s.SparesOtherCalendars x) :=
  inferInstanceAs (Decidable (∀ e ∈ (s.table .payrollEntry).values, _))

/-- The run is created with its entries. -/
theorem PayrollSound.createRun (hs : s.PayrollSound) {run : PayrollRun} {lines : List PayrollLine}
    {q : PayrollPeriod} (hq : s.find? .payrollPeriod run.payrollPeriodId = some q)
    (hinstitution : q.institutionId = run.institutionId)
    (hfree : run.payrollPeriodId ∉
      (s.table .payrollRun).values.map PayrollRun.payrollPeriodId)
    (hspares : s.SparesOtherCalendars
      ⟨run.institutionId, run.payrollPeriodId, lines.map PayrollLine.employeeId⟩) :
    (lines.foldl (fun t l => t.insert .payrollEntry (l.entry (s.nextId .payrollRun)))
      (s.insert .payrollRun run)).PayrollSound := by
  have hfresh : s.find? .payrollRun (s.nextId .payrollRun) = none := OrderedMap.get?_nextKey _
  have hruns : ∀ id, (lines.foldl (fun t l => t.insert .payrollEntry
      (l.entry (s.nextId .payrollRun))) (s.insert .payrollRun run)).find? .payrollRun id =
        if id = s.nextId .payrollRun then some run else s.find? .payrollRun id := by
    intro id
    rw [find?_insertEntries (by decide), find?_insert]
  have hperiods : ∀ id, (lines.foldl (fun t l => t.insert .payrollEntry
      (l.entry (s.nextId .payrollRun))) (s.insert .payrollRun run)).find? .payrollPeriod id =
        s.find? .payrollPeriod id := by
    intro id
    rw [find?_insertEntries (by decide), find?_insert_of_ne (by decide)]
  have hentries : ∀ {id e}, (lines.foldl (fun t l => t.insert .payrollEntry
      (l.entry (s.nextId .payrollRun))) (s.insert .payrollRun run)).find? .payrollEntry id = some e →
        s.find? .payrollEntry id = some e ∨ e.payrollRunId = s.nextId .payrollRun ∧
          e.employeeId ∈ lines.map PayrollLine.employeeId := by
    intro id e he
    have hbefore : (s.insert .payrollRun run).find? .payrollEntry id = s.find? .payrollEntry id :=
      find?_insert_of_ne (by decide) _ _ _
    rw [← hbefore]
    exact mem_insertEntries he
  have hunpaid : ∀ id r, s.find? .payrollRun id = some r →
      r.payrollPeriodId ≠ run.payrollPeriodId := by
    intro id r hr heq
    apply hfree
    rw [← heq]
    exact List.mem_map_of_mem (OrderedMap.mem_values.mpr ⟨id, hr⟩)
  -- Whoever is paid was paid before, or is paid by the new run.
  have hpaid : ∀ {employeeId runId r p}, (lines.foldl (fun t l => t.insert .payrollEntry
      (l.entry (s.nextId .payrollRun))) (s.insert .payrollRun run)).Paid employeeId runId r p →
        s.Paid employeeId runId r p ∨ runId = s.nextId .payrollRun ∧ r = run ∧ p = q ∧
          employeeId ∈ lines.map PayrollLine.employeeId := by
    intro employeeId runId r p h
    have hrun := h.found
    have hperiod := h.period
    rw [hruns] at hrun
    rw [hperiods] at hperiod
    obtain ⟨id, e, he, rfl, rfl⟩ := h.entry
    split at hrun
    · next hid =>
      have hr := Option.some.inj hrun
      right
      rw [← hr, hq] at hperiod
      refine ⟨hid, hr.symm, (Option.some.inj hperiod).symm, ?_⟩
      rcases hentries he with hbefore | ⟨-, hemployee⟩
      · have hthere := hs.hasRun id e hbefore
        rw [hid, hfresh] at hthere
        exact absurd hthere nofun
      · exact hemployee
    · next hid =>
      left
      rcases hentries he with hbefore | ⟨hnew, -⟩
      · exact ⟨⟨id, e, hbefore, rfl, rfl⟩, hrun, hperiod⟩
      · exact absurd hnew hid
  -- The new run shares no day with a run that pays one of its employees.
  have hnew : ∀ {employeeId runId r p}, s.Paid employeeId runId r p →
      employeeId ∈ lines.map PayrollLine.employeeId → r.institutionId = run.institutionId →
        ¬ p.Overlaps q := by
    intro employeeId runId r p h hemployee hsame hoverlap
    obtain ⟨id, e, he, rfl, rfl⟩ := h.entry
    by_cases hcalendar : p.calendarId = q.calendarId
    · obtain ⟨p', hp', hof⟩ := hs.hasPeriod _ r h.found
      rw [h.period] at hp'
      rw [← Option.some.inj hp'] at hof
      refine hunpaid _ r h.found (hs.apart _ p _ q h.period hq ?_ hcalendar hoverlap)
      rw [hof, hinstitution, hsame]
    · exact hspares e (OrderedMap.mem_values.mpr ⟨id, he⟩) hemployee r h.found hsame p h.period q hq
        hcalendar hoverlap
  constructor
  · intro id p id' p' hp hp'
    rw [hperiods] at hp hp'
    exact hs.apart id p id' p' hp hp'
  · intro id r id' r' hr hr' _ _ hkey
    rw [hruns] at hr hr'
    split at hr
    · next hid =>
      split at hr'
      · next hid' => rw [hid, hid']
      · rw [← Option.some.inj hr] at hkey
        exact absurd hkey.symm (hunpaid id' r' hr')
    · split at hr'
      · rw [← Option.some.inj hr'] at hkey
        exact absurd hkey (hunpaid id r hr)
      · exact hs.oneRun id r id' r' hr hr' rfl rfl hkey
  · intro id r hr
    rw [hperiods]
    rw [hruns] at hr
    split at hr
    · rw [← Option.some.inj hr]
      exact ⟨q, hq, hinstitution⟩
    · exact hs.hasPeriod id r hr
  · intro id e he
    rw [hruns]
    split
    · rfl
    · next hne =>
      rcases hentries he with hbefore | ⟨hrun, -⟩
      · exact hs.hasRun id e hbefore
      · exact absurd hrun hne
  · intro employeeId runId r p runId' r' p' h h' hsame hoverlap
    rcases hpaid h with hbefore | ⟨hid, hr, hp, hemployee⟩
    · rcases hpaid h' with hbefore' | ⟨hid', hr', hp', hemployee'⟩
      · exact hs.once employeeId runId r p runId' r' p' hbefore hbefore' hsame hoverlap
      · rw [hr'] at hsame
        rw [hp'] at hoverlap
        exact absurd hoverlap (hnew hbefore hemployee' hsame)
    · rcases hpaid h' with hbefore' | ⟨hid', hr', hp', hemployee'⟩
      · rw [hr] at hsame
        rw [hp] at hoverlap
        exact absurd hoverlap.symm (hnew hbefore' hemployee hsame.symm)
      · rw [hid, hid']

end Db

/-- A statement that processes a period spares those whom another calendar pays for its days. -/
def Access.SparesOtherCalendars (lab : Access) (s : Db) : Prop :=
  ∀ x ∈ lab.processes, s.SparesOtherCalendars x

instance (lab : Access) (s : Db) : Decidable (lab.SparesOtherCalendars s) :=
  inferInstanceAs (Decidable (∀ x ∈ lab.processes, s.SparesOtherCalendars x))

/-! ## The operations -/

section Operations

variable {s : Db}

/-- Executed with nothing else in between, and if its statements spare other calendars, a process
keeps the tables of payroll sound. -/
abbrev KeepsPayrollSound {α : Type} (p : Handler α) (s : Db) : Prop :=
  p.MovesAlong Access.SparesOtherCalendars (fun s t => s.PayrollSound → t.PayrollSound) s

theorem keepsPayrollSound_refl (s : Db) : s.PayrollSound → s.PayrollSound := id

theorem keepsPayrollSound_of_every {α : Type} {p : Handler α} (hp : p.Every Db.KeepsPayroll)
    (s : Db) : KeepsPayrollSound p s := by
  intro _ hs
  exact hs.keep (hp.run (fun s => .of_agree (.refl s)) (fun h h' => h.trans h') s)

theorem keepsPayrollSound_quiet {α : Type} {p : Handler α}
    (hp : Quiet [.payrollPeriod, .payrollRun, .payrollEntry] p) (s : Db) : KeepsPayrollSound p s :=
  keepsPayrollSound_of_every (hp.imp fun _ _ h => .of_agree h) s

/-- What comes after a reading goes on in the same state. -/
theorem keepsPayrollSound_query {α β : Type} {f : Db → β} {k : β → Handler α}
    (hk : KeepsPayrollSound (k (f s)) s) : KeepsPayrollSound (query f >>= k) s :=
  fun hmeets => hk hmeets.2

theorem createPayrollPeriod_keepsSound (auth : Auth) (body : PayrollPeriodRequest) :
    KeepsPayrollSound (createPayrollPeriod auth body) s := by
  refine MovesAlong.require keepsPayrollSound_refl fun _ => ?_
  refine keepsPayrollSound_query ?_
  refine MovesAlong.require keepsPayrollSound_refl fun hnone => ?_
  intro _ hs
  have hcreated := hs.createPeriod (q :=
    { institutionId := auth.institutionId, calendarId := body.calendarId, name := body.name,
      startDate := body.startDate, endDate := body.endDate, payDate := body.payDate }) ?_
  · exact hcreated.keep (.of_agree (Db.Agree.insert (by decide) _ _))
  · intro id p hp hinstitution hcalendar hoverlap
    have hmem : (id, p) ∈ (s.table .payrollPeriod).entries := OrderedMap.get?_eq_some.mp hp
    have hpassed := List.find?_eq_none.mp (Option.isNone_iff_eq_none.mp hnone) (id, p) hmem
    exact hpassed (decide_eq_true ⟨hinstitution, hcalendar, hoverlap.meets.1, hoverlap.meets.2⟩)

/-- The run is created, and then the period is marked. -/
theorem createPayrollRun_keepsSound {run : PayrollRun} {lines : List PayrollLine} {q : PayrollPeriod}
    (hq : s.find? .payrollPeriod run.payrollPeriodId = some q)
    (hinstitution : q.institutionId = run.institutionId) {k : Id → Handler Id}
    (hk : ∀ id, (k id).Every Db.KeepsPayroll) :
    KeepsPayrollSound (createPayrollRun run lines >>= k) s := by
  refine MovesAlong.bind (fun _ _ _ h h' hs => h' (h hs)) ?_ fun id t _ =>
    keepsPayrollSound_of_every (hk id) t
  intro hmeets hs
  unfold createPayrollRun
  rw [run_attempt]
  split
  · exact hs
  · next hfree => exact hs.createRun hq hinstitution hfree (hmeets.1 _ rfl)

theorem processPayroll_keepsSound (auth : Auth) (now : DateTime) (periodId : Id) :
    KeepsPayrollSound (processPayroll auth now periodId) s := by
  refine keepsPayrollSound_query (MovesAlong.orFail keepsPayrollSound_refl fun q hq => ?_)
  refine keepsPayrollSound_query (MovesAlong.require keepsPayrollSound_refl fun _ => ?_)
  refine keepsPayrollSound_query (MovesAlong.orFail keepsPayrollSound_refl fun taxTable _ => ?_)
  refine keepsPayrollSound_query (MovesAlong.orFail keepsPayrollSound_refl fun rates _ => ?_)
  obtain ⟨ssnitEmployee, ssnitEmployer, tier2⟩ := rates
  refine keepsPayrollSound_query (keepsPayrollSound_query ?_)
  obtain ⟨hperiod, hinstitution⟩ := Option.filter_eq_some_iff.mp hq
  refine createPayrollRun_keepsSound hperiod (of_decide_eq_true hinstitution) fun id => ?_
  refine Every.bind ⟨fun t => ?_, fun _ => trivial⟩ fun _ => ?_
  · dsimp only
    split
    · exact ⟨.modify _ _ fun _ => rfl, .of_table_eq (Db.table_modify_of_ne (by decide) _ _ _),
        Db.table_modify_of_ne (by decide) _ _ _⟩
    · exact .of_agree (.refl t)
  · have hlog : Quiet [.payrollPeriod, .payrollRun, .payrollEntry] (create .auditLog
        { institutionId := auth.institutionId, userId := some auth.userId,
          action := "payroll_run.process", resource := "payroll_run", resourceId := some id }) :=
      Quiet.create (by decide) _
    exact (hlog.imp fun _ _ h => .of_agree h).bind fun _ => trivial

/-- The operations that set up payroll and process it, and what else leaves its tables alone. -/
inductive PayrollOperation
  | createCalendar (auth : Auth) (name : String) (frequency : PayFrequency)
      (payDayOfMonth : Option ℕ)
  | createPeriod (auth : Auth) (body : PayrollPeriodRequest)
  | process (auth : Auth) (now : DateTime) (periodId : Id)
  | other (p : Handler Unit) (h : p.Every Db.KeepsPayroll)

def PayrollOperation.handler : PayrollOperation → Handler Unit
  | createCalendar auth name frequency payDayOfMonth => do
    let _ ← createPayrollCalendar auth name frequency payDayOfMonth
  | createPeriod auth body => do let _ ← createPayrollPeriod auth body
  | process auth now periodId => do let _ ← processPayroll auth now periodId
  | other p _ => p

theorem PayrollOperation.keepsSound (op : PayrollOperation) (s : Db) :
    KeepsPayrollSound op.handler s := by
  have htrans : ∀ s t u : Db, (s.PayrollSound → t.PayrollSound) →
      (t.PayrollSound → u.PayrollSound) → s.PayrollSound → u.PayrollSound :=
    fun _ _ _ h h' hs => h' (h hs)
  have hdone : ∀ t : Db, KeepsPayrollSound (pure () : Handler Unit) t := fun _ _ hs => hs
  cases op with
  | createCalendar auth name frequency payDayOfMonth =>
    refine keepsPayrollSound_quiet ?_ s
    refine ((Quiet.require _ _).bind fun _ => ?_).bind fun _ => Quiet.pure _
    refine (Quiet.create (by decide) _).bind fun _ => ?_
    exact (Quiet.create (by decide) _).bind fun _ => Quiet.pure _
  | createPeriod auth body =>
    exact (createPayrollPeriod_keepsSound auth body).bind htrans fun _ t _ => hdone t
  | process auth now periodId =>
    exact (processPayroll_keepsSound auth now periodId).bind htrans fun _ t _ => hdone t
  | other p h => exact keepsPayrollSound_of_every h s

end Operations

/-- Whatever is set up and processed in whatever order, no employee is paid twice for the same
days, if no period is processed that overlaps a period of another calendar for which one of the
employees has been paid. -/
theorem paid_once_for_days (ops : List PayrollOperation) (s : Db) (hs : s.PayrollSound)
    (hspares : MeetsAll Access.SparesOtherCalendars (ops.map PayrollOperation.handler) s) :
    (runAll (ops.map PayrollOperation.handler) s).PaysOnce := by
  have hsound : (runAll (ops.map PayrollOperation.handler) s).PayrollSound := by
    refine runAll_induction ?_ hs hspares
    intro p hp t ht hmeets
    obtain ⟨op, -, rfl⟩ := List.mem_map.mp hp
    exact op.keepsSound t hmeets ht
  exact hsound.once

/-- An institution that is ready to pay its one employee. -/
def payrollOffice : Db :=
  let rate := fun name =>
    ({ institutionId := 1, name, rate := 10, effectiveDate := 0, active := true } :
      StatutoryContributionRate)
  ((((Db.empty.insert .taxTable
    { institutionId := 1, name := "Rates", effectiveDate := 0, active := true }).insert
    .statutoryContributionRate (rate "SSNIT Employee")).insert
    .statutoryContributionRate (rate "SSNIT Employer Tier 1")).insert
    .statutoryContributionRate (rate "Tier 2 Employer")).insert .employeeSalaryStructure
      { institutionId := 1, employeeId := 7, basicSalary := 100000, effectiveDate := 0,
        createdById := 1, status := .active }

theorem payrollOffice_sound : payrollOffice.PayrollSound where
  apart := fun _ _ _ _ hp => absurd hp nofun
  oneRun := fun _ _ _ _ hrun => absurd hrun nofun
  hasPeriod := fun _ _ hrun => absurd hrun nofun
  hasRun := fun _ _ he => absurd he nofun
  once := fun _ _ _ _ _ _ _ hpaid => absurd hpaid.found nofun

/-- A monthly and a weekly calendar, a period of each, and the processing of both. -/
def payrollTwoCalendars (weekStart weekEnd : DateTime) : List PayrollOperation :=
  [.createCalendar ⟨1, 1⟩ "Monthly" .monthly none, .createCalendar ⟨1, 1⟩ "Weekly" .weekly none,
    .createPeriod ⟨1, 1⟩ ⟨1, "January", 0, 30, 30⟩,
    .createPeriod ⟨1, 1⟩ ⟨2, "Week", weekStart, weekEnd, weekEnd⟩,
    .process ⟨1, 1⟩ 40 1, .process ⟨1, 1⟩ 40 2]

/-- The week after January. -/
theorem paid_once_for_days_payrollTwoCalendars :
    let s := runAll ((payrollTwoCalendars 31 37).map PayrollOperation.handler) payrollOffice
    (s.table .payrollEntry).values.map (fun e => (e.payrollRunId, e.employeeId)) =
      [(1, 7), (2, 7)] ∧ s.PaysOnce := by
  constructor
  · decide +kernel
  · exact paid_once_for_days (payrollTwoCalendars 31 37) payrollOffice payrollOffice_sound
      (by decide +kernel)

/-- A week of January. -/
theorem paid_twice_for_days :
    ¬ (runAll ((payrollTwoCalendars 8 14).map PayrollOperation.handler) payrollOffice).PaysOnce := by
  intro honce
  exact absurd honce.entries (by decide +kernel)

end NexusEfos
