/-
The dates of the scheduled money: `lib/scheduler.ts`, and the calls that start its loops at once.

The nightly run of a day is claimed by one process.  The loops themselves are guarded by nothing:
an item is read when it is due, its money is moved, and only after that is its date set on.  A loop
that is started by hand meanwhile, or after a process has stopped between the two, finds the item
at the old date.  In a run in which money is moved for an item only while it still stands at the
date it was read with, and after every earlier date of it has been settled, each date moves money
once.
-/
import Mathlib.Data.Fin.VecNotation
import Mathlib.Data.Fintype.Basic
import NexusEfos.Calendar
import NexusEfos.Library.History
import NexusEfos.Savings.Steps
import NexusEfos.Ledger.RecurringJournals

namespace NexusEfos

open Proc

/-! ## The code -/

/-- The row by which a process claims the run of a day. -/
def claimScheduledJobRun (jobType : String) (runDate : DateTime) (processId : String) : Handler Id :=
  Proc.attempt {} fun s =>
    if (s.table .scheduledJobRun).values.any fun r => r.jobType = jobType ∧ r.runDate = runDate then
      (.error uniqueViolation, s)
    else
      (.ok (s.nextId .scheduledJobRun),
        s.insert .scheduledJobRun { jobType, runDate, claimedByProcessId := processId })

/-- The job itself, inside the `try` of `claimAndRun`. -/
def runClaimed (now : DateTime) (claim : Id) (fn : Handler Unit) : Handler Unit := do
  fn
  let _ ← update .scheduledJobRun claim fun r =>
    { r with status := .completed, completedAt := some now }

/-- `message` is the text of an error. -/
def claimAndRun (message : Failure → String) (jobType : String) (now : DateTime)
    (processId : String) (fn : Handler Unit) : Handler Unit := do
  match ← (claimScheduledJobRun jobType (startOfDay now) processId).outcome with
  | .error err => Proc.require (err = uniqueViolation) err
  | .ok claim =>
    match ← (runClaimed now claim fn).outcome with
    | .ok _ => pure ()
    | .error err =>
      let _ ← update .scheduledJobRun claim fun r =>
        { r with status := .failed, completedAt := some now, error := some (message err) }
      Proc.fail err

/-- What starts one of the loops: the nightly run of a process, or
`POST /standing-instructions/run-now` and `POST /recurring-journals/run-now`. -/
inductive ScheduledRun
  | nightlyInstructions (now : DateTime) (processId : String)
  | nightlyJournals (now : DateTime) (processId : String)
  | instructionsNow (now : DateTime)
  | journalsNow (now : DateTime)

def ScheduledRun.handler (message : Failure → String) : ScheduledRun → Handler Unit
  | nightlyInstructions now processId =>
    claimAndRun message "STANDING_INSTRUCTIONS" now processId (runStandingInstructions now)
  | nightlyJournals now processId =>
    claimAndRun message "RECURRING_JOURNALS" now processId (runRecurringJournals now)
  | instructionsNow now => runStandingInstructions now
  | journalsNow now => runRecurringJournals now

/-! ## What the loops do to the items -/

inductive DateMove
  | executed | advanced
  deriving DecidableEq

/-- The money of a date of an item is moved, or the item is set on from that date. -/
structure DateEvent where
  move : DateMove
  item : ScheduledItem
  date : DateTime
  deriving DecidableEq

/-- A date is executed when its transaction or its journal is committed. -/
def dateEvents (lab : Access) (s t : Db) : List DateEvent :=
  (match lab.executes with
    | some e =>
      if Db.Creates .savingsTransaction s t ∨ Db.Creates .journal s t then [⟨.executed, e.1, e.2⟩]
      else []
    | none => []) ++ lab.advances.toList.map fun e => ⟨.advanced, e.1, e.2⟩

/-- The date an item stands at, and the rule by which it repeats. -/
structure Recurrence where
  date : DateTime
  frequency : StandingInstructionFrequency
  customIntervalDays : Option ℤ

def Recurrence.next (r : Recurrence) : Recurrence :=
  { r with date := nextExecutionDate r.date r.frequency r.customIntervalDays }

def StandingInstruction.recurrence (si : StandingInstruction) : Recurrence :=
  ⟨si.nextExecutionDate, si.frequency, si.customIntervalDays⟩

def RecurringJournal.recurrence (rj : RecurringJournal) : Recurrence :=
  ⟨rj.nextExecutionDate, rj.frequency, rj.customIntervalDays⟩

def Db.recurrence (s : Db) : ScheduledItem → Option Recurrence
  | .standingInstruction id =>
    (s.find? .standingInstruction id).map StandingInstruction.recurrence
  | .recurringJournal id => (s.find? .recurringJournal id).map RecurringJournal.recurrence

/-- The date an item stands at. -/
def Db.scheduledFor (s : Db) (item : ScheduledItem) : Option DateTime :=
  (s.recurrence item).map Recurrence.date

/-- An instruction whose destination is not named: its executions only set the date on. -/
def StandingInstruction.Idle (si : StandingInstruction) : Prop :=
  (si.type = .internalTransfer ∧ si.destinationAccountId = none) ∨
    (si.type = .loanRepayment ∧ si.destinationLoanId = none)

/-- No execution of the item moves money. -/
def Db.Idle (s : Db) : ScheduledItem → Prop
  | .standingInstruction id => ∀ si, s.find? .standingInstruction id = some si → si.Idle
  | .recurringJournal _ => False

/-- The statements that are made in the loops. -/
inductive DateStep (lab : Access) (s : Db) (m : Multiset (ScheduledItem × DateTime)) (t : Db) :
    Multiset (ScheduledItem × DateTime) → Prop
  | keep (hevents : dateEvents lab s t = [])
      (hdates : ∀ item, t.scheduledFor item = s.scheduledFor item) : DateStep lab s m t m
  | execute (item : ScheduledItem) (date : DateTime) (hm : m = 0)
      (hlab : lab.executes = some (item, date))
      (hevents : dateEvents lab s t = [⟨.executed, item, date⟩]) (hmoves : ¬ s.Idle item)
      (hdates : ∀ item, t.scheduledFor item = s.scheduledFor item) :
      DateStep lab s m t {(item, date)}
  | advance (item : ScheduledItem) (date next : DateTime)
      (howed : m = {(item, date)} ∨ m = 0 ∧ s.Idle item)
      (hevents : dateEvents lab s t = [⟨.advanced, item, date⟩]) (hnext : date + msPerDay ≤ next)
      (hdates : ∀ item', t.scheduledFor item' =
        if item' = item then (s.scheduledFor item).map fun _ => next else s.scheduledFor item') :
      DateStep lab s m t 0

/-- The protocol of the loops: the debt is the date that a process has executed and not set on. -/
def dateProtocol : Protocol Access Db (Multiset (ScheduledItem × DateTime)) where
  rely := fun s t => ∀ item, t.Idle item ↔ s.Idle item
  guar := DateStep
  refl := fun _ _ => Iff.rfl
  trans := fun h h' item => (h' item).trans (h item)

/-- A label that moves no money of an item and sets none on. -/
def Access.SparesDates (lab : Access) : Prop := lab.executes = none ∧ lab.advances = none

theorem dateEvents_of_spares {lab : Access} (h : lab.SparesDates) (s t : Db) :
    dateEvents lab s t = [] := by
  rw [dateEvents, h.1, h.2]
  rfl

/-- The tables of the items. -/
abbrev itemTables : List Model := [.standingInstruction, .recurringJournal]

section Items

variable {s t : Db} {id : Id} {item : ScheduledItem}

theorem Db.Agree.recurrence (h : s.Agree itemTables t) (item : ScheduledItem) :
    t.recurrence item = s.recurrence item := by
  cases item with
  | standingInstruction id => rw [Db.recurrence, Db.recurrence, h.find? (by decide)]
  | recurringJournal id => rw [Db.recurrence, Db.recurrence, h.find? (by decide)]

theorem Db.Agree.scheduledFor (h : s.Agree itemTables t) (item : ScheduledItem) :
    t.scheduledFor item = s.scheduledFor item := congrArg _ (h.recurrence item)

theorem Db.Agree.idle (h : s.Agree itemTables t) (item : ScheduledItem) :
    t.Idle item ↔ s.Idle item := by
  cases item with
  | standingInstruction id => rw [Db.Idle, Db.Idle, h.find? (by decide)]
  | recurringJournal id => exact Iff.rfl

theorem recurrence_modifyInstruction (s : Db) (id : Id)
    (f : StandingInstruction → StandingInstruction) (item : ScheduledItem) :
    (s.modify .standingInstruction id f).recurrence item =
      if item = .standingInstruction id then
        (s.find? .standingInstruction id).map fun si => (f si).recurrence
      else s.recurrence item := by
  cases item with
  | recurringJournal id' =>
    rw [Db.recurrence, Db.find?_modify_of_ne (by decide), if_neg nofun]
    rfl
  | standingInstruction id' =>
    rw [Db.recurrence, Db.find?_modify]
    by_cases hid : id' = id
    · subst hid
      rw [if_pos rfl, if_pos rfl, Option.map_map]
      rfl
    · have hne : ScheduledItem.standingInstruction id' ≠ .standingInstruction id :=
        fun heq => hid (ScheduledItem.standingInstruction.inj heq)
      rw [if_neg hid, if_neg hne]
      rfl

theorem recurrence_modifyRecurring (s : Db) (id : Id)
    (f : RecurringJournal → RecurringJournal) (item : ScheduledItem) :
    (s.modify .recurringJournal id f).recurrence item =
      if item = .recurringJournal id then
        (s.find? .recurringJournal id).map fun rj => (f rj).recurrence
      else s.recurrence item := by
  cases item with
  | standingInstruction id' =>
    rw [Db.recurrence, Db.find?_modify_of_ne (by decide), if_neg nofun]
    rfl
  | recurringJournal id' =>
    rw [Db.recurrence, Db.find?_modify]
    by_cases hid : id' = id
    · subst hid
      rw [if_pos rfl, if_pos rfl, Option.map_map]
      rfl
    · have hne : ScheduledItem.recurringJournal id' ≠ .recurringJournal id :=
        fun heq => hid (ScheduledItem.recurringJournal.inj heq)
      rw [if_neg hid, if_neg hne]
      rfl

/-- A rewrite that leaves the recurrence of an instruction alone. -/
theorem recurrence_modifyInstruction_of_eq {f : StandingInstruction → StandingInstruction}
    (hf : ∀ si, (f si).recurrence = si.recurrence) (s : Db) (id : Id) (item : ScheduledItem) :
    (s.modify .standingInstruction id f).recurrence item = s.recurrence item := by
  rw [recurrence_modifyInstruction]
  split
  · next heq =>
    subst heq
    simp only [hf]
    rfl
  · rfl

theorem recurrence_modifyRecurring_of_eq {f : RecurringJournal → RecurringJournal}
    (hf : ∀ rj, (f rj).recurrence = rj.recurrence) (s : Db) (id : Id) (item : ScheduledItem) :
    (s.modify .recurringJournal id f).recurrence item = s.recurrence item := by
  rw [recurrence_modifyRecurring]
  split
  · next heq =>
    subst heq
    simp only [hf]
    rfl
  · rfl

theorem idle_modifyInstruction {f : StandingInstruction → StandingInstruction}
    (hf : ∀ si, (f si).Idle ↔ si.Idle) (s : Db) (id : Id) (item : ScheduledItem) :
    (s.modify .standingInstruction id f).Idle item ↔ s.Idle item := by
  cases item with
  | recurringJournal id' => exact Iff.rfl
  | standingInstruction id' =>
    unfold Db.Idle
    dsimp only
    rw [Db.find?_modify]
    by_cases hid : id' = id
    · rw [if_pos hid]
      constructor
      · intro h si hrow
        exact (hf si).mp (h (f si) (congrArg (Option.map f) hrow))
      · intro h si' hsi'
        obtain ⟨si, hrow, rfl⟩ := Option.map_eq_some_iff.mp hsi'
        exact (hf si).mpr (h si hrow)
    · rw [if_neg hid]

theorem idle_modifyRecurring (s : Db) (id : Id) (f : RecurringJournal → RecurringJournal)
    (item : ScheduledItem) :
    (s.modify .recurringJournal id f).Idle item ↔ s.Idle item := by
  cases item with
  | recurringJournal id' => exact Iff.rfl
  | standingInstruction id' =>
    rw [Db.Idle, Db.Idle, Db.find?_modify_of_ne (by decide)]

theorem dateProtocol_allowsSparing :
    dateProtocol.AllowsSparing Access.SparesDates itemTables := by
  intro lab s t m hlab hsame
  exact ⟨hsame.idle, .keep (dateEvents_of_spares hlab s t) hsame.scheduledFor⟩

end Items

/-- An update of another table. -/
theorem spares_update {model : Model} (hm : model ∉ itemTables) (id : Id)
    (f : Row model → Row model) : Spares Access.SparesDates itemTables (update model id f) :=
  ⟨fun s => ⟨⟨rfl, rfl⟩, (Quiet.update hm id f).1 s⟩, fun _ => trivial⟩

theorem spares_applyLinesById (accountById : Id → Option GLAccount) (lines : List LineInput) :
    Spares Access.SparesDates itemTables (applyLinesById accountById lines) := by
  apply EveryStep.forEach
  intro l _
  apply EveryStep.orFail_bind
  intro a _
  exact EveryStep.bind (spares_update (by decide) _ _) fun _ => trivial

section Follows

variable {s : Db} {siId rjId : Id} {si : StandingInstruction} {rj : RecurringJournal}
  {m : Multiset (ScheduledItem × DateTime)}

/-- What has come to no error has set on what it has executed. -/
abbrev DatesSettled (_s : Db) (m : Multiset (ScheduledItem × DateTime)) (r : Except Failure Unit) :
    Prop := r = .ok () → m = 0

/-- The last statement of a turn: the date of the item is set on, if the item is there. -/
theorem setOn_follows {model : Model} {id : Id} {f : Row model → Row model} {lab : Access}
    {item : ScheduledItem} {date next : DateTime} (hnext : date + msPerDay ≤ next)
    (hevents : ∀ t u, dateEvents lab t u = [⟨.advanced, item, date⟩])
    (hmoves : ∀ (t : Db) item, (t.modify model id f).Idle item ↔ t.Idle item)
    (hdates : ∀ (t : Db) item', (t.modify model id f).scheduledFor item' =
      if item' = item then (t.scheduledFor item).map fun _ => next else t.scheduledFor item')
    (hnone : ∀ t : Db, t.find? model id = none → t.scheduledFor item = none)
    (howed : m = {(item, date)} ∨ m = 0 ∧ s.Idle item) :
    (do let _ ← updateAs lab model id f : Handler Unit).Follows dateProtocol DatesSettled s m := by
  intro t ht
  have howed' : m = {(item, date)} ∨ m = 0 ∧ t.Idle item :=
    howed.imp (fun h => h) fun h => ⟨h.1, (ht item).mpr h.2⟩
  cases hrow : t.find? model id with
  | none =>
    simp only [hrow]
    refine ⟨0, fun _ => Iff.rfl, .advance item date next howed' (hevents t t) hnext ?_,
      fun _ => rfl⟩
    intro item'
    by_cases heq : item' = item
    · subst heq
      rw [if_pos rfl, hnone t hrow]
      rfl
    · rw [if_neg heq]
  | some row =>
    simp only [hrow]
    exact ⟨0, hmoves t, .advance item date next howed' (hevents t _) hnext (hdates t),
      fun _ => rfl⟩

theorem recordExecution_setsOn
    (howed : m = {(.standingInstruction siId, si.nextExecutionDate)} ∨
      m = 0 ∧ s.Idle (.standingInstruction siId)) :
    (recordExecution siId si).Follows dateProtocol DatesSettled s m := by
  apply dateProtocol_allowsSparing.first
  · exact Spares.createAs (L := Access.SparesDates) ⟨rfl, rfl⟩ (by decide) _
  · intro t _ ht
    apply setOn_follows (add_day_le_nextExecutionDate _ _ _) (fun _ _ => rfl)
    · intro u item
      apply idle_modifyInstruction
      exact fun _ => Iff.rfl
    · intro u item'
      rw [Db.scheduledFor, Db.scheduledFor, recurrence_modifyInstruction, Db.recurrence]
      split
      · simp only [Option.map_map, Function.comp_def]
        rfl
      · rfl
    · intro u hrow
      rw [Db.scheduledFor, Db.recurrence, hrow]
      rfl
    · exact howed.imp (fun h => h) fun h => ⟨h.1, (ht _).mpr h.2⟩
  · exact fun _ _ => nofun

theorem recordRecurring_setsOn (journalId : Id) :
    (recordRecurring rjId rj journalId).Follows dateProtocol DatesSettled s
      {(.recurringJournal rjId, rj.nextExecutionDate)} := by
  apply dateProtocol_allowsSparing.first
  · exact Spares.create (L := Access.SparesDates) ⟨rfl, rfl⟩ (by decide) _
  · intro t _ _
    apply setOn_follows (add_day_le_nextExecutionDate _ _ _) (fun _ _ => rfl)
    · intro u item
      exact idle_modifyRecurring u rjId _ item
    · intro u item'
      rw [Db.scheduledFor, Db.scheduledFor, recurrence_modifyRecurring, Db.recurrence]
      split
      · simp only [Option.map_map, Function.comp_def]
        rfl
      · rfl
    · intro u hrow
      rw [Db.scheduledFor, Db.recurrence, hrow]
      rfl
    · exact .inl rfl
  · exact fun _ _ => nofun

/-- A rewrite of an item that leaves its date alone. -/
theorem updateKeeping_follows {model : Model} {id : Id} {f : Row model → Row model} {lab : Access}
    {k : Row model → Handler Unit} (hlab : lab.SparesDates)
    (hmoves : ∀ (t : Db) item, (t.modify model id f).Idle item ↔ t.Idle item)
    (hdates : ∀ (t : Db) item, (t.modify model id f).scheduledFor item = t.scheduledFor item)
    (hk : ∀ t row, (k row).Follows dateProtocol DatesSettled t 0) :
    (updateAs lab model id f >>= k).Follows dateProtocol DatesSettled s 0 := by
  intro t _
  cases hrow : t.find? model id with
  | none =>
    simp only [hrow]
    exact ⟨0, fun _ => Iff.rfl, .keep (dateEvents_of_spares hlab t t) fun _ => rfl, nofun⟩
  | some row =>
    simp only [hrow]
    exact ⟨0, hmoves t, .keep (dateEvents_of_spares hlab t _) (hdates t), hk _ _⟩

theorem failInsufficient_keepsDates (reason : String) :
    (failInsufficient siId si reason).Follows dateProtocol DatesSettled s 0 := by
  apply updateKeeping_follows ⟨rfl, rfl⟩
  · intro t item
    apply idle_modifyInstruction
    exact fun _ => Iff.rfl
  · intro t item
    refine congrArg _ (recurrence_modifyInstruction_of_eq ?_ t siId item)
    exact fun _ => rfl
  · intro t _
    apply dateProtocol_allowsSparing.first
    · exact Spares.createAs (L := Access.SparesDates) ⟨rfl, rfl⟩ (by decide) _
    · exact fun _ _ _ _ => rfl
    · exact fun _ _ => nofun

theorem failRecurring_keepsDates (reason : String) :
    (failRecurring rjId rj reason).Follows dateProtocol DatesSettled s 0 := by
  apply updateKeeping_follows ⟨rfl, rfl⟩
  · exact fun t item => idle_modifyRecurring t rjId _ item
  · intro t item
    refine congrArg _ (recurrence_modifyRecurring_of_eq ?_ t rjId item)
    exact fun _ => rfl
  · intro t _
    apply dateProtocol_allowsSparing.first
    · exact Spares.create (L := Access.SparesDates) ⟨rfl, rfl⟩ (by decide) _
    · exact fun _ _ _ _ => rfl
    · exact fun _ _ => nofun

/-- What a run knows of an instruction it has read. -/
abbrev Db.KnowsIdle (s : Db) (siId : Id) (si : StandingInstruction) : Prop :=
  s.Idle (.standingInstruction siId) ↔ si.Idle

/-- The transaction that moves the money of an instruction, and what is recorded after it. -/
theorem executes_setsOn {lab : Access} {body : Handler Unit}
    (hexecutes : lab.executes = some (.standingInstruction siId, si.nextExecutionDate))
    (hadvances : lab.advances = none) (hquiet : Quiet itemTables body)
    (hcreates : ∀ t t', body.run t = (.ok (), t') → Db.Creates .savingsTransaction t t')
    (h : s.KnowsIdle siId si) (hbusy : ¬ si.Idle) :
    (Proc.transaction lab body >>= fun _ => recordExecution siId si).Follows dateProtocol
      DatesSettled s 0 := by
  apply Follows.transaction
  · intro t _ t' ht hrun
    have hsame : t.Agree itemTables t' := by simpa only [hrun] using hquiet.run t
    have hevents : dateEvents lab t t' =
        [⟨.executed, .standingInstruction siId, si.nextExecutionDate⟩] := by
      rw [dateEvents, hexecutes, hadvances]
      dsimp only
      rw [if_pos (.inl (hcreates t t' hrun))]
      rfl
    refine ⟨_, hsame.idle, .execute _ _ rfl hexecutes hevents ?_ hsame.scheduledFor, ?_⟩
    · exact fun hidle => hbusy (h.mp ((ht _).mp hidle))
    · exact recordExecution_setsOn (.inl rfl)
  · intro t e _
    have hevents : dateEvents lab t t = [] := by
      rw [dateEvents, hexecutes, hadvances]
      dsimp only
      rw [if_neg (not_or.mpr ⟨Db.not_creates rfl, Db.not_creates rfl⟩)]
      rfl
    exact ⟨.keep hevents fun _ => rfl, nofun⟩

/-- Another row does not undo what was created. -/
theorem Db.Creates.insert {model : Model} {s t : Db} (h : Db.Creates model s t) (row : Row model) :
    Db.Creates model s (t.insert model row) := by
  unfold Db.Creates at h ⊢
  rw [Db.find?_insert]
  split
  · rfl
  · exact h

theorem Db.creates_insert_of_table_eq {model : Model} {s t : Db}
    (h : t.table model = s.table model) (row : Row model) :
    Db.Creates model s (t.insert model row) := by
  have hnew : (t.insert model row).table model = (s.insert model row).table model := by
    rw [Db.table_insert_self, Db.table_insert_self, h]
  exact Db.creates_insert hnew

theorem creates_setBalanceInTx {t t' : Db} {a : Id} {type : SavingsTxnType} {x y : ℚ}
    {recordedById : Option Id} {now : DateTime}
    (h : (setBalanceInTx now a type x y recordedById).run t = (.ok (), t')) :
    Db.Creates .savingsTransaction t t' := by
  obtain ⟨-, rfl⟩ := run_setBalanceInTx_eq_ok h
  exact Db.creates_insert_of_table_eq (Db.table_modify_of_ne (by decide) ..) _

theorem creates_transferInTx {t t' : Db} {now : DateTime} {sourceId destId : Id} {x y : ℚ}
    (h : (transferInTx now si sourceId destId x y).run t = (.ok (), t')) :
    Db.Creates .savingsTransaction t t' := by
  obtain ⟨-, rfl⟩ := run_transferInTx_eq_ok h
  apply Db.Creates.insert
  apply Db.creates_insert_of_table_eq
  rw [Db.table_modify_of_ne (by decide), Db.table_modify_of_ne (by decide)]

theorem creates_repayLoanInTx {t t' : Db} {now : DateTime} {loanId : Id} {x : ℚ}
    (h : (repayLoanInTx now si loanId x).run t = (.ok (), t')) :
    Db.Creates .savingsTransaction t t' := by
  obtain ⟨_, t₁, h₁, h⟩ := run_bind_eq_ok h
  obtain ⟨_, t₂, h₂, h⟩ := run_bind_eq_ok h
  obtain ⟨-, rfl⟩ := run_create_eq_ok h₂
  obtain ⟨-, rfl⟩ := Prod.mk.inj h
  have hcreated := creates_setBalanceInTx h₁
  unfold Db.Creates at hcreated ⊢
  rwa [Db.find?_insert_of_ne (by decide)]

theorem executeFrom_keepsDates (now : DateTime) (h : s.KnowsIdle siId si)
    (source : SavingsAccount) :
    (executeFrom now siId si source).Follows dateProtocol DatesSettled s 0 := by
  have hbalance : ∀ x, Quiet itemTables (setBalanceInTx now si.sourceAccountId .withdrawal
      (toNumber si.amount) x (some si.createdById)) := fun x =>
    (Quiet.update (by decide) _ _).bind fun _ => (Quiet.create (by decide) _).bind fun _ => .pure _
  unfold executeFrom
  dsimp only
  split
  · -- an internal transfer
    next destId htype hdest =>
    apply dateProtocol_allowsSparing.query ⟨rfl, rfl⟩
    intro t ht
    cases t.find? .savingsAccount destId with
    | none =>
      apply dateProtocol_allowsSparing.first
      · exact Spares.createAs (L := Access.SparesDates) ⟨rfl, rfl⟩ (by decide) _
      · exact fun _ _ _ _ => rfl
      · exact fun _ _ => nofun
    | some dest =>
      have htransfer : ∀ x y, Quiet itemTables (transferInTx now si si.sourceAccountId destId x y) := by
        intro x y
        apply (Quiet.update (by decide) _ _).bind
        intro _
        apply (Quiet.update (by decide) _ _).bind
        intro _
        apply (Quiet.create (by decide) _).bind
        intro _
        exact (Quiet.create (by decide) _).bind fun _ => .pure _
      apply executes_setsOn rfl rfl (htransfer ..) (fun _ _ => creates_transferInTx) ((ht _).trans h)
      simp [StandingInstruction.Idle, htype, hdest]
  · -- a repayment of a loan
    next loanId htype hloan =>
    have hrepay : ∀ x, Quiet itemTables (repayLoanInTx now si loanId x) := fun x =>
      (hbalance x).bind fun _ => (Quiet.create (by decide) _).bind fun _ => .pure _
    apply executes_setsOn rfl rfl (hrepay _) (fun _ _ => creates_repayLoanInTx) h
    simp [StandingInstruction.Idle, htype, hloan]
  · -- a withdrawal
    next htype =>
    apply executes_setsOn rfl rfl (hbalance _) (fun _ _ => creates_setBalanceInTx) h
    simp [StandingInstruction.Idle, htype]
  · -- nothing to be moved
    next hnot₃ hnot₁ hnot₂ =>
    apply recordExecution_setsOn
    refine .inr ⟨rfl, h.mpr ?_⟩
    unfold StandingInstruction.Idle
    cases htype : si.type with
    | internalTransfer =>
      cases hdest : si.destinationAccountId with
      | none => exact .inl ⟨rfl, rfl⟩
      | some destId => exact (hnot₁ destId htype hdest).elim
    | loanRepayment =>
      cases hloan : si.destinationLoanId with
      | none => exact .inr ⟨rfl, rfl⟩
      | some loanId => exact (hnot₂ loanId htype hloan).elim
    | scheduledWithdrawal => exact (hnot₃ htype).elim

theorem executeInstruction_keepsDates (now : DateTime) (h : s.KnowsIdle siId si) :
    (executeInstruction now siId si).Follows dateProtocol DatesSettled s 0 := by
  apply dateProtocol_allowsSparing.query ⟨rfl, rfl⟩
  intro t ht
  cases t.find? .savingsAccount si.sourceAccountId with
  | none => exact failInsufficient_keepsDates _
  | some source =>
    dsimp only
    split
    · exact failInsufficient_keepsDates _
    · exact executeFrom_keepsDates now ((ht _).trans h) source

theorem runStandingInstructions_keepsDates (now : DateTime) :
    (runStandingInstructions now).Follows dateProtocol DatesSettled s 0 := by
  apply dateProtocol_allowsSparing.query ⟨rfl, rfl⟩
  intro t _
  have hread : ∀ e ∈ (t.table .standingInstruction).entries.filter fun e =>
      decide (e.2.status = .active ∧ e.2.nextExecutionDate ≤ now), t.KnowsIdle e.1 e.2 := by
    intro e he
    have hrow : t.find? .standingInstruction e.1 = some e.2 :=
      OrderedMap.get?_eq_some.mpr (List.mem_filter.mp he).1
    constructor
    · exact fun hidle => hidle e.2 hrow
    · intro hidle si hsi
      rw [hrow] at hsi
      exact Option.some.inj hsi ▸ hidle
  apply (Follows.forEach_ok (J := fun u => dateProtocol.rely t u) ?_ (dateProtocol.refl t)).imp
  · exact fun _ _ _ h hok => (h hok).1
  · intro e he u hu
    have hexecuted := (executeInstruction_keepsDates now ((hu _).trans (hread e he))).reaches
    exact hexecuted.imp fun v _ _ h hok => ⟨h.2 hok, dateProtocol.trans hu h.1⟩

theorem executeRecurring_keepsDates (now : DateTime) :
    (executeRecurring now rjId rj).Follows dateProtocol DatesSettled s 0 := by
  apply dateProtocol_allowsSparing.query ⟨rfl, rfl⟩
  intro t _
  apply dateProtocol_allowsSparing.query ⟨rfl, rfl⟩
  intro u _
  have hposted : ∀ v journal, (applyLinesById (t.find? .gLAccount) rj.lines >>= fun _ =>
      recordRecurring rjId rj journal).Follows dateProtocol DatesSettled v
        {(.recurringJournal rjId, rj.nextExecutionDate)} := by
    intro v journal
    apply dateProtocol_allowsSparing.first
    · exact spares_applyLinesById _ _
    · exact fun _ _ _ => recordRecurring_setsOn journal
    · exact fun _ _ => nofun
  dsimp only
  split
  · intro v _
    by_cases hlines : ∀ l ∈ (rj.journal now).lines, (v.find? .gLAccount l.accountId).isSome
    · simp only [if_pos hlines]
      have hsame : v.Agree itemTables (v.insert .journal (rj.journal now)) :=
        Db.Agree.insert (by decide) v _
      have hcreated : Db.Creates .journal v (v.insert .journal (rj.journal now)) :=
        Db.creates_insert (Db.table_insert_self v .journal (rj.journal now))
      refine ⟨_, hsame.idle, .execute (.recurringJournal rjId) rj.nextExecutionDate rfl rfl ?_
        (fun hidle => hidle) hsame.scheduledFor, hposted _ _⟩
      rw [dateEvents]
      dsimp only
      rw [if_pos (.inr hcreated)]
      rfl
    · simp only [if_neg hlines]
      refine ⟨0, fun _ => Iff.rfl, .keep ?_ fun _ => rfl, nofun⟩
      rw [dateEvents]
      dsimp only
      rw [if_neg (not_or.mpr ⟨Db.not_creates rfl, Db.not_creates rfl⟩)]
      rfl
  · exact failRecurring_keepsDates _

theorem runRecurringJournals_keepsDates (now : DateTime) :
    (runRecurringJournals now).Follows dateProtocol DatesSettled s 0 := by
  apply dateProtocol_allowsSparing.query ⟨rfl, rfl⟩
  intro t _
  apply (Follows.forEach_ok (J := fun _ => True) ?_ trivial).imp
  · exact fun _ _ _ h hok => (h hok).1
  · intro e _ u _
    exact (executeRecurring_keepsDates now).imp fun _ _ _ h hok => ⟨h hok, trivial⟩

/-- The claim of a run leaves the items alone. -/
theorem claimAndRun_keepsDates (message : Failure → String) (jobType : String) (now : DateTime)
    (processId : String) {fn : Handler Unit}
    (hfn : ∀ t, fn.Follows dateProtocol DatesSettled t 0) :
    (claimAndRun message jobType now processId fn).Follows dateProtocol (fun _ _ _ => True) s 0 := by
  have hend : ∀ t m claim (f : ScheduledJobRun → ScheduledJobRun) (k : ScheduledJobRun → Handler Unit),
      (∀ r u, (k r).Follows dateProtocol (fun _ _ _ => True) u m) →
      (update .scheduledJobRun claim f >>= k).Follows dateProtocol (fun _ _ _ => True) t m := by
    intro t m claim f k hk
    have hspares : Spares Access.SparesDates itemTables (update .scheduledJobRun claim f) := by
      apply spares_update
      decide
    apply dateProtocol_allowsSparing.first hspares
    · exact fun u r _ => hk r u
    · exact fun _ _ => trivial
  have hclaim : (claimScheduledJobRun jobType (startOfDay now) processId).Follows dateProtocol
      (fun _ m _ => m = 0) s 0 := by
    intro t _
    cases hclaimed : (t.table .scheduledJobRun).values.any fun r =>
        r.jobType = jobType ∧ r.runDate = startOfDay now with
    | true =>
      simp only [hclaimed, if_true]
      exact ⟨0, fun _ => Iff.rfl, .keep rfl fun _ => rfl, rfl⟩
    | false =>
      have hsame : t.Agree itemTables (t.insert .scheduledJobRun
          { jobType, runDate := startOfDay now, claimedByProcessId := processId }) :=
        Db.Agree.insert (by decide) t _
      simp only [hclaimed, Bool.false_eq_true, if_false]
      exact ⟨0, hsame.idle, .keep rfl hsame.scheduledFor, rfl⟩
  apply hclaim.outcome
  rintro t _ (err | claim) rfl
  · show (Proc.require (err = uniqueViolation) err).Follows _ _ _ _
    unfold Proc.require
    split
    · trivial
    · trivial
  · have hrun : (runClaimed now claim fn).Follows dateProtocol (fun _ _ _ => True) t 0 := by
      apply (hfn t).bind
      · intro u m _ _
        exact hend u m claim _ _ fun _ _ => trivial
      · exact fun _ _ _ _ => trivial
    apply hrun.outcome
    rintro u m (err | _) -
    · exact hend u m claim _ _ fun _ _ => trivial
    · trivial

theorem ScheduledRun.keepsDates (message : Failure → String) (call : ScheduledRun) :
    (call.handler message).Follows dateProtocol (fun _ _ _ => True) s 0 := by
  cases call with
  | nightlyInstructions now processId =>
    exact claimAndRun_keepsDates message _ now processId
      fun _ => runStandingInstructions_keepsDates now
  | nightlyJournals now processId =>
    exact claimAndRun_keepsDates message _ now processId fun _ => runRecurringJournals_keepsDates now
  | instructionsNow now =>
    exact (runStandingInstructions_keepsDates now).imp fun _ _ _ _ => trivial
  | journalsNow now => exact (runRecurringJournals_keepsDates now).imp fun _ _ _ _ => trivial

end Follows

/-! ## Runs -/

/-- Money is moved for an item only while the item stands at the date it was read with, and after
every earlier date that was executed for it has been set on. -/
def Access.ExecutesInTurn (h : List DateEvent) (lab : Access) (s : Db) : Prop :=
  ∀ e ∈ lab.executes, s.scheduledFor e.1 = some e.2 ∧
    ∀ ev ∈ h, ev.item = e.1 → ⟨.advanced, ev.item, ev.date⟩ ∈ h

instance Access.decidableExecutesInTurn (h : List DateEvent) (lab : Access) (s : Db) :
    Decidable (lab.ExecutesInTurn h s) :=
  match heq : lab.executes with
  | none => isTrue fun e he => by rw [heq] at he; cases he
  | some e => decidable_of_iff (s.scheduledFor e.1 = some e.2 ∧
      ∀ ev ∈ h, ev.item = e.1 → ⟨.advanced, ev.item, ev.date⟩ ∈ h)
      ⟨fun hturn e' he' => by
        rw [heq] at he'
        cases he'
        exact hturn, fun hturn => hturn e heq⟩

/-- The items between their executions, with the dates `T` that processes have executed and not set
on: such an item still stands at that date, and every other executed date lies behind it. -/
structure Db.InTurn (s : Db) (T : Multiset (ScheduledItem × DateTime)) (h : List DateEvent) :
    Prop where
  once : ∀ item date, h.count ⟨.executed, item, date⟩ ≤ 1
  nodup : T.Nodup
  owed : ∀ e ∈ T, ⟨.executed, e.1, e.2⟩ ∈ h ∧ ⟨.advanced, e.1, e.2⟩ ∉ h ∧
    ∀ d, s.scheduledFor e.1 = some d → d = e.2
  settled : ∀ item date, ⟨.executed, item, date⟩ ∈ h → (item, date) ∉ T →
    ∀ d, s.scheduledFor item = some d → date < d
  busy : ∀ item date, ⟨.executed, item, date⟩ ∈ h → ¬ s.Idle item
  executedFirst : ∀ item date, ⟨.advanced, item, date⟩ ∈ h → ¬ s.Idle item →
    ⟨.executed, item, date⟩ ∈ h

namespace Db.InTurn

variable {s t : Db} {o m m' : Multiset (ScheduledItem × DateTime)} {h : List DateEvent}
  {lab : Access} {item : ScheduledItem} {date : DateTime}

/-- Nothing has been executed yet. -/
theorem start (s : Db) : s.InTurn 0 [] where
  once := fun _ _ => Nat.zero_le 1
  nodup := Multiset.nodup_zero
  owed := fun e he => absurd he (Multiset.notMem_zero e)
  settled := fun _ _ hmem => absurd hmem List.not_mem_nil
  busy := fun _ _ hmem => absurd hmem List.not_mem_nil
  executedFirst := fun _ _ hmem => absurd hmem List.not_mem_nil

theorem keep (hs : s.InTurn m h) (hrely : dateProtocol.rely s t)
    (hdates : ∀ item, t.scheduledFor item = s.scheduledFor item) : t.InTurn m h where
  once := hs.once
  nodup := hs.nodup
  owed := fun e he => by
    rw [hdates]
    exact hs.owed e he
  settled := fun item date hmem hnot => by
    rw [hdates]
    exact hs.settled item date hmem hnot
  busy := fun item date hmem => by
    rw [hrely]
    exact hs.busy item date hmem
  executedFirst := fun item date hmem hbusy => by
    rw [hrely] at hbusy
    exact hs.executedFirst item date hmem hbusy

/-- An execution in its turn is the first one of its date. -/
theorem execute (hs : s.InTurn m h) (hrely : dateProtocol.rely s t)
    (hdates : ∀ item, t.scheduledFor item = s.scheduledFor item) (hbusy : ¬ s.Idle item)
    (hdate : s.scheduledFor item = some date)
    (hturn : ∀ ev ∈ h, ev.item = item → ⟨.advanced, ev.item, ev.date⟩ ∈ h) :
    t.InTurn (m + {(item, date)}) (h ++ [⟨.executed, item, date⟩]) := by
  have hnotOwed : (item, date) ∉ m := by
    intro hmem
    obtain ⟨hexecuted, hnot, -⟩ := hs.owed _ hmem
    exact hnot (hturn _ hexecuted rfl)
  have hfirst : (⟨.executed, item, date⟩ : DateEvent) ∉ h := fun hmem =>
    lt_irrefl date (hs.settled item date hmem hnotOwed date hdate)
  constructor
  · intro item' date'
    rw [List.count_append]
    by_cases heq : (⟨.executed, item, date⟩ : DateEvent) = ⟨.executed, item', date'⟩
    · rw [← heq, List.count_eq_zero.mpr hfirst, zero_add, List.count_singleton_self]
    · rw [List.count_singleton, if_neg (by simpa using heq), add_zero]
      exact hs.once item' date'
  · rw [Multiset.nodup_add]
    refine ⟨hs.nodup, Multiset.nodup_singleton _, ?_⟩
    rwa [Multiset.disjoint_singleton]
  · intro e he
    rw [hdates]
    rcases Multiset.mem_add.mp he with hold | hnew
    · obtain ⟨hexecuted, hnot, hstands⟩ := hs.owed e hold
      refine ⟨List.mem_append_left _ hexecuted, ?_, hstands⟩
      rw [List.mem_append, not_or]
      exact ⟨hnot, by simp⟩
    · rw [Multiset.mem_singleton.mp hnew]
      refine ⟨List.mem_append_right _ (List.mem_singleton_self _), ?_, ?_⟩
      · rw [List.mem_append, not_or]
        exact ⟨fun hmem => hfirst (hs.executedFirst item date hmem hbusy), by simp⟩
      · intro d hd
        exact Option.some.inj (hd.symm.trans hdate)
  · intro item' date' hmem hnot d hd
    rw [hdates] at hd
    rw [Multiset.mem_add, not_or, Multiset.mem_singleton] at hnot
    rcases List.mem_append.mp hmem with hold | hnew
    · exact hs.settled item' date' hold hnot.1 d hd
    · cases List.mem_singleton.mp hnew
      exact absurd rfl hnot.2
  · intro item' date' hmem
    rw [hrely]
    rcases List.mem_append.mp hmem with hold | hnew
    · exact hs.busy item' date' hold
    · cases List.mem_singleton.mp hnew
      exact hbusy
  · intro item' date' hmem hbusy'
    rw [hrely] at hbusy'
    rcases List.mem_append.mp hmem with hold | hnew
    · exact List.mem_append_left _ (hs.executedFirst item' date' hold hbusy')
    · cases List.mem_singleton.mp hnew

/-- The date of an item is set on by the process that has executed it, or nothing was executed. -/
theorem advance {next : DateTime} (hs : s.InTurn (o + m) h) (hrely : dateProtocol.rely s t)
    (howed : m = {(item, date)} ∨ m = 0 ∧ s.Idle item) (hnext : date < next)
    (hdates : ∀ item', t.scheduledFor item' =
      if item' = item then (s.scheduledFor item).map fun _ => next else s.scheduledFor item') :
    t.InTurn o (h ++ [⟨.advanced, item, date⟩]) := by
  have hexecuted : ∀ {item' date'}, ⟨.executed, item', date'⟩ ∈ h ++ [⟨.advanced, item, date⟩] →
      (⟨.executed, item', date'⟩ : DateEvent) ∈ h := by
    intro item' date' hmem
    rcases List.mem_append.mp hmem with hold | hnew
    · exact hold
    · cases List.mem_singleton.mp hnew
  have hnodup := (Multiset.nodup_add.mp hs.nodup)
  -- what is still owed is owed for another item, if the item is there
  have hother : ∀ e ∈ o, ∀ d, e.1 = item → s.scheduledFor item = some d → False := by
    rintro e he d rfl hd
    obtain ⟨hexec, -, hstands⟩ := hs.owed e (Multiset.mem_add.mpr (.inl he))
    rcases howed with rfl | ⟨-, hidle⟩
    · obtain ⟨-, -, hstands'⟩ := hs.owed (e.1, date)
        (Multiset.mem_add.mpr (.inr (Multiset.mem_singleton_self _)))
      have heq : e = (e.1, date) := Prod.ext rfl ((hstands d hd).symm.trans (hstands' d hd))
      exact (Multiset.disjoint_left.mp hnodup.2.2 he) (Multiset.mem_singleton.mpr heq)
    · exact hs.busy _ _ hexec hidle
  constructor
  · intro item' date'
    rw [List.count_append, List.count_singleton, if_neg (by simp), add_zero]
    exact hs.once item' date'
  · exact hnodup.1
  · intro e he
    obtain ⟨hexec, hnot, hstands⟩ := hs.owed e (Multiset.mem_add.mpr (.inl he))
    refine ⟨List.mem_append_left _ hexec, ?_, ?_⟩
    · rw [List.mem_append, not_or, List.mem_singleton]
      refine ⟨hnot, ?_⟩
      intro heq
      obtain ⟨-, hitem, hdate⟩ := DateEvent.mk.inj heq
      rcases howed with rfl | ⟨-, hidle⟩
      · have heq' : e = (item, date) := Prod.ext hitem hdate
        exact (Multiset.disjoint_left.mp hnodup.2.2 he) (Multiset.mem_singleton.mpr heq')
      · rw [hitem] at hexec
        exact hs.busy _ _ hexec hidle
    · intro d hd
      rw [hdates] at hd
      by_cases hitem : e.1 = item
      · rw [if_pos hitem] at hd
        obtain ⟨d', hd', -⟩ := Option.map_eq_some_iff.mp hd
        exact (hother e he d' hitem hd').elim
      · rw [if_neg hitem] at hd
        exact hstands d hd
  · intro item' date' hmem hnot d hd
    rw [hdates] at hd
    by_cases hitem : item' = item
    · subst hitem
      rw [if_pos rfl] at hd
      obtain ⟨d', hd', rfl⟩ := Option.map_eq_some_iff.mp hd
      rcases howed with rfl | ⟨-, hidle⟩
      · obtain ⟨-, -, hstands⟩ := hs.owed (item', date)
          (Multiset.mem_add.mpr (.inr (Multiset.mem_singleton_self _)))
        by_cases hdate : date' = date
        · rwa [hdate]
        · have hsettled := hs.settled item' date' (hexecuted hmem) (by
            rw [Multiset.mem_add, not_or, Multiset.mem_singleton]
            exact ⟨hnot, fun heq => hdate (congrArg Prod.snd heq)⟩) d' hd'
          rw [hstands d' hd'] at hsettled
          exact hsettled.trans hnext
      · exact (hs.busy _ _ (hexecuted hmem) hidle).elim
    · rw [if_neg hitem] at hd
      apply hs.settled item' date' (hexecuted hmem) ?_ d hd
      rw [Multiset.mem_add, not_or]
      refine ⟨hnot, ?_⟩
      rcases howed with rfl | ⟨rfl, -⟩
      · rw [Multiset.mem_singleton]
        exact fun heq => hitem (congrArg Prod.fst heq)
      · exact Multiset.notMem_zero _
  · intro item' date' hmem
    rw [hrely]
    exact hs.busy item' date' (hexecuted hmem)
  · intro item' date' hmem hbusy
    rw [hrely] at hbusy
    apply List.mem_append_left
    rcases List.mem_append.mp hmem with hold | hnew
    · exact hs.executedFirst item' date' hold hbusy
    · cases List.mem_singleton.mp hnew
      rcases howed with rfl | ⟨-, hidle⟩
      · exact (hs.owed (item, date)
          (Multiset.mem_add.mpr (.inr (Multiset.mem_singleton_self _)))).1
      · exact (hbusy hidle).elim

/-- What a statement of a run leaves of it. -/
theorem step (hguar : dateProtocol.guar lab s m t m') (hrely : dateProtocol.rely s t)
    (hturn : lab.ExecutesInTurn h s) (hs : s.InTurn (o + m) h) :
    t.InTurn (o + m') (h ++ dateEvents lab s t) := by
  cases hguar with
  | keep hevents hdates =>
    rw [hevents, List.append_nil]
    exact hs.keep hrely hdates
  | execute item date hm hlab hevents hbusy hdates =>
    obtain ⟨hdate, hsettled⟩ := hturn (item, date) hlab
    rw [hevents]
    rw [hm, add_zero] at hs
    exact hs.execute hrely hdates hbusy hdate hsettled
  | advance item date next howed hevents hnext hdates =>
    have hlater : date < next := lt_of_lt_of_le (lt_add_of_pos_right date msPerDay_pos) hnext
    rw [hevents, add_zero]
    exact hs.advance hrely howed hlater hdates

end Db.InTurn

section Runs

variable {ι : Type} [DecidableEq ι]

/-- Nightly runs and runs that are started by hand, at the same time. -/
def scheduledPool (message : Failure → String) (calls : ι → ScheduledRun) (s : Db) :
    Pool ι Access Db Failure Unit := ⟨fun i => (calls i).handler message, s⟩

/-- Each date of each instruction and recurring journal moves money at most once. -/
def MovesDatesOnce (message : Failure → String) (calls : ι → ScheduledRun) (s : Db)
    (sched : List ι) : Prop :=
  ∀ item date, ((scheduledPool message calls s).history dateEvents sched).count
    ⟨.executed, item, date⟩ ≤ 1

theorem scheduled_dates_move_money_once [Fintype ι] (message : Failure → String)
    (calls : ι → ScheduledRun) (s : Db) (sched : List ι)
    (hturn : (scheduledPool message calls s).AllowedAfter dateEvents
      (fun h lab t => lab.ExecutesInTurn h t) [] sched) :
    MovesDatesOnce message calls s sched := by
  have hfollows : (scheduledPool message calls s).Follows dateProtocol (fun _ _ => True)
      fun _ => 0 := fun i => (calls i).keepsDates message
  have hstart : s.InTurn (∑ _ : ι, 0) [] := by
    rw [Finset.sum_const_zero]
    exact .start s
  obtain ⟨d, -, hend⟩ := hfollows.run_totals
    (fun lab s m t m' o h hguar hrely hlab hs => hs.step hguar hrely hlab) hstart hturn
  exact hend.once

end Runs

/-! ## Runs that overlap -/

/-- An account with 10.00, an empty one, and a daily transfer of 3.00 between them. -/
def dailyTransferDb : Db :=
  ((Db.empty.insert .savingsAccount { institutionId := 1, customerId := 1, balance := 1000 }).insert
    .savingsAccount { institutionId := 1, customerId := 2, balance := 0 }).insert
    .standingInstruction
      { institutionId := 1, type := .internalTransfer, sourceAccountId := 1,
        destinationAccountId := some 2, amount := 300, frequency := .daily, nextExecutionDate := 0,
        createdById := 1 }

/-- The nightly run of a process, and the same loop started by hand. -/
def twoTransferRuns : Fin 2 → ScheduledRun :=
  ![.nightlyInstructions 10 "process", .instructionsNow 10]

/-- One run after the other: the second one finds nothing due. -/
theorem scheduled_dates_move_money_once_apart :
    (scheduledPool (fun _ => "") twoTransferRuns dailyTransferDb).AllowedAfter dateEvents
        (fun h lab t => lab.ExecutesInTurn h t) [] [0, 0, 0, 0, 0, 0, 0, 0, 1] ∧
      MovesDatesOnce (fun _ => "") twoTransferRuns dailyTransferDb [0, 0, 0, 0, 0, 0, 0, 0, 1] := by
  have hturn : (scheduledPool (fun _ => "") twoTransferRuns dailyTransferDb).AllowedAfter dateEvents
      (fun h lab t => lab.ExecutesInTurn h t) [] [0, 0, 0, 0, 0, 0, 0, 0, 1] := by
    decide +kernel
  exact ⟨hturn, scheduled_dates_move_money_once _ _ _ _ hturn⟩

/-- Both runs read the instruction before either sets its date on, and both transfer. -/
theorem scheduled_dates_move_money_twice :
    ¬ MovesDatesOnce (fun _ => "") twoTransferRuns dailyTransferDb
      [0, 0, 1, 0, 0, 0, 0, 0, 0, 1, 1, 1] := by
  intro h
  exact absurd (h (.standingInstruction 1) 0) (by decide +kernel)

end NexusEfos
