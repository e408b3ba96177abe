/-
Schedules advance: `lib/standingInstructions.ts` and the loops of `lib/scheduler.ts`.

A date is set on by a day at least, whatever the frequency and the interval.  Run after run, an
item is set on as often as its execution is recorded as a success, so after finitely many
successes it stands beyond any given time.
-/
import NexusEfos.Operations.ScheduledDates

namespace NexusEfos

open Proc

/-! ## Dates that are set on again and again -/

namespace Recurrence

theorem add_day_le_next (r : Recurrence) : r.date + msPerDay ≤ r.next.date :=
  add_day_le_nextExecutionDate r.date r.frequency r.customIntervalDays

theorem add_days_le_iterate (r : Recurrence) (k : ℕ) :
    r.date + k * msPerDay ≤ (next^[k] r).date := by
  induction k with
  | zero => simp
  | succ k ih =>
    have hnext := (next^[k] r).add_day_le_next
    rw [Function.iterate_succ_apply']
    push_cast
    linarith

/-- After enough days an item stands beyond a given time. -/
theorem exists_lt_iterate (r : Recurrence) (now : DateTime) :
    ∃ n, ∀ k, n ≤ k → now < (next^[k] r).date := by
  refine ⟨(now - r.date).toNat + 1, ?_⟩
  intro k hk
  have hdays := r.add_days_le_iterate k
  have hlong : (k : ℤ) ≤ k * msPerDay := le_mul_of_one_le_right (Int.natCast_nonneg k) (by decide)
  have hdist := Int.self_le_toNat (now - r.date)
  have hcast : ((now - r.date).toNat : ℤ) + 1 ≤ k := by exact_mod_cast hk
  linarith

end Recurrence

/-! ## Successes -/

/-- The successful executions of an item. -/
def Db.successes (s : Db) : ScheduledItem → ℕ
  | .standingInstruction id => (s.table .standingInstructionExecution).values.countP fun e =>
      e.instructionId = id ∧ e.status = .success
  | .recurringJournal id => (s.table .recurringJournalExecution).values.countP fun e =>
      e.recurringJournalId = id ∧ e.status = .success

/-- An item is set on as often as it is executed. -/
def Db.SetsOn (s t : Db) (item : ScheduledItem) : Prop :=
  ∀ r, s.recurrence item = some r → ∃ k, t.recurrence item = some (Recurrence.next^[k] r) ∧
    t.successes item = s.successes item + k

/-- The tables of the items and of their executions. -/
abbrev executionTables : List Model :=
  [.standingInstruction, .recurringJournal, .standingInstructionExecution,
    .recurringJournalExecution]

section SetsOn

variable {s t u : Db} {item : ScheduledItem} {id : Id}

theorem Db.SetsOn.trans (h : s.SetsOn t item) (h' : t.SetsOn u item) : s.SetsOn u item := by
  intro r hr
  obtain ⟨k, ht, hk⟩ := h r hr
  obtain ⟨k', hu, hk'⟩ := h' _ ht
  refine ⟨k' + k, ?_, ?_⟩
  · rw [hu, Function.iterate_add_apply]
  · rw [hk', hk, add_assoc, add_comm k]

theorem Db.SetsOn.of_eq (hrec : t.recurrence item = s.recurrence item)
    (hsucc : t.successes item = s.successes item) : s.SetsOn t item := by
  intro r hr
  exact ⟨0, hrec.trans hr, hsucc⟩

theorem Db.Agree.successes (h : s.Agree executionTables t) (item : ScheduledItem) :
    t.successes item = s.successes item := by
  cases item with
  | standingInstruction id => rw [Db.successes, Db.successes, h _ (by decide)]
  | recurringJournal id => rw [Db.successes, Db.successes, h _ (by decide)]

theorem Db.Agree.setsOn (h : s.Agree executionTables t) (item : ScheduledItem) :
    s.SetsOn t item :=
  .of_eq ((h.mono (by decide)).recurrence item) (h.successes item)

theorem successes_modify {model : Model} (hm : model ∉ [Model.standingInstructionExecution,
    .recurringJournalExecution]) (s : Db) (id : Id) (f : Row model → Row model)
    (item : ScheduledItem) : (s.modify model id f).successes item = s.successes item := by
  have hsame : s.Agree [.standingInstructionExecution, .recurringJournalExecution]
      (s.modify model id f) := Db.Agree.modify hm s id f
  cases item with
  | standingInstruction id' => rw [Db.successes, Db.successes, hsame _ (by decide)]
  | recurringJournal id' => rw [Db.successes, Db.successes, hsame _ (by decide)]

theorem successes_insertInstruction (s : Db) (e : StandingInstructionExecution)
    (item : ScheduledItem) :
    (s.insert .standingInstructionExecution e).successes item = s.successes item +
      if item = .standingInstruction e.instructionId ∧ e.status = .success then 1 else 0 := by
  cases item with
  | recurringJournal id =>
    rw [Db.successes, Db.successes, Db.table_insert_of_ne (by decide), if_neg (fun h => nomatch h.1)]
    rfl
  | standingInstruction id =>
    have hitem : ScheduledItem.standingInstruction id = .standingInstruction e.instructionId ↔
        e.instructionId = id :=
      ⟨fun h => (ScheduledItem.standingInstruction.inj h).symm, fun h => h ▸ rfl⟩
    rw [Db.successes, Db.successes, Db.table_insert_self, OrderedMap.values_create,
      List.countP_append, List.countP_singleton]
    simp only [hitem, decide_eq_true_eq]

theorem successes_insertRecurring (s : Db) (e : RecurringJournalExecution)
    (item : ScheduledItem) :
    (s.insert .recurringJournalExecution e).successes item = s.successes item +
      if item = .recurringJournal e.recurringJournalId ∧ e.status = .success then 1 else 0 := by
  cases item with
  | standingInstruction id =>
    rw [Db.successes, Db.successes, Db.table_insert_of_ne (by decide), if_neg (fun h => nomatch h.1)]
    rfl
  | recurringJournal id =>
    have hitem : ScheduledItem.recurringJournal id = .recurringJournal e.recurringJournalId ↔
        e.recurringJournalId = id :=
      ⟨fun h => (ScheduledItem.recurringJournal.inj h).symm, fun h => h ▸ rfl⟩
    rw [Db.successes, Db.successes, Db.table_insert_self, OrderedMap.values_create,
      List.countP_append, List.countP_singleton]
    simp only [hitem, decide_eq_true_eq]

end SetsOn

/-! ## One turn after the other -/

/-- A turn for one row of a table: every item is set on as often as it is executed, and the other
rows stay. -/
def TurnEnds (model : Model) (id : Id) (s : Db) (_r : Except Failure Unit) (t : Db) : Prop :=
  (∀ item, s.SetsOn t item) ∧ ∀ id', id' ≠ id → t.find? model id' = s.find? model id'

section Turns

variable {s u : Db} {siId rjId : Id} {si : StandingInstruction} {rj : RecurringJournal}

theorem turnEnds_of_agree {model : Model} {id : Id} {r : Except Failure Unit}
    (hm : model ∈ executionTables) (h : s.Agree executionTables u) : TurnEnds model id s r u :=
  ⟨h.setsOn, fun id' _ => h.find? hm id'⟩

/-- A failure leaves every item at its date. -/
theorem turnEnds_failure {f : StandingInstruction → StandingInstruction}
    (hf : ∀ si, (f si).recurrence = si.recurrence) {e : StandingInstructionExecution}
    (he : e.status = .failed) (r : Except Failure Unit) :
    TurnEnds .standingInstruction siId s r
      ((s.modify .standingInstruction siId f).insert .standingInstructionExecution e) := by
  constructor
  · intro item
    apply Db.SetsOn.of_eq
    · rw [Db.Agree.recurrence (Db.Agree.insert (by decide) _ _) item,
        recurrence_modifyInstruction_of_eq hf]
    · rw [successes_insertInstruction, successes_modify (by decide), he, if_neg (by simp), add_zero]
  · intro id' hid
    rw [Db.find?_insert_of_ne (by decide), Db.find?_modify, if_neg hid]

theorem turnEnds_failed {e : StandingInstructionExecution} (he : e.status = .failed)
    (r : Except Failure Unit) :
    TurnEnds .standingInstruction siId s r (s.insert .standingInstructionExecution e) := by
  constructor
  · intro item
    apply Db.SetsOn.of_eq
    · exact Db.Agree.recurrence (Db.Agree.insert (by decide) _ _) item
    · rw [successes_insertInstruction, he, if_neg (by simp), add_zero]
  · intro id' _
    rw [Db.find?_insert_of_ne (by decide)]

/-- A success sets its item on. -/
theorem turnEnds_success (hrow : s.find? .standingInstruction siId = some si)
    (h : s.Agree executionTables u) {f : StandingInstruction → StandingInstruction}
    (hf : (f si).recurrence = si.recurrence.next) {e : StandingInstructionExecution}
    (he : e.status = .success) (hid : e.instructionId = siId) (r : Except Failure Unit) :
    TurnEnds .standingInstruction siId s r
      ((u.insert .standingInstructionExecution e).modify .standingInstruction siId f) := by
  constructor
  · intro item r hr
    have hrec : u.recurrence item = some r := ((h.mono (by decide)).recurrence item).trans hr
    rw [recurrence_modifyInstruction, successes_modify (by decide), successes_insertInstruction,
      Db.find?_insert_of_ne (by decide), h.find? (by decide), hrow, h.successes, he, hid,
      Db.Agree.recurrence (Db.Agree.insert (by decide) _ _) item]
    by_cases hitem : item = .standingInstruction siId
    · subst hitem
      rw [if_pos rfl, if_pos ⟨rfl, rfl⟩]
      rw [Db.recurrence, hrow] at hr
      cases hr
      exact ⟨1, congrArg some hf, rfl⟩
    · rw [if_neg hitem, if_neg fun hsame => hitem hsame.1]
      exact ⟨0, hrec, rfl⟩
  · intro id' hid'
    rw [Db.find?_modify, if_neg hid', Db.find?_insert_of_ne (by decide), h.find? (by decide)]

theorem failInsufficient_ends (hrow : s.find? .standingInstruction siId = some si)
    (reason : String) :
    (failInsufficient siId si reason).Ends (TurnEnds .standingInstruction siId s) s := by
  unfold Ends failInsufficient updateAs
  simp only [run_bind, run_attempt, hrow, run_createAs]
  apply turnEnds_failure
  · exact fun _ => rfl
  · rfl

theorem recordExecution_ends (hrow : s.find? .standingInstruction siId = some si)
    (h : s.Agree executionTables u) :
    (recordExecution siId si).Ends (TurnEnds .standingInstruction siId s) u := by
  have hrow' : (u.insert .standingInstructionExecution
      { instructionId := siId, status := .success, amount := si.amount }).find?
        .standingInstruction siId = some si := by
    rw [Db.find?_insert_of_ne (by decide), h.find? (by decide), hrow]
  unfold Ends recordExecution updateAs
  simp only [run_bind, run_attempt, run_createAs, hrow']
  apply turnEnds_success hrow h
  · rfl
  · rfl
  · rfl

theorem executeFrom_ends (now : DateTime) (hrow : s.find? .standingInstruction siId = some si)
    (source : SavingsAccount) :
    (executeFrom now siId si source).Ends (TurnEnds .standingInstruction siId s) s := by
  have hrecord : ∀ {lab : Access} {body : Handler Unit}, Quiet executionTables body →
      (Proc.transaction lab body >>= fun _ => recordExecution siId si).Ends
        (TurnEnds .standingInstruction siId s) s := by
    intro lab body hquiet
    apply Ends.transaction
    · intro _ t hrun
      have hsame : s.Agree executionTables t := by simpa only [hrun] using hquiet.run s
      exact recordExecution_ends hrow hsame
    · intro e
      exact turnEnds_of_agree (by decide) (Db.Agree.refl s)
  have hbalance : ∀ x, Quiet executionTables (setBalanceInTx now si.sourceAccountId .withdrawal
      (toNumber si.amount) x (some si.createdById)) := fun x =>
    (Quiet.update (by decide) _ _).bind fun _ => (Quiet.create (by decide) _).bind fun _ => .pure _
  unfold executeFrom
  dsimp only
  split
  · next destId _ _ =>
    unfold Ends
    rw [run_bind, run_findUnique]
    cases s.find? .savingsAccount destId with
    | none =>
      apply turnEnds_failed
      rfl
    | some dest =>
      apply hrecord
      apply (Quiet.update (by decide) _ _).bind
      intro _
      apply (Quiet.update (by decide) _ _).bind
      intro _
      apply (Quiet.create (by decide) _).bind
      intro _
      exact (Quiet.create (by decide) _).bind fun _ => .pure _
  · apply hrecord
    exact (hbalance _).bind fun _ => (Quiet.create (by decide) _).bind fun _ => .pure _
  · exact hrecord (hbalance _)
  · exact recordExecution_ends hrow (Db.Agree.refl s)

theorem executeInstruction_ends (now : DateTime)
    (hrow : s.find? .standingInstruction siId = some si) :
    (executeInstruction now siId si).Ends (TurnEnds .standingInstruction siId s) s := by
  unfold Ends executeInstruction
  rw [run_bind, run_findUnique]
  cases s.find? .savingsAccount si.sourceAccountId with
  | none => exact failInsufficient_ends hrow _
  | some source =>
    dsimp only
    split
    · exact failInsufficient_ends hrow _
    · exact executeFrom_ends now hrow source

/-- The same for a recurring journal. -/
theorem turnEnds_failureRecurring {f : RecurringJournal → RecurringJournal}
    (hf : ∀ rj, (f rj).recurrence = rj.recurrence) {e : RecurringJournalExecution}
    (he : e.status = .failed) (r : Except Failure Unit) :
    TurnEnds .recurringJournal rjId s r
      ((s.modify .recurringJournal rjId f).insert .recurringJournalExecution e) := by
  constructor
  · intro item
    apply Db.SetsOn.of_eq
    · rw [Db.Agree.recurrence (Db.Agree.insert (by decide) _ _) item,
        recurrence_modifyRecurring_of_eq hf]
    · rw [successes_insertRecurring, successes_modify (by decide), he, if_neg (by simp), add_zero]
  · intro id' hid
    rw [Db.find?_insert_of_ne (by decide), Db.find?_modify, if_neg hid]

theorem turnEnds_successRecurring (hrow : s.find? .recurringJournal rjId = some rj)
    (h : s.Agree executionTables u) {f : RecurringJournal → RecurringJournal}
    (hf : (f rj).recurrence = rj.recurrence.next) {e : RecurringJournalExecution}
    (he : e.status = .success) (hid : e.recurringJournalId = rjId) (r : Except Failure Unit) :
    TurnEnds .recurringJournal rjId s r
      ((u.insert .recurringJournalExecution e).modify .recurringJournal rjId f) := by
  constructor
  · intro item r hr
    have hrec : u.recurrence item = some r := ((h.mono (by decide)).recurrence item).trans hr
    rw [recurrence_modifyRecurring, successes_modify (by decide), successes_insertRecurring,
      Db.find?_insert_of_ne (by decide), h.find? (by decide), hrow, h.successes, he, hid,
      Db.Agree.recurrence (Db.Agree.insert (by decide) _ _) item]
    by_cases hitem : item = .recurringJournal rjId
    · subst hitem
      rw [if_pos rfl, if_pos ⟨rfl, rfl⟩]
      rw [Db.recurrence, hrow] at hr
      cases hr
      exact ⟨1, congrArg some hf, rfl⟩
    · rw [if_neg hitem, if_neg fun hsame => hitem hsame.1]
      exact ⟨0, hrec, rfl⟩
  · intro id' hid'
    rw [Db.find?_modify, if_neg hid', Db.find?_insert_of_ne (by decide), h.find? (by decide)]

theorem failRecurring_ends (hrow : s.find? .recurringJournal rjId = some rj) (reason : String) :
    (failRecurring rjId rj reason).Ends (TurnEnds .recurringJournal rjId s) s := by
  unfold Ends failRecurring updateAs
  simp only [run_bind, run_attempt, hrow, run_create]
  apply turnEnds_failureRecurring
  · exact fun _ => rfl
  · rfl

theorem recordRecurring_ends (hrow : s.find? .recurringJournal rjId = some rj)
    (h : s.Agree executionTables u) (journalId : Id) :
    (recordRecurring rjId rj journalId).Ends (TurnEnds .recurringJournal rjId s) u := by
  have hrow' : (u.insert .recurringJournalExecution
      { recurringJournalId := rjId, status := .success, journalId := some journalId }).find?
        .recurringJournal rjId = some rj := by
    rw [Db.find?_insert_of_ne (by decide), h.find? (by decide), hrow]
  unfold Ends recordRecurring updateAs
  simp only [run_bind, run_attempt, run_create, hrow']
  apply turnEnds_successRecurring hrow h
  · rfl
  · rfl
  · rfl

theorem executeRecurring_ends (now : DateTime)
    (hrow : s.find? .recurringJournal rjId = some rj) :
    (executeRecurring now rjId rj).Ends (TurnEnds .recurringJournal rjId s) s := by
  have hstay : ∀ e t, s.Agree executionTables t →
      TurnEnds .recurringJournal rjId s (.error e) t := fun _ _ h => turnEnds_of_agree (by decide) h
  have hpost : ∀ lab accountById, (createJournalAs lab (rj.journal now) >>= fun journal =>
      applyLinesById accountById rj.lines >>= fun _ => recordRecurring rjId rj journal).Ends
        (TurnEnds .recurringJournal rjId s) s := by
    intro lab accountById
    have hjournal : Quiet executionTables (createJournalAs lab (rj.journal now)) :=
      (Writes.createJournalAs (List.mem_singleton_self _) lab _).quiet (by decide)
    have hlines : Quiet executionTables (applyLinesById accountById rj.lines) :=
      (Writes.applyLinesById (List.mem_singleton_self _) accountById rj.lines).quiet (by decide)
    apply Ends.every Db.Agree.refl Db.Agree.trans hjournal ?_ hstay
    intro journal t ht
    apply Ends.every Db.Agree.refl Db.Agree.trans hlines
    · exact fun _ u hu => recordRecurring_ends hrow (ht.trans hu) journal
    · exact fun e u hu => hstay e u (ht.trans hu)
  apply ends_query
  apply ends_query
  dsimp only
  split
  · exact hpost _ _
  · exact failRecurring_ends hrow _

end Turns

/-! ## Whole runs -/

/-- A loop over rows of a table, each of which its own turn alone rewrites. -/
theorem turns_setOn {model : Model} {body : Id × Row model → Handler Unit}
    (hbody : ∀ s e, s.find? model e.1 = some e.2 → (body e).Ends (TurnEnds model e.1 s) s)
    {entries : List (Id × Row model)} (hnodup : (entries.map Prod.fst).Nodup) {s : Db}
    (hrows : ∀ e ∈ entries, s.find? model e.1 = some e.2) :
    (Proc.forEach entries body).Ends (fun _ t => ∀ item, s.SetsOn t item) s := by
  induction entries generalizing s with
  | nil => exact fun item => .of_eq rfl rfl
  | cons e es ih =>
    rw [List.map_cons, List.nodup_cons] at hnodup
    apply (hbody s e (hrows e (List.mem_cons_self ..))).bind
    · intro _ t hturn
      have hrest : ∀ e' ∈ es, t.find? model e'.1 = some e'.2 := by
        intro e' he'
        rw [hturn.2 e'.1 fun heq => hnodup.1 (heq ▸ List.mem_map_of_mem he')]
        exact hrows e' (List.mem_cons_of_mem e he')
      exact (ih hnodup.2 hrest).imp fun _ u hu item => (hturn.1 item).trans (hu item)
    · exact fun _ t hturn => hturn.1

/-- The rows that are due when a loop begins. -/
theorem dueRows_setOn {model : Model} {body : Id × Row model → Handler Unit}
    (hbody : ∀ s e, s.find? model e.1 = some e.2 → (body e).Ends (TurnEnds model e.1 s) s)
    (due : Id → Row model → Bool) (s : Db) :
    (findMany model due >>= fun entries => Proc.forEach entries body).Ends
      (fun _ t => ∀ item, s.SetsOn t item) s := by
  unfold Ends
  rw [run_bind, run_findMany]
  apply turns_setOn hbody
  · exact (s.table model).nodup_keys.sublist (List.filter_sublist.map Prod.fst)
  · exact fun e he => OrderedMap.get?_eq_some.mpr (List.mem_filter.mp he).1

/-- The record of a run is no item. -/
theorem update_setsOn {α : Type} {s t : Db} (h : ∀ item, s.SetsOn t item) (claim : Id)
    (f : ScheduledJobRun → ScheduledJobRun) {k : ScheduledJobRun → Handler α}
    (hk : ∀ r u, (∀ item, s.SetsOn u item) → (k r).Ends (fun _ v => ∀ item, s.SetsOn v item) u) :
    (update .scheduledJobRun claim f >>= k).Ends (fun _ u => ∀ item, s.SetsOn u item) t := by
  have hquiet : Quiet executionTables (update .scheduledJobRun claim f) :=
    Quiet.update (m := .scheduledJobRun) (by decide) claim f
  apply Ends.every Db.Agree.refl Db.Agree.trans hquiet
  · exact fun r u hu => hk r u fun item => (h item).trans (hu.setsOn item)
  · exact fun _ u hu item => (h item).trans (hu.setsOn item)

theorem claimAndRun_setsOn (message : Failure → String) (jobType : String) (now : DateTime)
    (processId : String) {fn : Handler Unit}
    (hfn : ∀ s, fn.Ends (fun _ t => ∀ item, s.SetsOn t item) s) (s : Db) :
    (claimAndRun message jobType now processId fn).Ends (fun _ t => ∀ item, s.SetsOn t item) s := by
  have hjob : ∀ t claim, (runClaimed now claim fn).Ends (fun _ u => ∀ item, t.SetsOn u item) t := by
    intro t claim
    apply (hfn t).bind
    · exact fun _ u hu => update_setsOn hu claim _ fun _ _ hv => hv
    · exact fun _ _ hu => hu
  have hclaim : (claimScheduledJobRun jobType (startOfDay now) processId).Ends
      (fun _ t => s.Agree executionTables t) s := by
    unfold Ends claimScheduledJobRun
    rw [run_attempt]
    split
    · exact Db.Agree.refl s
    · exact Db.Agree.insert (by decide) s _
  unfold Ends claimAndRun
  rw [run_bind, run_outcome]
  cases hrun : (claimScheduledJobRun jobType (startOfDay now) processId).run s with
  | mk r t =>
    rw [Ends, hrun] at hclaim
    cases r with
    | error err =>
      dsimp only
      unfold Proc.require
      split
      · exact hclaim.setsOn
      · exact hclaim.setsOn
    | ok claim =>
      dsimp only
      rw [run_bind, run_outcome]
      have hran := hjob t claim
      cases hrun' : (runClaimed now claim fn).run t with
      | mk r' u =>
        rw [Ends, hrun'] at hran
        have hboth : ∀ item, s.SetsOn u item := fun item => (hclaim.setsOn item).trans (hran item)
        cases r' with
        | ok _ => exact hboth
        | error err => exact update_setsOn hboth claim _ fun _ _ hv => hv

theorem ScheduledRun.setsOn (message : Failure → String) (call : ScheduledRun) (s : Db) :
    (call.handler message).Ends (fun _ t => ∀ item, s.SetsOn t item) s := by
  have hinstructions : ∀ now s, (runStandingInstructions now).Ends
      (fun _ t => ∀ item, s.SetsOn t item) s := fun now =>
    dueRows_setOn (fun _ _ hrow => executeInstruction_ends now hrow) _
  have hjournals : ∀ now s, (runRecurringJournals now).Ends
      (fun _ t => ∀ item, s.SetsOn t item) s := fun now =>
    dueRows_setOn (fun _ _ hrow => executeRecurring_ends now hrow) _
  cases call with
  | nightlyInstructions now processId =>
    exact claimAndRun_setsOn message _ now processId (hinstructions now) s
  | nightlyJournals now processId =>
    exact claimAndRun_setsOn message _ now processId (hjournals now) s
  | instructionsNow now => exact hinstructions now s
  | journalsNow now => exact hjournals now s

/-- An item after runs that follow one another. -/
theorem runAll_setsOn (message : Failure → String) (calls : List ScheduledRun) (s : Db) :
    ∀ item, s.SetsOn (runAll (calls.map fun call => call.handler message) s) item := by
  apply Proc.runAll_induction (I := fun t => ∀ item, s.SetsOn t item) (A := fun _ _ => True)
  · intro p hp t ht _ item
    obtain ⟨call, -, rfl⟩ := List.mem_map.mp hp
    exact (ht item).trans (call.setsOn message t item)
  · exact fun item => .of_eq rfl rfl
  · exact meetsAll_true _ _

/-- The item that was set on last stands a day later at least. -/
def Db.StandsLater (s : Db) (h : List DateEvent) : Prop :=
  ∀ item date, h.getLast? = some ⟨.advanced, item, date⟩ →
    ∀ d, s.scheduledFor item = some d → date + msPerDay ≤ d

/-- Whatever else runs. -/
theorem scheduledPool_stands_later {ι : Type} [DecidableEq ι] (message : Failure → String)
    (calls : ι → ScheduledRun) (s : Db) (sched : List ι) {item : ScheduledItem} {date : DateTime}
    (hlast : ((scheduledPool message calls s).history dateEvents sched).getLast? =
      some ⟨.advanced, item, date⟩) :
    ∀ d, ((scheduledPool message calls s).run sched).state.scheduledFor item = some d →
      date + msPerDay ≤ d := by
  have hfollows : (scheduledPool message calls s).Follows dateProtocol (fun _ _ => True)
      fun _ => 0 := fun i => (calls i).keepsDates message
  have hstart : (scheduledPool message calls s).state.StandsLater [] := fun _ _ h => nomatch h
  have hany : (scheduledPool message calls s).AllowedAfter dateEvents (fun _ _ _ => True) [] sched :=
    Pool.allowedAfter_true [] _ sched
  have hrun := hfollows.run_history (K := fun _ _ => True) (fun _ _ _ _ => trivial) ?_ hstart
    (fun _ => trivial) hany
  · rw [List.nil_append] at hrun
    exact hrun item date hlast
  · intro lab t d t' d' h hguar _ _ hJ _
    refine ⟨?_, trivial⟩
    intro item' date' hend
    cases hguar with
    | keep hevents hdates =>
      rw [hevents, List.append_nil] at hend
      rw [hdates]
      exact hJ item' date' hend
    | execute item₀ date₀ _ _ hevents _ _ =>
      rw [hevents, List.getLast?_concat] at hend
      cases hend
    | advance item₀ date₀ next _ hevents hnext hdates =>
      rw [hevents, List.getLast?_concat] at hend
      cases hend
      intro d' hd'
      rw [hdates, if_pos rfl] at hd'
      obtain ⟨_, -, rfl⟩ := Option.map_eq_some_iff.mp hd'
      exact hnext

end NexusEfos
