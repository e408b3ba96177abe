/-
Standing instructions that fail: the scheduled run of `lib/scheduler.ts`, and the calls of
`routes/savings.routes.ts` that stop an instruction or start it again.

A run reads the instructions that are due and then executes one after the other, so what it writes
about an instruction may be overtaken by a call, or by another run.  A failure is counted in one
statement and recorded in another, and not every failure is counted.  In a run in which every
failure is counted, from a counter that nothing has moved in the meantime, an instruction is no
longer active after its last retry, and nothing but a call reactivates it.
-/
import Mathlib.Data.Fin.VecNotation
import Mathlib.Data.Fintype.Basic
import NexusEfos.Library.History
import NexusEfos.Savings.InternalTransfers

namespace NexusEfos

open Proc

/-! ## The endpoints -/

/-- `updateMany` of the status of an instruction. -/
def setInstructionStatus (auth : Auth) (id : Id) (status : StandingInstructionStatus) :
    Handler Unit := do
  let updated ← updateGuarded .standingInstruction id
    (fun i => i.institutionId = auth.institutionId) fun i => { i with status }
  Proc.require (updated = true) (.http 404 "Not found")

/-- `POST /standing-instructions/:id/suspend`. -/
def suspendStandingInstruction (auth : Auth) (id : Id) : Handler Unit :=
  setInstructionStatus auth id .suspended

/-- `POST /standing-instructions/:id/cancel`. -/
def cancelStandingInstruction (auth : Auth) (id : Id) : Handler Unit :=
  setInstructionStatus auth id .cancelled

/-- `POST /standing-instructions/:id/reactivate`. -/
def reactivateStandingInstruction (auth : Auth) (id : Id) (now : DateTime) :
    Handler StandingInstruction := do
  let found ← findById .standingInstruction id fun i => i.institutionId = auth.institutionId
  let _ ← Proc.orFail found (.http 404 "Not found")
  updateAs { instruction := some (.reactivate id) } .standingInstruction id fun i =>
    { i with status := .active, consecutiveFailures := 0, nextExecutionDate := now }

/-! ## What happens to an instruction -/

def instructionEvents (lab : Access) (_s _t : Db) : List InstructionMove := lab.instruction.toList

namespace InstructionMove

/-- The instruction that is moved. -/
def instructionId : InstructionMove → Id
  | countFailure id _ | recordFailure id _ | recordSuccess id | reset id | reactivate id => id

/-- A failed execution is recorded. -/
def IsFailure : InstructionMove → Prop
  | recordFailure .. => True
  | _ => False

/-- From here on the failures are counted anew. -/
def IsFreshStart : InstructionMove → Prop
  | recordSuccess _ | reactivate _ => True
  | _ => False

/-- What a move adds to the failures that are counted and not recorded yet. -/
def counts : InstructionMove → ℤ
  | countFailure .. => 1
  | recordFailure _ true => -1
  | _ => 0

instance : DecidablePred IsFailure
  | recordFailure .. => isTrue trivial
  | countFailure .. | recordSuccess _ | reset _ | reactivate _ => isFalse not_false

instance : DecidablePred IsFreshStart
  | recordSuccess _ | reactivate _ => isTrue trivial
  | countFailure .. | recordFailure .. | reset _ => isFalse not_false

end InstructionMove

/-- The failed executions of an instruction since its last success or reactivation. -/
def failuresSince (id : Id) : List InstructionMove → ℕ :=
  List.foldl (fun n e =>
    if e.instructionId ≠ id then n else if e.IsFailure then n + 1
    else if e.IsFreshStart then 0 else n) 0

/-- The failures of an instruction that are counted and not recorded yet. -/
def unrecorded (id : Id) (h : List InstructionMove) : ℤ :=
  (h.map fun e => if e.instructionId = id then e.counts else 0).sum

section Events

variable {id : Id} {h : List InstructionMove} {e : InstructionMove}

theorem failuresSince_append_of_ne (hid : e.instructionId ≠ id) :
    failuresSince id (h ++ [e]) = failuresSince id h := by
  rw [failuresSince, List.foldl_append, List.foldl_cons, List.foldl_nil, if_pos hid]

theorem failuresSince_append_self :
    failuresSince e.instructionId (h ++ [e]) =
      if e.IsFailure then failuresSince e.instructionId h + 1
      else if e.IsFreshStart then 0 else failuresSince e.instructionId h := by
  rw [failuresSince, List.foldl_append, List.foldl_cons, List.foldl_nil, if_neg fun hne => hne rfl]

theorem failuresSince_countFailure (id : Id) (n : ℕ) :
    failuresSince id (h ++ [.countFailure id n]) = failuresSince id h :=
  failuresSince_append_self (e := .countFailure id n)

theorem failuresSince_recordFailure (id : Id) (counted : Bool) :
    failuresSince id (h ++ [.recordFailure id counted]) = failuresSince id h + 1 :=
  failuresSince_append_self (e := .recordFailure id counted)

theorem failuresSince_recordSuccess (id : Id) : failuresSince id (h ++ [.recordSuccess id]) = 0 :=
  failuresSince_append_self (e := .recordSuccess id)

theorem failuresSince_reset (id : Id) :
    failuresSince id (h ++ [.reset id]) = failuresSince id h :=
  failuresSince_append_self (e := .reset id)

theorem failuresSince_reactivate (id : Id) : failuresSince id (h ++ [.reactivate id]) = 0 :=
  failuresSince_append_self (e := .reactivate id)

theorem unrecorded_append : unrecorded id (h ++ [e]) =
    unrecorded id h + if e.instructionId = id then e.counts else 0 := by
  rw [unrecorded, List.map_append, List.sum_append, List.map_singleton, List.sum_singleton]
  rfl

end Events

/-! ## What the statements do to the instructions -/

/-- The instructions of a database stay, with the number of their retries. -/
def KeepsRetries (s t : Db) : Prop :=
  s.KeepsRows .standingInstruction (fun i i' => i'.maxRetries = i.maxRetries) t

/-- What a statement does to the instructions, and to the failures that its call has counted and
not recorded. -/
inductive InstructionStep (lab : Access) (s : Db) (m : Multiset Id) (t : Db) : Multiset Id → Prop
  | spare (hlab : lab.instruction = none) (hsame : s.Agree [.standingInstruction] t) :
      InstructionStep lab s m t m
  | create (new : StandingInstruction) (hlab : lab.instruction = none)
      (hcounter : new.consecutiveFailures < new.maxRetries)
      (hnew : t.table .standingInstruction = (s.table .standingInstruction).create new) :
      InstructionStep lab s m t m
  | stop (id : Id) (f : StandingInstruction → StandingInstruction)
      (hlab : lab.instruction = none) (hstatus : ∀ i, (f i).status ≠ .active)
      (hnew : t.table .standingInstruction = (s.table .standingInstruction).modify id f) :
      InstructionStep lab s m t m
  | count (id : Id) (n : ℕ) (i : StandingInstruction) (f : StandingInstruction → StandingInstruction)
      (hm : m = 0) (hlab : lab.instruction = some (.countFailure id n))
      (hrow : s.find? .standingInstruction id = some i)
      (hcounter : (f i).consecutiveFailures = n + 1)
      (hstatus : (f i).status = .active → n + 1 < i.maxRetries)
      (hnew : t.table .standingInstruction = (s.table .standingInstruction).modify id f) :
      InstructionStep lab s m t {id}
  | record (id : Id) (hm : m = {id}) (hlab : lab.instruction = some (.recordFailure id true))
      (hrow : (s.find? .standingInstruction id).isSome = true)
      (hsame : s.Agree [.standingInstruction] t) : InstructionStep lab s m t 0
  | recordUncounted (id : Id) (hlab : lab.instruction = some (.recordFailure id false))
      (hsame : s.Agree [.standingInstruction] t) : InstructionStep lab s m t m
  | succeed (id : Id) (hlab : lab.instruction = some (.recordSuccess id))
      (hrow : (s.find? .standingInstruction id).isSome = true)
      (hsame : s.Agree [.standingInstruction] t) : InstructionStep lab s m t m
  | reset (id : Id) (f : StandingInstruction → StandingInstruction)
      (hlab : lab.instruction = some (.reset id))
      (hrow : (s.find? .standingInstruction id).isSome = true)
      (hcounter : ∀ i, (f i).consecutiveFailures = 0) (hstatus : ∀ i, (f i).status = i.status)
      (hnew : t.table .standingInstruction = (s.table .standingInstruction).modify id f) :
      InstructionStep lab s m t m
  | reactivate (id : Id) (f : StandingInstruction → StandingInstruction)
      (hlab : lab.instruction = some (.reactivate id))
      (hrow : (s.find? .standingInstruction id).isSome = true)
      (hcounter : ∀ i, (f i).consecutiveFailures = 0)
      (hnew : t.table .standingInstruction = (s.table .standingInstruction).modify id f) :
      InstructionStep lab s m t m

/-- The protocol of the calls: the debt is what a call has counted and not recorded. -/
def instructionProtocol : Protocol Access Db (Multiset Id) where
  rely := KeepsRetries
  guar := InstructionStep
  refl := fun _ => .of_table_eq (fun _ => rfl) rfl
  trans := fun h h' => h.trans (fun _ _ _ h h' => h'.trans h) h'

theorem keepsRetries_of_agree {s t : Db} (h : s.Agree [.standingInstruction] t) :
    KeepsRetries s t := .of_table_eq (fun _ => rfl) (h _ (List.mem_singleton_self _))

/-- A label that says nothing about an instruction. -/
def Access.SparesInstructions (lab : Access) : Prop := lab.instruction = none

theorem instructionProtocol_allowsSparing : instructionProtocol.AllowsSparing
    Access.SparesInstructions [.standingInstruction] := by
  intro lab s t m hlab hsame
  exact ⟨keepsRetries_of_agree hsame, .spare hlab hsame⟩

/-- An instruction is there, with the retries it was read with. -/
def Db.KnowsInstruction (s : Db) (id : Id) (si : StandingInstruction) : Prop :=
  ∃ i, s.find? .standingInstruction id = some i ∧ i.maxRetries = si.maxRetries

theorem Db.KnowsInstruction.mono {s t : Db} {id : Id} {si : StandingInstruction}
    (h : s.KnowsInstruction id si) (hrely : KeepsRetries s t) : t.KnowsInstruction id si := by
  obtain ⟨i, hrow, hretries⟩ := h
  obtain ⟨i', hrow', hsame⟩ := hrely id i hrow
  exact ⟨i', hrow', hsame.trans hretries⟩

theorem Db.KnowsInstruction.isSome {s : Db} {id : Id} {si : StandingInstruction}
    (h : s.KnowsInstruction id si) : (s.find? .standingInstruction id).isSome = true := by
  obtain ⟨i, hrow, -⟩ := h
  rw [hrow]
  rfl

section Follows

variable {s : Db} {siId : Id} {si : StandingInstruction}

/-- The end of a call: it has recorded what it has counted. -/
abbrev AllRecorded (α : Type) (_s : Db) (m : Multiset Id) (_r : Except Failure α) : Prop := m = 0

/-- An instruction that is rewritten stays, if its retries do. -/
theorem keepsRetries_modify {f : StandingInstruction → StandingInstruction}
    (hf : ∀ i, (f i).maxRetries = i.maxRetries) (s : Db) (id : Id) :
    KeepsRetries s (s.modify .standingInstruction id f) :=
  Db.KeepsRows.modify (m := .standingInstruction) (R := fun i i' => i'.maxRetries = i.maxRetries)
    (fun _ => rfl) s id hf

theorem failInsufficient_follows (h : s.KnowsInstruction siId si) (reason : String) :
    (failInsufficient siId si reason).Follows instructionProtocol (AllRecorded Unit) s 0 := by
  intro t ht
  obtain ⟨i, hrow, hretries⟩ := h.mono ht
  have hkept : KeepsRetries t (t.modify .standingInstruction siId fun i =>
      { i with consecutiveFailures := si.consecutiveFailures + 1,
               status := if si.maxRetries ≤ si.consecutiveFailures + 1 then .suspended
                         else .active }) := by
    apply keepsRetries_modify
    exact fun _ => rfl
  simp only [hrow]
  refine ⟨{siId}, hkept, .count siId si.consecutiveFailures i _ rfl rfl hrow rfl ?_
    (Db.table_modify_self t .standingInstruction siId _), ?_⟩
  · -- the retries that were read are those of the row
    intro hactive
    rw [hretries]
    by_contra hlast
    have hsuspended : StandingInstructionStatus.suspended = .active :=
      (if_pos (not_lt.mp hlast)).symm.trans hactive
    exact absurd hsuspended (by decide)
  · intro u hu
    have hthere := ((h.mono ht).mono hkept).mono hu
    have hsame : u.Agree [.standingInstruction] (u.insert .standingInstructionExecution
        ⟨siId, .failed, si.amount, some reason⟩) := Db.Agree.insert (by decide) u _
    exact ⟨0, keepsRetries_of_agree hsame, .record siId rfl rfl hthere.isSome hsame, rfl⟩

theorem recordExecution_follows (h : s.KnowsInstruction siId si) :
    (recordExecution siId si).Follows instructionProtocol (AllRecorded Unit) s 0 := by
  intro t ht
  have hsame : t.Agree [.standingInstruction] (t.insert .standingInstructionExecution
      ⟨siId, .success, si.amount, none⟩) := Db.Agree.insert (by decide) t _
  refine ⟨0, keepsRetries_of_agree hsame, .succeed siId rfl (h.mono ht).isSome hsame, ?_⟩
  intro u hu
  have hthere := ((h.mono ht).mono (keepsRetries_of_agree hsame)).mono hu
  obtain ⟨i, hrow, -⟩ := id hthere
  simp only [hrow]
  have hreset : ∀ f : StandingInstruction → StandingInstruction,
      (∀ i, (f i).consecutiveFailures = 0 ∧ (f i).status = i.status ∧
        (f i).maxRetries = i.maxRetries) →
      KeepsRetries u (u.modify .standingInstruction siId f) ∧
        InstructionStep { advances := some (.standingInstruction siId, si.nextExecutionDate),
                          instruction := some (.reset siId) }
          u 0 (u.modify .standingInstruction siId f) 0 := fun f hf =>
    ⟨keepsRetries_modify (fun i => (hf i).2.2) u siId, .reset siId f rfl hthere.isSome
      (fun i => (hf i).1) (fun i => (hf i).2.1) (Db.table_modify_self u .standingInstruction siId f)⟩
  refine ⟨0, (hreset _ ?_).1, (hreset _ ?_).2, rfl⟩
  · exact fun _ => ⟨rfl, rfl, rfl⟩
  · exact fun _ => ⟨rfl, rfl, rfl⟩

theorem executeFrom_follows (now : DateTime) (h : s.KnowsInstruction siId si) (source : SavingsAccount) :
    (executeFrom now siId si source).Follows instructionProtocol (AllRecorded Unit) s 0 := by
  have hspares := instructionProtocol_allowsSparing
  have hrecord : ∀ t, instructionProtocol.rely s t →
      (recordExecution siId si).Follows instructionProtocol (AllRecorded Unit) t 0 :=
    fun t ht => recordExecution_follows (h.mono ht)
  have hbalance : ∀ x, Quiet [.standingInstruction] (setBalanceInTx now si.sourceAccountId .withdrawal
      (toNumber si.amount) x (some si.createdById)) := fun x =>
    (Quiet.update (by decide) _ _).bind fun _ => (Quiet.create (by decide) _).bind fun _ => .pure _
  unfold executeFrom
  dsimp only
  split
  · -- an internal transfer
    apply hspares.query rfl
    intro t ht
    cases t.find? .savingsAccount _ with
    | none =>
      intro u hu
      have hsame : u.Agree [.standingInstruction] (u.insert .standingInstructionExecution
        ⟨siId, .failed, si.amount, some "Destination account not found"⟩) :=
          Db.Agree.insert (by decide) u _
      exact ⟨0, keepsRetries_of_agree hsame, .recordUncounted siId rfl hsame, rfl⟩
    | some dest =>
      have htransfer : ∀ destId x y, Quiet [.standingInstruction]
          (transferInTx now si si.sourceAccountId destId x y) := by
        intro destId x y
        apply (Quiet.update (by decide) _ _).bind
        intro _
        apply (Quiet.update (by decide) _ _).bind
        intro _
        apply (Quiet.create (by decide) _).bind
        intro _
        exact (Quiet.create (by decide) _).bind fun _ => .pure _
      apply hspares.first
      · exact .transaction (L := Access.SparesInstructions) (by rfl) (htransfer ..)
      · exact fun u _ hu => hrecord u (instructionProtocol.trans ht hu)
      · exact fun _ _ => rfl
  · -- a repayment of a loan
    have hrepay : ∀ loanId x, Quiet [.standingInstruction] (repayLoanInTx now si loanId x) :=
      fun loanId x => (hbalance x).bind fun _ => (Quiet.create (by decide) _).bind fun _ => .pure _
    apply hspares.first
    · exact .transaction (L := Access.SparesInstructions) (by rfl) (hrepay ..)
    · exact fun t _ ht => hrecord t ht
    · exact fun _ _ => rfl
  · -- a withdrawal
    apply hspares.first
    · exact .transaction (L := Access.SparesInstructions) (by rfl) (hbalance _)
    · exact fun t _ ht => hrecord t ht
    · exact fun _ _ => rfl
  · exact hrecord s (instructionProtocol.refl s)

theorem executeInstruction_follows (now : DateTime) (h : s.KnowsInstruction siId si) :
    (executeInstruction now siId si).Follows instructionProtocol (AllRecorded Unit) s 0 := by
  apply instructionProtocol_allowsSparing.query rfl
  intro t ht
  cases t.find? .savingsAccount si.sourceAccountId with
  | none => exact failInsufficient_follows (h.mono ht) _
  | some source =>
    dsimp only
    split
    · exact failInsufficient_follows (h.mono ht) _
    · exact executeFrom_follows now (h.mono ht) source

/-- The instructions that a run has read stay, while it executes one after the other. -/
theorem runStandingInstructions_follows (now : DateTime) :
    (runStandingInstructions now).Follows instructionProtocol (AllRecorded Unit) s 0 := by
  apply instructionProtocol_allowsSparing.query rfl
  intro t _
  have hread : ∀ e ∈ (t.table .standingInstruction).entries.filter fun e =>
      decide (e.2.status = .active ∧ e.2.nextExecutionDate ≤ now),
      t.KnowsInstruction e.1 e.2 := by
    intro e he
    exact ⟨e.2, OrderedMap.get?_eq_some.mpr (List.mem_filter.mp he).1, rfl⟩
  apply (Follows.forEach (J := fun u => KeepsRetries t u) ?_ (instructionProtocol.refl t)).imp
  · exact fun _ _ _ h => h.1
  · intro e he u hu
    have hexecuted := (executeInstruction_follows now ((hread e he).mono hu)).reaches
    exact hexecuted.imp fun v _ _ h => ⟨h.2, fun _ => instructionProtocol.trans hu h.1⟩

theorem createStandingInstruction_follows (auth : Auth) (body : CreateStandingInstruction) :
    (createStandingInstruction auth body).Follows instructionProtocol (AllRecorded Id) s 0 := by
  have hspares := instructionProtocol_allowsSparing
  apply Follows.require ?_ fun _ => rfl
  intro _
  apply Follows.require ?_ fun _ => rfl
  intro _
  apply Follows.require ?_ fun _ => rfl
  intro _
  apply hspares.query rfl
  intro t _
  apply Follows.orFail ?_ fun _ => rfl
  intro _ _
  apply Follows.orFail ?_ fun _ => rfl
  intro date _
  have hcreated : ∀ new : StandingInstruction, new.consecutiveFailures < new.maxRetries →
      (create .standingInstruction new).Follows instructionProtocol (AllRecorded Id) t 0 := by
    intro new hcounter u _
    exact ⟨0, Db.KeepsRows.insert (m := .standingInstruction)
      (R := fun i i' => i'.maxRetries = i.maxRetries) (fun _ => rfl) u new,
      .create new rfl hcounter (Db.table_insert_self u .standingInstruction new), rfl⟩
  apply (hcreated _ ?_).bind
  · rintro u _ id rfl
    apply hspares.first
    · exact Spares.create (L := Access.SparesInstructions) rfl (by decide) _
    · exact fun _ _ _ => rfl
    · exact fun _ _ => rfl
  · exact fun _ _ _ h => h
  · exact Nat.zero_lt_succ 2

theorem setInstructionStatus_follows (auth : Auth) (id : Id) {status : StandingInstructionStatus}
    (hstatus : status ≠ .active) :
    (setInstructionStatus auth id status).Follows instructionProtocol (AllRecorded Unit) s 0 := by
  have hfirst : (updateGuarded .standingInstruction id (fun i => i.institutionId = auth.institutionId)
      fun i => { i with status }).Follows instructionProtocol (AllRecorded Bool) s 0 := by
    intro t _
    have hsame : InstructionStep {} t 0 t 0 := .spare rfl (Db.Agree.refl t)
    have hset : KeepsRetries t (t.modify .standingInstruction id fun i => { i with status }) := by
      apply keepsRetries_modify
      exact fun _ => rfl
    cases hrow : t.find? .standingInstruction id with
    | none =>
      simp only [hrow]
      exact ⟨0, instructionProtocol.refl t, hsame, rfl⟩
    | some i =>
      by_cases hown : i.institutionId = auth.institutionId
      · simp only [hrow, hown, decide_true, if_true]
        exact ⟨0, hset, .stop id _ rfl (fun _ => hstatus)
          (Db.table_modify_self t .standingInstruction id _), rfl⟩
      · simp only [hrow, hown, decide_false, Bool.false_eq_true, if_false]
        exact ⟨0, instructionProtocol.refl t, hsame, rfl⟩
  apply hfirst.bind
  · rintro t _ updated rfl
    show (Proc.require (updated = true) (Failure.http 404 "Not found")).Follows _ _ t 0
    unfold Proc.require
    split
    · rfl
    · rfl
  · exact fun _ _ _ h => h

theorem reactivateStandingInstruction_follows (auth : Auth) (id : Id) (now : DateTime) :
    (reactivateStandingInstruction auth id now).Follows instructionProtocol
      (AllRecorded StandingInstruction) s 0 := by
  apply instructionProtocol_allowsSparing.query rfl
  intro t _
  apply Follows.orFail ?_ fun _ => rfl
  intro i hfound u hu
  have hthere : u.KnowsInstruction id i :=
    Db.KnowsInstruction.mono ⟨i, (Option.filter_eq_some_iff.mp hfound).1, rfl⟩ hu
  have hset : KeepsRetries u (u.modify .standingInstruction id fun i =>
      { i with status := .active, consecutiveFailures := 0, nextExecutionDate := now }) := by
    apply keepsRetries_modify
    exact fun _ => rfl
  cases hrow : u.find? .standingInstruction id with
  | none =>
    have hnone := hthere.isSome
    rw [hrow] at hnone
    exact absurd hnone Bool.false_ne_true
  | some i' =>
    simp only [hrow]
    exact ⟨0, hset, .reactivate id _ rfl hthere.isSome (fun _ => rfl)
      (Db.table_modify_self u .standingInstruction id _), rfl⟩

end Follows

/-! ## The failures that are counted -/

/-- A failure is counted from a counter that nobody has moved since it was read, on an instruction
that is still active, unless it is the last; it is recorded only if it has been counted; the
counter is reset, and an instruction reactivated, when there is no failure to be forgotten. -/
def Access.CountsEveryFailure (h : List InstructionMove) (lab : Access) (s : Db) : Prop :=
  match lab.instruction with
  | some (.countFailure id n) => ∃ i ∈ s.find? .standingInstruction id,
      i.maxRetries ≤ n + 1 ∨ (i.status = .active ∧ i.consecutiveFailures ≤ n)
  | some (.recordFailure _ counted) => counted = true
  | some (.reset id) => ∀ i ∈ s.find? .standingInstruction id, i.status = .active →
      failuresSince id h = 0 ∧ unrecorded id h = 0
  | some (.reactivate id) => unrecorded id h = 0
  | _ => True

instance (h : List InstructionMove) (lab : Access) (s : Db) :
    Decidable (lab.CountsEveryFailure h s) := by
  unfold Access.CountsEveryFailure
  split <;> infer_instance

/-- The counter of an active instruction covers its failures, those that are not recorded yet
among them, and has not reached its bound. -/
structure Db.Counted (s : Db) (m : Multiset Id) (h : List InstructionMove) : Prop where
  absent : ∀ id, s.find? .standingInstruction id = none → failuresSince id h = 0 ∧ m.count id = 0
  retries : ∀ id i, s.find? .standingInstruction id = some i → 0 < i.maxRetries
  owed : ∀ id, unrecorded id h = m.count id
  covers : ∀ id i, s.find? .standingInstruction id = some i → i.status = .active →
    failuresSince id h + m.count id ≤ i.consecutiveFailures ∧ i.consecutiveFailures < i.maxRetries

/-- What a statement without a label leaves of an instruction, if it does not create it. -/
def StandingInstruction.StaysOrStops (i i' : StandingInstruction) : Prop :=
  i'.maxRetries = i.maxRetries ∧
    (i'.status = .active → i.status = .active ∧ i'.consecutiveFailures = i.consecutiveFailures)

namespace Db.Counted

variable {s t : Db} {m m' : Multiset Id} {h : List InstructionMove}

/-- Instructions are created or stopped. -/
theorem quiet (hs : s.Counted m h) (hrely : KeepsRetries s t)
    (hrows : ∀ id i', t.find? .standingInstruction id = some i' →
      (∃ i, s.find? .standingInstruction id = some i ∧ i.StaysOrStops i') ∨
        (s.find? .standingInstruction id = none ∧ i'.consecutiveFailures < i'.maxRetries)) :
    t.Counted m h := by
  constructor
  · intro id hnone
    apply hs.absent
    cases hrow : s.find? .standingInstruction id with
    | none => rfl
    | some i =>
      obtain ⟨i', hrow', -⟩ := hrely id i hrow
      rw [hnone] at hrow'
      exact absurd hrow' nofun
  · intro id i' hrow'
    rcases hrows id i' hrow' with ⟨i, hrow, hsame, -⟩ | ⟨-, hnew⟩
    · rw [hsame]
      exact hs.retries id i hrow
    · omega
  · exact hs.owed
  · intro id i' hrow' hactive
    rcases hrows id i' hrow' with ⟨i, hrow, hsame, hstays⟩ | ⟨hnone, hnew⟩
    · obtain ⟨hbefore, hcounter⟩ := hstays hactive
      rw [hsame, hcounter]
      exact hs.covers id i hrow hbefore
    · obtain ⟨hfailures, hdebt⟩ := hs.absent id hnone
      omega

/-- Something happens to one instruction. -/
theorem move {e : InstructionMove} (hs : s.Counted m h) (hrely : KeepsRetries s t)
    (hothers : ∀ id, id ≠ e.instructionId →
      t.find? .standingInstruction id = s.find? .standingInstruction id ∧ m'.count id = m.count id)
    (hrow : (s.find? .standingInstruction e.instructionId).isSome = true)
    (howed : (m'.count e.instructionId : ℤ) = m.count e.instructionId + e.counts)
    (hcovers : ∀ i', t.find? .standingInstruction e.instructionId = some i' → i'.status = .active →
      failuresSince e.instructionId (h ++ [e]) + m'.count e.instructionId ≤ i'.consecutiveFailures ∧
        i'.consecutiveFailures < i'.maxRetries) : t.Counted m' (h ++ [e]) := by
  obtain ⟨i, hi⟩ := Option.isSome_iff_exists.mp hrow
  obtain ⟨i', hi', hretries⟩ := hrely _ i hi
  constructor
  · intro id hnone
    by_cases hid : id = e.instructionId
    · rw [hid, hi'] at hnone
      exact absurd hnone nofun
    · obtain ⟨hsame, hdebt⟩ := hothers id hid
      rw [failuresSince_append_of_ne (Ne.symm hid), hdebt]
      exact hs.absent id (hsame.symm.trans hnone)
  · intro id j hj
    by_cases hid : id = e.instructionId
    · rw [hid, hi'] at hj
      rw [← Option.some.inj hj, hretries]
      exact hs.retries _ i hi
    · rw [(hothers id hid).1] at hj
      exact hs.retries id j hj
  · intro id
    rw [unrecorded_append, hs.owed]
    by_cases hid : e.instructionId = id
    · rw [if_pos hid, ← hid, howed]
    · rw [if_neg hid, add_zero, (hothers id (Ne.symm hid)).2]
  · intro id j hj hactive
    by_cases hid : id = e.instructionId
    · rw [hid] at hj ⊢
      exact hcovers j hj hactive
    · obtain ⟨hsame, hdebt⟩ := hothers id hid
      rw [failuresSince_append_of_ne (Ne.symm hid), hdebt]
      rw [hsame] at hj
      exact hs.covers id j hj hactive

/-- A statement that touches one instruction leaves the others. -/
theorem find?_of_modified {id : Id} {f : StandingInstruction → StandingInstruction}
    (hnew : t.table .standingInstruction = (s.table .standingInstruction).modify id f) (id' : Id) :
    t.find? .standingInstruction id' = if id' = id
      then (s.find? .standingInstruction id').map f else s.find? .standingInstruction id' := by
  unfold Db.find?
  rw [hnew, OrderedMap.get?_modify]

/-- The row of an instruction after it was written. -/
theorem exists_of_modified {id : Id} {f : StandingInstruction → StandingInstruction}
    {i' : StandingInstruction}
    (hnew : t.table .standingInstruction = (s.table .standingInstruction).modify id f)
    (hrow' : t.find? .standingInstruction id = some i') :
    ∃ i, s.find? .standingInstruction id = some i ∧ i' = f i := by
  rw [find?_of_modified hnew, if_pos rfl] at hrow'
  obtain ⟨i, hi, heq⟩ := Option.map_eq_some_iff.mp hrow'
  exact ⟨i, hi, heq.symm⟩

/-- One statement of a run. -/
theorem step {lab : Access} {o d d' : Multiset Id} (hs : s.Counted (o + d) h)
    (hrely : KeepsRetries s t) (hguar : InstructionStep lab s d t d')
    (hlab : lab.CountsEveryFailure h s) : t.Counted (o + d') (h ++ instructionEvents lab s t) := by
  unfold Access.CountsEveryFailure at hlab
  unfold instructionEvents
  have hsame : s.Agree [.standingInstruction] t → ∀ id,
      t.find? .standingInstruction id = s.find? .standingInstruction id :=
    fun h => h.find? (List.mem_singleton_self _)
  cases hguar with
  | spare hnone hagree =>
    rw [hnone, Option.toList_none, List.append_nil]
    apply hs.quiet hrely
    intro id i' hrow'
    rw [hsame hagree] at hrow'
    exact .inl ⟨i', hrow', rfl, fun hactive => ⟨hactive, rfl⟩⟩
  | create new hnone hcounter hnew =>
    rw [hnone, Option.toList_none, List.append_nil]
    apply hs.quiet hrely
    intro id i' hrow'
    rw [Db.find?, hnew, OrderedMap.get?_create] at hrow'
    by_cases hid : id = (s.table .standingInstruction).nextKey
    · rw [if_pos hid] at hrow'
      rw [hid, ← Option.some.inj hrow']
      exact .inr ⟨OrderedMap.get?_nextKey _, hcounter⟩
    · rw [if_neg hid] at hrow'
      exact .inl ⟨i', hrow', rfl, fun hactive => ⟨hactive, rfl⟩⟩
  | stop id f hnone hstatus hnew =>
    rw [hnone, Option.toList_none, List.append_nil]
    apply hs.quiet hrely
    intro id' i' hrow'
    by_cases hid : id' = id
    · rw [hid] at hrow' ⊢
      obtain ⟨i, hrow, heq⟩ := exists_of_modified hnew hrow'
      obtain ⟨j, hj, hretries⟩ := hrely id i hrow
      rw [hrow'] at hj
      rw [← Option.some.inj hj] at hretries
      exact .inl ⟨i, hrow, hretries, fun hactive => absurd (heq ▸ hactive) (hstatus i)⟩
    · rw [find?_of_modified hnew, if_neg hid] at hrow'
      exact .inl ⟨i', hrow', rfl, fun hactive => ⟨hactive, rfl⟩⟩
  | count id n i f hm hcount hrow hcounter hstatus hnew =>
    subst hm
    rw [hcount] at hlab ⊢
    obtain ⟨i₀, hi₀, hcurrent⟩ := hlab
    obtain rfl : i = i₀ := Option.some.inj (hrow.symm.trans hi₀)
    have hrow' : t.find? .standingInstruction id = some (f i) := by
      rw [find?_of_modified hnew, if_pos rfl, hrow]
      rfl
    apply hs.move (e := .countFailure id n) hrely
    · intro id' hid
      have hne : id' ≠ id := hid
      rw [find?_of_modified hnew, if_neg hne]
      simp [hne]
    · exact congrArg Option.isSome hrow
    · simp [InstructionMove.counts, InstructionMove.instructionId]
    · intro i' hi' hactive
      obtain ⟨j, hj, hretries⟩ := hrely id i hrow
      have hf : i' = f i := Option.some.inj (hi'.symm.trans hrow')
      have hj' : j = f i := Option.some.inj (hj.symm.trans hrow')
      rw [hf] at hactive ⊢
      rw [hj'] at hretries
      have hlast := hstatus hactive
      rcases hcurrent with hfull | ⟨hbefore, hread⟩
      · omega
      · obtain ⟨hcovers, -⟩ := hs.covers id i hrow hbefore
        have hdebt : (o + {id}).count id = (o + 0).count id + 1 := by simp
        show failuresSince id (h ++ [.countFailure id n]) + (o + {id}).count id ≤ _ ∧ _
        rw [failuresSince_countFailure, hcounter, hretries, hdebt]
        omega
  | record id hm hrecord hrow hagree =>
    subst hm
    rw [hrecord]
    apply hs.move (e := .recordFailure id true) hrely
    · intro id' hid
      have hne : id' ≠ id := hid
      simp [hsame hagree, hne]
    · exact hrow
    · simp [InstructionMove.counts, InstructionMove.instructionId]
    · intro i' hi' hactive
      have hdebt : (o + {id}).count id = (o + 0).count id + 1 := by simp
      obtain ⟨hcovers, hbound⟩ := hs.covers id i' ((hsame hagree id).symm.trans hi') hactive
      show failuresSince id (h ++ [.recordFailure id true]) + (o + 0).count id ≤ _ ∧ _
      rw [failuresSince_recordFailure]
      omega
  | recordUncounted id hrecord hagree =>
    rw [hrecord] at hlab
    exact absurd hlab Bool.false_ne_true
  | succeed id hsuccess hrow hagree =>
    rw [hsuccess]
    apply hs.move (e := .recordSuccess id) hrely
    · exact fun id' _ => ⟨hsame hagree id', rfl⟩
    · exact hrow
    · exact (add_zero _).symm
    · intro i' hi' hactive
      obtain ⟨hcovers, hbound⟩ := hs.covers id i' ((hsame hagree id).symm.trans hi') hactive
      show failuresSince id (h ++ [.recordSuccess id]) + (o + d).count id ≤ _ ∧ _
      rw [failuresSince_recordSuccess]
      omega
  | reset id f hreset hrow hcounter hstatus hnew =>
    rw [hreset] at hlab ⊢
    apply hs.move (e := .reset id) hrely
    · intro id' hid
      have hne : id' ≠ id := hid
      rw [find?_of_modified hnew, if_neg hne]
      exact ⟨rfl, rfl⟩
    · exact hrow
    · exact (add_zero _).symm
    · intro i' hi' hactive
      obtain ⟨i, hi, rfl⟩ := exists_of_modified hnew hi'
      rw [hstatus] at hactive
      obtain ⟨hnone, hrecorded⟩ := hlab i hi hactive
      have howed := hs.owed id
      obtain ⟨j, hj, hretries⟩ := hrely id i hi
      rw [Option.some.inj (hj.symm.trans hi')] at hretries
      have hbound := hs.retries id i hi
      show failuresSince id (h ++ [.reset id]) + (o + d).count id ≤ _ ∧ _
      rw [failuresSince_reset, hcounter, hretries]
      omega
  | reactivate id f hreactivate hrow hcounter hnew =>
    rw [hreactivate] at hlab ⊢
    apply hs.move (e := .reactivate id) hrely
    · intro id' hid
      have hne : id' ≠ id := hid
      rw [find?_of_modified hnew, if_neg hne]
      exact ⟨rfl, rfl⟩
    · exact hrow
    · exact (add_zero _).symm
    · intro i' hi' _
      obtain ⟨i, hi, rfl⟩ := exists_of_modified hnew hi'
      have howed := hs.owed id
      obtain ⟨j, hj, hretries⟩ := hrely id i hi
      rw [Option.some.inj (hj.symm.trans hi')] at hretries
      have hbound := hs.retries id i hi
      show failuresSince id (h ++ [.reactivate id]) + (o + d).count id ≤ _ ∧ _
      rw [failuresSince_reactivate, hcounter, hretries]
      omega

end Db.Counted

/-- Nothing but a reactivation makes an instruction active. -/
theorem InstructionStep.stopped {lab : Access} {s t : Db} {d d' : Multiset Id}
    {h : List InstructionMove} (hguar : InstructionStep lab s d t d')
    (hlab : lab.CountsEveryFailure h s) {id : Id} {i : StandingInstruction}
    (hrow : s.find? .standingInstruction id = some i) (hstopped : i.status ≠ .active)
    (hnone : lab.instruction ≠ some (.reactivate id)) :
    ∃ i', t.find? .standingInstruction id = some i' ∧ i'.status ≠ .active := by
  unfold Access.CountsEveryFailure at hlab
  have hsame : s.Agree [.standingInstruction] t →
      ∃ i', t.find? .standingInstruction id = some i' ∧ i'.status ≠ .active :=
    fun h => ⟨i, (h.find? (List.mem_singleton_self _) id).trans hrow, hstopped⟩
  have hwritten : ∀ id' f, t.table .standingInstruction =
      (s.table .standingInstruction).modify id' f → (id = id' → (f i).status ≠ .active) →
        ∃ i', t.find? .standingInstruction id = some i' ∧ i'.status ≠ .active := by
    intro id' f hnew hstatus
    rw [Db.Counted.find?_of_modified hnew, hrow]
    by_cases hid : id = id'
    · rw [if_pos hid]
      exact ⟨f i, rfl, hstatus hid⟩
    · rw [if_neg hid]
      exact ⟨i, rfl, hstopped⟩
  cases hguar with
  | spare _ hagree => exact hsame hagree
  | create new _ _ hnew =>
    have hne : id ≠ (s.table .standingInstruction).nextKey := by
      rintro rfl
      have hfresh : s.find? .standingInstruction _ = none := OrderedMap.get?_nextKey _
      rw [hrow] at hfresh
      exact absurd hfresh nofun
    rw [Db.find?, hnew, OrderedMap.get?_create, if_neg hne]
    exact ⟨i, hrow, hstopped⟩
  | stop id' f _ hstatus hnew => exact hwritten id' f hnew fun _ => hstatus i
  | count id' n i₀ f _ hcount hrow₀ _ hstatus hnew =>
    rw [hcount] at hlab
    obtain ⟨i₁, hi₁, hcurrent⟩ := hlab
    apply hwritten id' f hnew
    rintro rfl hactive
    obtain rfl : i = i₀ := Option.some.inj (hrow.symm.trans hrow₀)
    obtain rfl : i = i₁ := Option.some.inj (hrow.symm.trans hi₁)
    rcases hcurrent with hlast | ⟨hbefore, -⟩
    · exact absurd (hstatus hactive) (not_lt.mpr hlast)
    · exact hstopped hbefore
  | record _ _ _ _ hagree => exact hsame hagree
  | recordUncounted _ _ hagree => exact hsame hagree
  | succeed _ _ _ hagree => exact hsame hagree
  | reset id' f _ _ _ hstatus hnew =>
    apply hwritten id' f hnew
    intro _
    rw [hstatus]
    exact hstopped
  | reactivate id' f hreactivate _ _ hnew =>
    apply hwritten id' f hnew
    rintro rfl
    exact absurd hreactivate hnone

/-! ## Runs -/

/-- A run of the scheduler, a call about an instruction, and every call that has nothing to do with
the instructions. -/
inductive InstructionCall
  | run (now : DateTime)
  | create (auth : Auth) (body : CreateStandingInstruction)
  | suspend (auth : Auth) (id : Id)
  | cancel (auth : Auth) (id : Id)
  | reactivate (auth : Auth) (id : Id) (now : DateTime)
  | other (q : Handler Unit) (h : Spares Access.SparesInstructions [.standingInstruction] q)

def InstructionCall.handler : InstructionCall → Handler Unit
  | run now => runStandingInstructions now
  | create auth body => do let _ ← createStandingInstruction auth body
  | suspend auth id => suspendStandingInstruction auth id
  | cancel auth id => cancelStandingInstruction auth id
  | reactivate auth id now => do let _ ← reactivateStandingInstruction auth id now
  | other q _ => q

theorem InstructionCall.follows (call : InstructionCall) (s : Db) :
    call.handler.Follows instructionProtocol (AllRecorded Unit) s 0 := by
  cases call with
  | run now => exact runStandingInstructions_follows now
  | create auth body =>
    apply (createStandingInstruction_follows auth body).bind
    · exact fun _ _ _ h => h
    · exact fun _ _ _ h => h
  | suspend auth id => exact setInstructionStatus_follows auth id (by decide)
  | cancel auth id => exact setInstructionStatus_follows auth id (by decide)
  | reactivate auth id now =>
    apply (reactivateStandingInstruction_follows auth id now).bind
    · exact fun _ _ _ h => h
    · exact fun _ _ _ h => h
  | other q h => exact instructionProtocol_allowsSparing.last h fun _ _ _ => rfl

section Runs

variable {ι : Type} [DecidableEq ι]

def instructionPool (calls : ι → InstructionCall) (s : Db) : Pool ι Access Db Failure Unit :=
  ⟨fun i => (calls i).handler, s⟩

/-- Every instruction has retries, and an active one has some of them left. -/
def Db.RetriesLeft (s : Db) : Prop :=
  ∀ i ∈ (s.table .standingInstruction).values,
    0 < i.maxRetries ∧ (i.status = .active → i.consecutiveFailures < i.maxRetries)

instance (s : Db) : Decidable s.RetriesLeft :=
  inferInstanceAs (Decidable (∀ i ∈ (s.table .standingInstruction).values, _))

/-- What a run of calls does to the instructions: one whose last executions failed, as often as it
may be retried, is not active, and one that was stopped is active only after it was reactivated. -/
structure StopsInstructions (calls : ι → InstructionCall) (s : Db) (sched : List ι) : Prop where
  exhausted : ∀ id i,
    ((instructionPool calls s).run sched).state.find? .standingInstruction id = some i →
    i.maxRetries ≤ failuresSince id ((instructionPool calls s).history instructionEvents sched) →
      i.status ≠ .active
  stopped : ∀ before after, sched = before ++ after → ∀ id i i',
    ((instructionPool calls s).run before).state.find? .standingInstruction id = some i →
    i.status ≠ .active →
    .reactivate id ∉ ((instructionPool calls s).run before).history instructionEvents after →
    ((instructionPool calls s).run sched).state.find? .standingInstruction id = some i' →
      i'.status ≠ .active

variable [Fintype ι]

/-- The counters after a run in which every failure is counted. -/
theorem instructionPool_counted (calls : ι → InstructionCall) (s : Db) (sched : List ι)
    (hstart : s.RetriesLeft)
    (hcounts : (instructionPool calls s).AllowedAfter instructionEvents Access.CountsEveryFailure []
      sched) :
    ∃ d, ((instructionPool calls s).run sched).Follows instructionProtocol (fun m _ => m = 0) d ∧
      ((instructionPool calls s).run sched).state.Counted (∑ i, d i)
        ((instructionPool calls s).history instructionEvents sched) := by
  have hfollows : (instructionPool calls s).Follows instructionProtocol (fun m _ => m = 0)
      fun _ => 0 := fun i => (calls i).follows s
  have hrows : ∀ id i, s.find? .standingInstruction id = some i →
      0 < i.maxRetries ∧ (i.status = .active → i.consecutiveFailures < i.maxRetries) := by
    intro id i hrow
    exact hstart i (OrderedMap.mem_values.mpr ⟨id, hrow⟩)
  have hbegin : s.Counted (∑ _i : ι, 0) [] := by
    rw [Finset.sum_const_zero]
    constructor
    · exact fun _ _ => ⟨rfl, rfl⟩
    · exact fun id i hrow => (hrows id i hrow).1
    · exact fun _ => rfl
    · exact fun id i hrow hactive => ⟨Nat.zero_le _, (hrows id i hrow).2 hactive⟩
  have hrun := hfollows.run_totals
    (fun lab s d t d' o h hguar hrely hlab ht => ht.step hrely hguar hlab) hbegin hcounts
  rwa [List.nil_append] at hrun

/-- Runs in which every failure is counted. -/
theorem failing_instructions_stop (calls : ι → InstructionCall) (s : Db) (sched : List ι)
    (hstart : s.RetriesLeft)
    (hcounts : (instructionPool calls s).AllowedAfter instructionEvents Access.CountsEveryFailure []
      sched) : StopsInstructions calls s sched := by
  constructor
  · intro id i hrow hfailures hactive
    obtain ⟨d, -, hend⟩ := instructionPool_counted calls s sched hstart hcounts
    obtain ⟨hcovers, hbound⟩ := hend.covers id i hrow hactive
    omega
  · rintro before after rfl id i i' hrow hstopped hnone hrow'
    obtain ⟨hbefore, hafter⟩ := Pool.allowedAfter_append.mp hcounts
    obtain ⟨d, hfollows, -⟩ := instructionPool_counted calls s before hstart hbefore
    rw [List.nil_append] at hafter
    -- what has happened since then does not reactivate the instruction
    have hrun := hfollows.run_history (K := fun _ _ => True)
      (J := fun t h => ∃ new, h = (instructionPool calls s).history instructionEvents before ++ new ∧
        (.reactivate id ∉ new →
          ∃ i', t.find? .standingInstruction id = some i' ∧ i'.status ≠ .active))
      (fun _ _ _ _ => trivial) ?_ ⟨[], (List.append_nil _).symm, fun _ => ⟨i, hrow, hstopped⟩⟩
      (fun _ => trivial) hafter
    · obtain ⟨new, heq, hstops⟩ := hrun
      rw [List.append_cancel_left heq] at hnone
      rw [Pool.run_append] at hrow'
      obtain ⟨j, hj, hstatus⟩ := hstops hnone
      rw [Option.some.inj (hrow'.symm.trans hj)]
      exact hstatus
    · rintro lab t d t' d' h hguar - hlab ⟨new, rfl, hstops⟩ -
      refine ⟨⟨new ++ instructionEvents lab t t', (List.append_assoc ..).symm ▸ rfl, ?_⟩, trivial⟩
      intro hmem
      rw [List.mem_append, not_or] at hmem
      obtain ⟨j, hj, hstatus⟩ := hstops hmem.1
      apply hguar.stopped hlab hj hstatus
      intro hreactivate
      apply hmem.2
      rw [instructionEvents, hreactivate]
      exact List.mem_singleton_self _

end Runs

/-! ## Instructions that fail -/

/-- A savings account with 10.00 and an instruction of it. -/
def instructionDb (si : StandingInstruction) : Db :=
  (Db.empty.insert .savingsAccount { institutionId := 1, customerId := 1, balance := 1000 }).insert
    .standingInstruction si

/-- More money is to be withdrawn every day than there is. -/
def overdrawingInstruction : StandingInstruction where
  institutionId := 1
  type := .scheduledWithdrawal
  sourceAccountId := 1
  amount := 5000
  frequency := .daily
  nextExecutionDate := 0
  createdById := 1

/-- Three runs, a reactivation, and one more run. -/
def failingCalls : Fin 5 → InstructionCall :=
  ![.run 10, .run 20, .run 30, .reactivate ⟨1, 1⟩ 1 30, .run 40]

theorem failing_instructions_stop_daily :
    (instructionDb overdrawingInstruction).RetriesLeft ∧
      (instructionPool failingCalls (instructionDb overdrawingInstruction)).AllowedAfter
        instructionEvents Access.CountsEveryFailure []
        [0, 0, 0, 0, 1, 1, 1, 1, 2, 2, 2, 2, 3, 3, 4, 4, 4, 4] ∧
      StopsInstructions failingCalls (instructionDb overdrawingInstruction)
        [0, 0, 0, 0, 1, 1, 1, 1, 2, 2, 2, 2, 3, 3, 4, 4, 4, 4] := by
  have hstart : (instructionDb overdrawingInstruction).RetriesLeft := by decide +kernel
  have hcounts : (instructionPool failingCalls
      (instructionDb overdrawingInstruction)).AllowedAfter instructionEvents
      Access.CountsEveryFailure [] [0, 0, 0, 0, 1, 1, 1, 1, 2, 2, 2, 2, 3, 3, 4, 4, 4, 4] := by
    decide +kernel
  exact ⟨hstart, hcounts, failing_instructions_stop failingCalls _ _ hstart hcounts⟩

/-- A transfer to an account that does not exist. -/
def lostTransfer : StandingInstruction where
  institutionId := 1
  type := .internalTransfer
  sourceAccountId := 1
  destinationAccountId := some 9
  amount := 500
  frequency := .daily
  nextExecutionDate := 0
  createdById := 1

/-- A transfer whose destination is missing fails three times and is still active, and an
instruction that is suspended while a run executes it is set back to active by the run. -/
theorem failing_instructions_go_on :
    (instructionDb lostTransfer).RetriesLeft ∧
      ¬ StopsInstructions (![.run 10, .run 20, .run 30] : Fin 3 → InstructionCall)
        (instructionDb lostTransfer) [0, 0, 0, 0, 1, 1, 1, 1, 2, 2, 2, 2] ∧
    (instructionDb overdrawingInstruction).RetriesLeft ∧
      ¬ StopsInstructions (![.run 10, .suspend ⟨1, 1⟩ 1] : Fin 2 → InstructionCall)
        (instructionDb overdrawingInstruction) [0, 0, 1, 0, 0] := by
  refine ⟨by decide +kernel, ?_, by decide +kernel, ?_⟩
  · intro h
    exact h.exhausted 1 lostTransfer rfl (by decide +kernel) rfl
  · intro h
    exact h.stopped [0, 0, 1] [0, 0] rfl 1 { overdrawingInstruction with status := .suspended }
      { overdrawingInstruction with consecutiveFailures := 1 } rfl (by decide) (by decide +kernel)
      rfl rfl

end NexusEfos
