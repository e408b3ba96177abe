/-
Financial periods: their endpoints of `routes/generalLedger.routes.ts`.

A period is entered as two days, and is compared as two instants, each the first moment of
its day.  So the last day of a period is not covered by it (`periods_cover_iff`).

A locked period cannot be reopened: the request for it is refused.  But a request that was
filed before the period was locked can still be approved, and a call that has found the
period open can still close it (`lockedPeriod_reopened`).  Apart from these two a locked
period stays locked (`locked_stays_locked`).
-/
import NexusEfos.Approvals.ExactlyOnce

namespace NexusEfos

/-! ## The code -/

/-- `periodSchema`, with the two dates that are made from its strings. -/
structure PeriodBody where
  name : String
  startDate : DateTime
  endDate : DateTime

/-- `POST /financial-periods`. -/
def createFinancialPeriod (auth : Auth) (body : PeriodBody) : Handler Id := do
  Proc.require (1 ≤ jsLength body.name) .invalid
  let overlap ← findFirst .financialPeriod fun _ p =>
    p.institutionId = auth.institutionId ∧ p.startDate ≤ body.endDate ∧ body.startDate ≤ p.endDate
  match overlap with
  | some found =>
    Proc.fail (.http 400 ("This date range overlaps an existing period (" ++ found.2.name ++ ")"))
  | none =>
    let period ← create .financialPeriod
      { institutionId := auth.institutionId, name := body.name, startDate := body.startDate,
        endDate := body.endDate }
    let _ ← create .auditLog
      { institutionId := auth.institutionId, userId := some auth.userId,
        action := "financial_period.create", resource := "financial_period",
        resourceId := some period }
    return period

def findPeriod (auth : Auth) (periodId : Id) : Handler FinancialPeriod := do
  let period ← findById .financialPeriod periodId fun p => p.institutionId = auth.institutionId
  Proc.orFail period (.http 404 "Period not found")

/-- The log entry about a period. -/
def periodLog (auth : Auth) (action : String) (periodId : Id) : AuditLog :=
  { institutionId := auth.institutionId, userId := some auth.userId, action,
    resource := "financial_period", resourceId := some periodId }

/-- `POST /financial-periods/:id/close`. -/
def closePeriod (auth : Auth) (now : DateTime) (periodId : Id) : Handler FinancialPeriod := do
  let period ← findPeriod auth periodId
  Proc.require (period.status = .opened)
    (.http 400 ("Only an OPEN period can be closed (currently " ++ period.status.text ++ ")"))
  let updated ← updateAs { closes := some periodId } .financialPeriod periodId fun p =>
    { p with status := .closed, closedById := some auth.userId, closedAt := some now }
  let _ ← create .auditLog (periodLog auth "financial_period.close" periodId)
  return updated

/-- `POST /financial-periods/:id/request-reopen`. -/
def requestReopen (auth : Auth) (periodId : Id) (reason : Option String) : Handler Unit := do
  let reason ← Proc.orFail (reason.filter fun text => text ≠ "")
    (.http 400 "A reason is required to reopen a closed period")
  let period ← findPeriod auth periodId
  Proc.require (period.status ≠ .opened) (.http 400 "This period is already open")
  Proc.require (period.status ≠ .locked) (.http 400 "A LOCKED period cannot be reopened")
  let _ ← create .approvalRequest
    { institutionId := auth.institutionId, type := .financialPeriodReopen,
      targetType := "FinancialPeriod", targetId := periodId, reason := some reason,
      requestedById := auth.userId }

/-- `POST /financial-periods/:id/lock`. -/
def lockPeriod (auth : Auth) (now : DateTime) (periodId : Id) : Handler FinancialPeriod := do
  let period ← findPeriod auth periodId
  Proc.require (period.status = .closed) (.http 400 "Only a CLOSED period can be locked")
  let updated ← update .financialPeriod periodId fun p =>
    { p with status := .locked, lockedById := some auth.userId, lockedAt := some now }
  let _ ← create .auditLog (periodLog auth "financial_period.lock" periodId)
  return updated

/-! ## The days of the periods -/

/-- Create some periods, one after the other. -/
def createFinancialPeriods (auth : Auth) (bodies : List PeriodBody) : Handler Unit :=
  Proc.forEach bodies fun body => discard (createFinancialPeriod auth body)

/-- Both dates come from date-only strings, so they are the first moments of two days. -/
def PeriodBody.IsDateOnly (body : PeriodBody) : Prop :=
  body.startDate % msPerDay = 0 ∧ body.endDate % msPerDay = 0

instance (body : PeriodBody) : Decidable body.IsDateOnly :=
  inferInstanceAs (Decidable (body.startDate % msPerDay = 0 ∧ body.endDate % msPerDay = 0))

/-- The first moment of a day that begins before the end of another. -/
theorem le_of_lt_add_msPerDay {a b : ℤ} (ha : a % msPerDay = 0) (hb : b % msPerDay = 0)
    (h : a < b + msPerDay) : a ≤ b := by
  unfold msPerDay at *
  omega

/-- Each period starts on the day after the one before it ends. -/
def Consecutive (bodies : List PeriodBody) : Prop :=
  bodies.IsChain fun body next => next.startDate = body.endDate + msPerDay

/-- The instant lies between the two boundaries of the period, as they are compared. -/
def FinancialPeriod.Covers (p : FinancialPeriod) (date : DateTime) : Prop :=
  p.startDate ≤ date ∧ date ≤ p.endDate

/-- No two periods of an institution overlap. -/
def Db.PeriodsDisjoint (s : Db) (institutionId : Id) : Prop :=
  ∀ id id' p p', s.find? .financialPeriod id = some p → s.find? .financialPeriod id' = some p' →
    p.institutionId = institutionId → p'.institutionId = institutionId → id ≠ id' →
      ¬ (p.startDate ≤ p'.endDate ∧ p'.startDate ≤ p.endDate)

/-- The row that is created from a request. -/
def PeriodBody.period (auth : Auth) (body : PeriodBody) : FinancialPeriod :=
  { institutionId := auth.institutionId, name := body.name, startDate := body.startDate,
    endDate := body.endDate }

section Days

variable {s t : Db} {auth : Auth} {body : PeriodBody} {bodies : List PeriodBody} {date : DateTime}

theorem run_createFinancialPeriod_eq_ok {id : Id}
    (h : (createFinancialPeriod auth body).run s = (.ok id, t)) :
    (∀ id' p, s.find? .financialPeriod id' = some p → p.institutionId = auth.institutionId →
      ¬ (p.startDate ≤ body.endDate ∧ body.startDate ≤ p.endDate)) ∧
      t.table .financialPeriod = (s.insert .financialPeriod (body.period auth)).table .financialPeriod := by
  obtain ⟨-, h₁⟩ := run_require_bind_eq_ok h
  obtain ⟨overlap, s₁, hread, h₂⟩ := Proc.run_bind_eq_ok h₁
  obtain ⟨hoverlap, hs₁⟩ := Prod.mk.inj hread
  cases overlap with
  | some found => exact absurd (congrArg Prod.fst h₂) nofun
  | none =>
    obtain ⟨period, s₂, hcreate, h₃⟩ := Proc.run_bind_eq_ok h₂
    obtain ⟨-, hs₂⟩ := run_create_eq_ok hcreate
    obtain ⟨entry, s₃, haudit, h₄⟩ := Proc.run_bind_eq_ok h₃
    obtain ⟨-, hs₃⟩ := run_create_eq_ok haudit
    constructor
    · intro id' p hp hinstitution hboth
      have hnone := List.find?_eq_none.mp (Except.ok.inj hoverlap) (id', p)
        (OrderedMap.get?_eq_some.mp hp)
      exact hnone (decide_eq_true ⟨hinstitution, hboth⟩)
    · rw [← (Prod.mk.inj h₄).2, hs₃, Db.table_insert_of_ne (by decide), hs₂, ← hs₁]
      rfl

/-- The periods that were there, the new ones, and nothing else. -/
theorem run_createFinancialPeriods_eq_ok {u : Unit} (hs : s.PeriodsDisjoint auth.institutionId)
    (h : (createFinancialPeriods auth bodies).run s = (.ok u, t)) :
    t.PeriodsDisjoint auth.institutionId ∧
      (∀ id p, s.find? .financialPeriod id = some p → t.find? .financialPeriod id = some p) ∧
      (∀ b ∈ bodies, ∃ id, t.find? .financialPeriod id = some (b.period auth)) ∧
      ∀ id p, t.find? .financialPeriod id = some p →
        s.find? .financialPeriod id = some p ∨ ∃ b ∈ bodies, p = b.period auth := by
  induction bodies generalizing s with
  | nil =>
    have hsame : t = s := (Prod.mk.inj h).2.symm
    rw [hsame]
    exact ⟨hs, fun _ _ hp => hp, fun _ hb => absurd hb List.not_mem_nil, fun _ _ hp => .inl hp⟩
  | cons b bs ih =>
    obtain ⟨_, s₁, hfirst, hrest⟩ := Proc.run_bind_eq_ok h
    obtain ⟨id₁, s₂, hcreate, hend⟩ := Proc.run_bind_eq_ok hfirst
    rw [← (Prod.mk.inj hend).2] at hrest
    obtain ⟨hfree, htable⟩ := run_createFinancialPeriod_eq_ok hcreate
    have hfind : ∀ id, s₂.find? .financialPeriod id =
        if id = s.nextId .financialPeriod then some (b.period auth)
        else s.find? .financialPeriod id := by
      intro id
      rw [← Db.find?_insert, Db.find?, htable]
      rfl
    have hold : ∀ id p, s.find? .financialPeriod id = some p →
        s₂.find? .financialPeriod id = some p := by
      intro id p hp
      have hid : id ≠ s.nextId .financialPeriod := by
        intro heq
        have hnone : s.find? .financialPeriod (s.nextId .financialPeriod) = none :=
          OrderedMap.get?_nextKey _
        rw [heq, hnone] at hp
        exact absurd hp (by simp)
      rw [hfind, if_neg hid]
      exact hp
    have hdisjoint : s₂.PeriodsDisjoint auth.institutionId := by
      intro id id' p p' hp hp' hinst hinst' hne
      rw [hfind] at hp hp'
      by_cases hid : id = s.nextId .financialPeriod
      · have hid' : id' ≠ s.nextId .financialPeriod := fun heq => hne (hid.trans heq.symm)
        rw [if_pos hid] at hp
        rw [if_neg hid'] at hp'
        rw [← Option.some.inj hp]
        intro hboth
        exact hfree id' p' hp' hinst' ⟨hboth.2, hboth.1⟩
      · rw [if_neg hid] at hp
        by_cases hid' : id' = s.nextId .financialPeriod
        · rw [if_pos hid'] at hp'
          rw [← Option.some.inj hp']
          exact hfree id p hp hinst
        · rw [if_neg hid'] at hp'
          exact hs id id' p p' hp hp' hinst hinst' hne
    obtain ⟨htdisjoint, hkept, hnew, honly⟩ := ih hdisjoint hrest
    refine ⟨htdisjoint, fun id p hp => hkept id p (hold id p hp), ?_, ?_⟩
    · intro b' hb'
      rcases List.mem_cons.mp hb' with rfl | hb'
      · refine ⟨s.nextId .financialPeriod, hkept _ _ ?_⟩
        rw [hfind, if_pos rfl]
      · exact hnew b' hb'
    · intro id p hp
      rcases honly id p hp with hp₂ | ⟨b', hb', hrow⟩
      · rw [hfind] at hp₂
        by_cases hid : id = s.nextId .financialPeriod
        · rw [if_pos hid] at hp₂
          exact .inr ⟨b, List.mem_cons_self .., (Option.some.inj hp₂).symm⟩
        · rw [if_neg hid] at hp₂
          exact .inl hp₂
      · exact .inr ⟨b', List.mem_cons_of_mem b hb', hrow⟩

/-- Consecutive periods leave no day between them. -/
theorem exists_day_of_consecutive (hchain : Consecutive bodies) {first last : PeriodBody}
    (hfirst : bodies.head? = some first) (hlast : bodies.getLast? = some last)
    (hstart : first.startDate ≤ date) (hend : date < last.endDate + msPerDay) :
    ∃ b ∈ bodies, b.startDate ≤ date ∧ date < b.endDate + msPerDay := by
  induction bodies generalizing first with
  | nil => exact absurd hfirst nofun
  | cons b bs ih =>
    have hb : b = first := Option.some.inj hfirst
    by_cases hday : date < b.endDate + msPerDay
    · exact ⟨b, List.mem_cons_self .., hb ▸ hstart, hday⟩
    · cases bs with
      | nil =>
        have hsame : b = last := Option.some.inj hlast
        rw [hsame] at hday
        exact absurd hend hday
      | cons next rest =>
        obtain ⟨hnext, hchain'⟩ := List.isChain_cons_cons.mp hchain
        have hlast' : (next :: rest).getLast? = some last := by
          rw [← hlast, List.getLast?_cons_cons]
        have hstart' : next.startDate ≤ date := by
          rw [hnext]
          exact not_lt.mp hday
        obtain ⟨b', hb', hcovers⟩ := ih hchain' rfl hlast' hstart'
        exact ⟨b', List.mem_cons_of_mem b hb', hcovers⟩

/-- Consecutive periods that do not overlap cover an instant, unless it lies in the last day of
one of them and is not its first moment. -/
theorem covered_iff (hdays : ∀ b ∈ bodies, b.IsDateOnly) (hchain : Consecutive bodies)
    (hdisjoint : ∀ b ∈ bodies, ∀ b' ∈ bodies, b.endDate ≠ b'.endDate →
      ¬ (b.startDate ≤ b'.endDate ∧ b'.startDate ≤ b.endDate))
    {first last : PeriodBody} (hfirst : bodies.head? = some first)
    (hlast : bodies.getLast? = some last) (hstart : first.startDate ≤ date)
    (hend : date < last.endDate + msPerDay) :
    (∃ b ∈ bodies, b.startDate ≤ date ∧ date ≤ b.endDate) ↔
      ∀ b ∈ bodies, b.startDate ≤ b.endDate →
        ¬ (b.endDate < date ∧ date < b.endDate + msPerDay) := by
  constructor
  · rintro ⟨b₀, hb₀, hstart₀, hend₀⟩ b hb hproper hlate
    have hbefore : b.endDate < b₀.endDate := lt_of_lt_of_le hlate.1 hend₀
    apply hdisjoint b hb b₀ hb₀ (ne_of_lt hbefore)
    constructor
    · exact le_trans hproper (le_of_lt hbefore)
    · exact le_of_lt_add_msPerDay (hdays b₀ hb₀).1 (hdays b hb).2 (lt_of_le_of_lt hstart₀ hlate.2)
  · intro h
    obtain ⟨b, hb, hcovers⟩ := exists_day_of_consecutive hchain hfirst hlast hstart hend
    have hproper : b.startDate ≤ b.endDate :=
      le_of_lt_add_msPerDay (hdays b hb).1 (hdays b hb).2 (lt_of_le_of_lt hcovers.1 hcovers.2)
    refine ⟨b, hb, hcovers.1, ?_⟩
    by_contra hlate
    exact h b hb hproper ⟨not_le.mp hlate, hcovers.2⟩

/-- Consecutive periods that have been created from date-only strings: for every instant from
the first moment of the first day to the last moment of the last day, a period is found exactly
if the instant does not lie in the last day of a period after its first moment, and no two
periods qualify. -/
theorem periods_cover_iff {u : Unit}
    (hnone : ∀ id p, s.find? .financialPeriod id = some p → p.institutionId ≠ auth.institutionId)
    (hdays : ∀ b ∈ bodies, b.IsDateOnly) (hchain : Consecutive bodies)
    (hcreated : (createFinancialPeriods auth bodies).run s = (.ok u, t))
    {first last : PeriodBody} (hfirst : bodies.head? = some first)
    (hlast : bodies.getLast? = some last) (hstart : first.startDate ≤ date)
    (hend : date < last.endDate + msPerDay) :
    ((∃ found, ((findPostablePeriod auth.institutionId date).run t).1 = .ok (some found)) ↔
        ∀ b ∈ bodies, b.startDate ≤ b.endDate →
          ¬ (b.endDate < date ∧ date < b.endDate + msPerDay)) ∧
      ∀ id id' p p', t.find? .financialPeriod id = some p → t.find? .financialPeriod id' = some p' →
        p.institutionId = auth.institutionId → p'.institutionId = auth.institutionId →
        p.Covers date → p'.Covers date → id = id' := by
  have hdisjoint₀ : s.PeriodsDisjoint auth.institutionId :=
    fun id _ p _ hp _ hinst _ _ => absurd hinst (hnone id p hp)
  obtain ⟨hdisjoint, -, hnew, honly⟩ := run_createFinancialPeriods_eq_ok hdisjoint₀ hcreated
  constructor
  · rw [← covered_iff hdays hchain ?_ hfirst hlast hstart hend]
    · constructor
      · rintro ⟨⟨id, p⟩, hfound⟩
        have hsome : ((t.table .financialPeriod).entries.find? fun e =>
            decide (e.2.institutionId = auth.institutionId ∧ e.2.startDate ≤ date ∧
              date ≤ e.2.endDate)) = some (id, p) := Except.ok.inj hfound
        have hp : t.find? .financialPeriod id = some p :=
          OrderedMap.get?_eq_some.mpr (List.mem_of_find?_eq_some hsome)
        have hqualifies := List.find?_some hsome
        obtain ⟨hinst, hcovers⟩ := of_decide_eq_true hqualifies
        rcases honly id p hp with hold | ⟨b, hb, hrow⟩
        · exact absurd hinst (hnone id p hold)
        · rw [hrow] at hcovers
          exact ⟨b, hb, hcovers⟩
      · rintro ⟨b, hb, hcovers⟩
        obtain ⟨id, hid⟩ := hnew b hb
        have hsome : ((t.table .financialPeriod).entries.find? fun e =>
            decide (e.2.institutionId = auth.institutionId ∧ e.2.startDate ≤ date ∧
              date ≤ e.2.endDate)).isSome := by
          rw [List.find?_isSome]
          exact ⟨(id, b.period auth), OrderedMap.get?_eq_some.mp hid,
            decide_eq_true ⟨rfl, hcovers⟩⟩
        obtain ⟨found, hfound⟩ := Option.isSome_iff_exists.mp hsome
        exact ⟨found, congrArg Except.ok hfound⟩
    · intro b hb b' hb' hne
      obtain ⟨id, hid⟩ := hnew b hb
      obtain ⟨id', hid'⟩ := hnew b' hb'
      refine hdisjoint id id' _ _ hid hid' rfl rfl ?_
      intro heq
      rw [heq, hid'] at hid
      exact hne (congrArg FinancialPeriod.endDate (Option.some.inj hid)).symm
  · intro id id' p p' hp hp' hinst hinst' hcovers hcovers'
    by_contra hne
    apply hdisjoint id id' p p' hp hp' hinst hinst' hne
    exact ⟨le_trans hcovers.1 hcovers'.2, le_trans hcovers'.1 hcovers.2⟩

end Days

/-- January and February 1970. -/
def januaryFebruary : List PeriodBody :=
  [⟨"January", 0, 30 * msPerDay⟩, ⟨"February", 31 * msPerDay, 58 * msPerDay⟩]

/-- The accountant who enters them. -/
def accountant : Auth := ⟨1, 1⟩

theorem run_januaryFebruary :
    ((createFinancialPeriods accountant januaryFebruary).run .empty).1 = .ok () := by decide +kernel

/-- The evening of 30 January. -/
theorem periods_cover_iff_januaryFebruary :
    ((∃ found, ((findPostablePeriod accountant.institutionId (30 * msPerDay - 1)).run
      ((createFinancialPeriods accountant januaryFebruary).run .empty).2).1 = .ok (some found)) ↔
        ∀ b ∈ januaryFebruary, b.startDate ≤ b.endDate →
          ¬ (b.endDate < 30 * msPerDay - 1 ∧ 30 * msPerDay - 1 < b.endDate + msPerDay)) ∧
      ∀ id id' p p', ((createFinancialPeriods accountant januaryFebruary).run .empty).2.find?
          .financialPeriod id = some p →
        ((createFinancialPeriods accountant januaryFebruary).run .empty).2.find? .financialPeriod id' =
          some p' → p.institutionId = accountant.institutionId →
        p'.institutionId = accountant.institutionId → p.Covers (30 * msPerDay - 1) →
        p'.Covers (30 * msPerDay - 1) → id = id' :=
  periods_cover_iff (s := .empty) (fun _ _ hp => absurd hp nofun) (by decide)
    (by simp [Consecutive, januaryFebruary, msPerDay]) (Prod.ext run_januaryFebruary rfl) rfl rfl
    (by decide) (by decide)

/-- The noon of 31 January is in no period. -/
theorem lastDay_uncovered :
    ¬ ∀ (auth : Auth) (bodies : List PeriodBody) (first last : PeriodBody) (date : DateTime),
      (∀ b ∈ bodies, b.IsDateOnly) → Consecutive bodies →
      ((createFinancialPeriods auth bodies).run .empty).1 = .ok () →
      bodies.head? = some first → bodies.getLast? = some last → first.startDate ≤ date →
      date < last.endDate + msPerDay →
        ∃ found, ((findPostablePeriod auth.institutionId date).run
          ((createFinancialPeriods auth bodies).run .empty).2).1 = .ok (some found) := by
  intro h
  obtain ⟨found, hfound⟩ := h accountant januaryFebruary _ _ (30 * msPerDay + 43200000) (by decide)
    (by simp [Consecutive, januaryFebruary, msPerDay]) run_januaryFebruary rfl rfl (by decide)
    (by decide)
  have hsome : ((findPostablePeriod accountant.institutionId (30 * msPerDay + 43200000)).run
      ((createFinancialPeriods accountant januaryFebruary).run .empty).2).1.toOption.join.isSome =
        true := by
    rw [hfound]
    rfl
  revert hsome
  decide +kernel

/-! ## A locked period -/

/-- The calls that move a period. -/
inductive PeriodCall
  | close (auth : Auth) (now : DateTime) (periodId : Id)
  | lock (auth : Auth) (now : DateTime) (periodId : Id)
  | requestReopen (auth : Auth) (periodId : Id) (reason : Option String)
  | resolve (call : ResolveCall)

def PeriodCall.handler : PeriodCall → Handler Unit
  | close auth now periodId => discard (closePeriod auth now periodId)
  | lock auth now periodId => discard (lockPeriod auth now periodId)
  | requestReopen auth periodId reason => NexusEfos.requestReopen auth periodId reason
  | resolve call => call.handler

def periodPool {ι : Type} (calls : ι → PeriodCall) (s : Db) : Pool ι Access Db Failure Unit :=
  ⟨fun i => (calls i).handler, s⟩

/-- The period is locked. -/
def Db.Locked (s : Db) (periodId : Id) : Prop :=
  (s.find? .financialPeriod periodId).map FinancialPeriod.status = some .locked

instance (s : Db) (periodId : Id) : Decidable (s.Locked periodId) :=
  inferInstanceAs (Decidable ((s.find? .financialPeriod periodId).map FinancialPeriod.status =
    some .locked))

/-- The statement neither approves the reopening of a locked period, nor is it the one with
which a call closes a period that has been locked since the call looked at it. -/
def Access.LeavesLocked (lab : Access) (s : Db) : Prop :=
  (∀ r ∈ lab.resolves, r.approved = true → r.request.type = .financialPeriodReopen →
    (s.find? .approvalRequest r.requestId).map ApprovalRequest.status = some .pending →
      ¬ s.Locked r.request.targetId) ∧ ∀ id ∈ lab.closes, ¬ s.Locked id

instance (lab : Access) (s : Db) : Decidable (lab.LeavesLocked s) :=
  inferInstanceAs (Decidable ((∀ r ∈ lab.resolves, r.approved = true →
    r.request.type = .financialPeriodReopen →
    (s.find? .approvalRequest r.requestId).map ApprovalRequest.status = some .pending →
      ¬ s.Locked r.request.targetId) ∧ ∀ id ∈ lab.closes, ¬ s.Locked id))

/-- Locked periods stay locked. -/
def Db.KeepsLocked (s t : Db) : Prop := ∀ id, s.Locked id → t.Locked id

section Locked

variable {s t u : Db}

namespace Db.KeepsLocked

theorem refl (s : Db) : s.KeepsLocked s := fun _ h => h

theorem trans (h : s.KeepsLocked t) (h' : t.KeepsLocked u) : s.KeepsLocked u :=
  fun id hid => h' id (h id hid)

theorem of_agree (h : s.Agree [.financialPeriod] t) : s.KeepsLocked t := by
  intro id hid
  unfold Locked at hid ⊢
  rwa [h.find? (by decide)]

/-- A change of a period that is not locked, or stays so. -/
theorem modify {id : Id} {f : FinancialPeriod → FinancialPeriod}
    (h : s.Locked id → ∀ p, (f p).status = .locked) :
    s.KeepsLocked (s.modify .financialPeriod id f) := by
  intro id' hid'
  unfold Locked
  rw [find?_modify]
  by_cases hsame : id' = id
  · rw [if_pos hsame]
    rw [hsame] at hid'
    obtain ⟨p, hp, -⟩ := Option.map_eq_some_iff.mp hid'
    rw [hsame, hp]
    exact congrArg some (h hid' p)
  · rw [if_neg hsame]
    exact hid'

end Db.KeepsLocked

/-- What a statement does to locked periods if it meets the condition. -/
def KeepsLockedIf (lab : Access) (s t : Db) : Prop := lab.LeavesLocked s → s.KeepsLocked t

theorem everyStep_of_quiet {α : Type} {p : Handler α} (hp : Quiet [.financialPeriod] p) :
    p.EveryStep KeepsLockedIf :=
  .of_every (fun _ _ _ h _ => .of_agree h) hp

theorem everyStep_updatePeriod {lab : Access} {id : Id} {f : FinancialPeriod → FinancialPeriod}
    (h : ∀ s : Db, lab.LeavesLocked s → s.Locked id → ∀ p, (f p).status = .locked) :
    (updateAs lab .financialPeriod id f).EveryStep KeepsLockedIf := by
  constructor
  · intro s hmeets
    cases hrow : s.find? .financialPeriod id with
    | none =>
      simp only [hrow]
      exact .refl s
    | some p =>
      simp only [hrow]
      exact .modify (h s hmeets)
  · intro _
    trivial

theorem everyStep_findPeriod (auth : Auth) (periodId : Id) :
    (findPeriod auth periodId).EveryStep KeepsLockedIf :=
  everyStep_of_quiet ((Quiet.query _).bind fun _ => Quiet.orFail _ _)

/-- A decision about a reopening that does not meet a locked period, and any other decision. -/
theorem keepsLocked_inTx {call : ResolveCall} {existing : ApprovalRequest}
    (hopen : call.decision = .approve → existing.type = .financialPeriodReopen →
      ¬ s.Locked existing.targetId)
    (h : (call.inTx existing).run s = (.ok (), t)) : s.KeepsLocked t := by
  obtain ⟨-, v, -, -, heffect, ht⟩ := ResolveCall.run_inTx_effect h
  have hclaimed : s.Agree [.financialPeriod]
      (s.modify .approvalRequest call.requestId call.resolve) :=
    Db.Agree.modify (m := .approvalRequest) (by decide) s _ _
  have hlogged : v.Agree [.financialPeriod] t := by
    rw [ht]
    exact Db.Agree.insert (m := .auditLog) (by decide) v _
  have hv : (s.modify .approvalRequest call.requestId call.resolve).KeepsLocked v := by
    by_cases htype : existing.type = .financialPeriodReopen
    · unfold ResolveCall.effect at heffect
      cases hdecision : call.decision with
      | approve =>
        simp only [hdecision, applyApproval, htype] at heffect
        obtain ⟨row, w, hupdate, hend⟩ := Proc.run_bind_eq_ok heffect
        obtain ⟨p, -, -, hw⟩ := run_update_eq_ok hupdate
        rw [← (Prod.mk.inj hend).2, hw]
        apply Db.KeepsLocked.modify
        intro hlocked
        exact absurd (Db.KeepsLocked.of_agree hclaimed.symm _ hlocked) (hopen hdecision htype)
      | reject =>
        simp only [hdecision, applyRejection, htype] at heffect
        rw [← (Prod.mk.inj heffect).2]
        exact .refl _
    · have hm : ∀ m ∈ approvalWrites existing.type, m ∉ [Model.financialPeriod] := by
        cases hcase : existing.type
        case financialPeriodReopen => exact absurd hcase htype
        all_goals decide
      have hquiet := (call.quiet_effect hm).run (s.modify .approvalRequest call.requestId call.resolve)
      rw [heffect] at hquiet
      exact .of_agree hquiet
  exact (Db.KeepsLocked.of_agree hclaimed).trans (hv.trans (.of_agree hlogged))

theorem PeriodCall.everyStep (call : PeriodCall) : call.handler.EveryStep KeepsLockedIf := by
  cases call with
  | close auth now periodId =>
    refine .bind (.bind (everyStep_findPeriod auth periodId) fun period => ?_) fun _ => trivial
    refine (Proc.EveryStep.require _ _).bind fun _ => ?_
    refine .bind (everyStep_updatePeriod ?_) fun updated => ?_
    · intro s hmeets hlocked
      exact absurd hlocked (hmeets.2 periodId rfl)
    · exact everyStep_of_quiet ((Quiet.create (by decide) _).bind fun _ => Quiet.pure _)
  | lock auth now periodId =>
    refine .bind (.bind (everyStep_findPeriod auth periodId) fun period => ?_) fun _ => trivial
    refine (Proc.EveryStep.require _ _).bind fun _ => ?_
    refine .bind (everyStep_updatePeriod ?_) fun updated => ?_
    · intro _ _ _ _
      rfl
    · exact everyStep_of_quiet ((Quiet.create (by decide) _).bind fun _ => Quiet.pure _)
  | requestReopen auth periodId reason =>
    refine (Proc.EveryStep.orFail _ _).bind fun reason => ?_
    refine (everyStep_findPeriod auth periodId).bind fun period => ?_
    refine (Proc.EveryStep.require _ _).bind fun _ => ?_
    refine (Proc.EveryStep.require _ _).bind fun _ => ?_
    exact everyStep_of_quiet ((Quiet.create (by decide) _).bind fun _ => Quiet.pure _)
  | resolve call =>
    refine (everyStep_of_quiet (Quiet.query _)).bind fun found => ?_
    refine (Proc.EveryStep.orFail _ _).bind fun existing => ?_
    refine (Proc.EveryStep.require _ _).bind fun _ => ?_
    refine (Proc.EveryStep.require _ _).bind fun _ => ?_
    refine .transaction ?_ ?_
    · intro s _
      exact .refl s
    · intro s u t hrun hmeets
      have hinTx := Proc.run_interrupted_eq_ok hrun
      obtain ⟨row, hrow, hpending, -⟩ := ResolveCall.run_inTx_eq_ok hinTx
      refine keepsLocked_inTx ?_ hinTx
      intro happrove htype
      refine hmeets.1 _ rfl (decide_eq_true happrove) htype ?_
      rw [hrow]
      exact congrArg some hpending

/-- A run in which no reopening of a locked period is approved, and no period that has been
locked in the meantime is closed: a period that is locked at one moment is locked at every
later one. -/
theorem locked_stays_locked {ι : Type} [DecidableEq ι] (calls : ι → PeriodCall) (s : Db)
    {sched : List ι} (h : (periodPool calls s).Allowed Access.LeavesLocked sched)
    (before after : List ι) (hsched : sched = before ++ after) (id : Id)
    (hlocked : ((periodPool calls s).run before).state.Locked id) :
    ((periodPool calls s).run sched).state.Locked id := by
  rw [hsched] at h ⊢
  have hstart : ∀ i, ((periodPool calls s).threads i).EveryStep KeepsLockedIf :=
    fun i => (calls i).everyStep
  have hkeeps := Pool.run_rel (R := Db.KeepsLocked) Db.KeepsLocked.refl Db.KeepsLocked.trans
    (fun _ _ _ hstep hmeets => hstep hmeets) (Pool.run_everyStep hstart before)
    (Pool.allowed_append.mp h).2
  rw [Pool.run_append]
  exact hkeeps id hlocked

end Locked

/-- A period that has been closed. -/
def closedPeriod : Db :=
  Db.empty.insert .financialPeriod
    { institutionId := 1, name := "January", startDate := 0, endDate := 30 * msPerDay,
      status := .closed }

/-- One user asks for it to be reopened, another locks it, and a third approves. -/
def reopenCalls : Fin 3 → PeriodCall
  | 0 => .requestReopen ⟨1, 1⟩ 1 (some "Late invoice")
  | 1 => .lock ⟨1, 2⟩ 5 1
  | 2 => .resolve { decision := .approve, auth := ⟨1, 3⟩, now := 6, requestId := 1 }

/-- The request is refused where the period is locked first. -/
theorem locked_stays_locked_reopenCalls :
    ((periodPool reopenCalls closedPeriod).run [1, 1, 1, 0, 0, 2, 2]).state.Locked 1 :=
  locked_stays_locked reopenCalls closedPeriod (by decide +kernel) [1, 1] [1, 0, 0, 2, 2] rfl 1
    (by decide +kernel)

/-- The request is filed, the period is locked, and the request is approved. -/
theorem lockedPeriod_reopened :
    ¬ ∀ (calls : Fin 3 → PeriodCall) (s : Db) (before after : List (Fin 3)) (id : Id),
      ((periodPool calls s).run before).state.Locked id →
        ((periodPool calls s).run (before ++ after)).state.Locked id := by
  intro h
  have hlocked := h reopenCalls closedPeriod [0, 0, 1, 1] [2, 2] 1 (by decide +kernel)
  revert hlocked
  decide +kernel

end NexusEfos
