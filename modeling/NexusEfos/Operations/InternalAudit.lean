/-
Internal audits: `routes/internalAudit.routes.ts`.

An engagement is approved, goes through its fieldwork, and is closed when every finding has someone
who owns the action on it, or archived, which asks for no owner.  Findings may be registered and
answered at any time, and a request for the approval of the scope may be resolved at any time, also
after the engagement has been closed.  In a run in which nothing of the kind happens to an
engagement that is closed or archived, it stays owned, and a closed one stays closed.
-/
import Mathlib.Data.Fin.VecNotation
import NexusEfos.Approvals.ExactlyOnce

namespace NexusEfos

open Proc

/-! ## Engagements -/

def AuditEngagementStatus.text : AuditEngagementStatus → String
  | .planned => "PLANNED"
  | .approved => "APPROVED"
  | .inProgress => "IN_PROGRESS"
  | .underReview => "UNDER_REVIEW"
  | .completed => "COMPLETED"
  | .followUp => "FOLLOW_UP"
  | .closed => "CLOSED"
  | .archived => "ARCHIVED"

/-- `createEngagementSchema`.  `plannedStartDate` is `new Date(plannedStartDate)`, absent when that
is invalid. -/
structure CreateEngagement where
  type : AuditEngagementType
  branchId : Option Id := none
  leadAuditor : String
  scope : String
  plannedStartDate : Option DateTime

/-- `POST /engagements`. -/
def createEngagement (auth : Auth) (body : CreateEngagement) : Handler Id := do
  Proc.require (1 ≤ jsLength body.leadAuditor ∧ 2 ≤ jsLength body.scope) .invalid
  let plannedStartDate ← Proc.orFail body.plannedStartDate (.thrown "PrismaClientValidationError")
  let engagement ← create .auditEngagement
    { institutionId := auth.institutionId, type := body.type, branchId := body.branchId,
      leadAuditor := body.leadAuditor, scope := body.scope, plannedStartDate,
      raisedById := auth.userId }
  let _ ← create .auditLog
    { institutionId := auth.institutionId, userId := some auth.userId,
      action := "audit_engagement.create", resource := "audit_engagement",
      resourceId := some engagement }
  return engagement

/-- The engagement of a request. -/
def findEngagement (auth : Auth) (id : Id) : Handler AuditEngagement := do
  let found ← findById .auditEngagement id fun e => e.institutionId = auth.institutionId
  Proc.orFail found (.http 404 "Engagement not found")

/-- `POST /engagements/:id/request-approval`. -/
def requestEngagementApproval (auth : Auth) (id : Id) : Handler Unit := do
  let engagement ← findEngagement auth id
  Proc.require (engagement.status = .planned)
    (.http 400 ("Cannot request approval from status " ++ engagement.status.text))
  let _ ← create .approvalRequest
    { institutionId := auth.institutionId, type := .auditEngagementApproval,
      targetType := "AuditEngagement", targetId := id, requestedById := auth.userId }

/-- The words the endpoint allows. -/
def settableStatuses : List (String × AuditEngagementStatus) :=
  [("UNDER_REVIEW", .underReview), ("COMPLETED", .completed), ("FOLLOW_UP", .followUp),
    ("ARCHIVED", .archived)]

/-- `POST /engagements/:id/status`. -/
def setEngagementStatus (auth : Auth) (id : Id) (status : Option String) (now : DateTime) :
    Handler AuditEngagement := do
  let status ← Proc.orFail (status.bind fun word => settableStatuses.lookup word)
    (.http 400 "status must be one of UNDER_REVIEW, COMPLETED, FOLLOW_UP, ARCHIVED")
  let engagement ← findEngagement auth id
  Proc.require (engagement.status ∈ [AuditEngagementStatus.inProgress, .underReview, .completed,
    .followUp]) (.http 400 ("Cannot transition from " ++ engagement.status.text))
  updateAs { audit := some (.setStatus id status) } .auditEngagement id fun e =>
    { e with status, completionDate := if status = .completed then some now else e.completionDate }

/-- `POST /engagements/:id/rate`. -/
def rateEngagement (auth : Auth) (id : Id) (rating : AuditRating) : Handler AuditEngagement := do
  let _ ← findEngagement auth id
  update .auditEngagement id fun e => { e with rating := some rating }

/-- The findings of an engagement that nobody owns the action on. -/
def Db.unassigned (s : Db) (id : Id) : List (Id × AuditFinding) :=
  (s.table .auditFinding).entries.filter fun f =>
    f.2.engagementId = id ∧ f.2.actionOwnerId = none

/-- `POST /engagements/:id/close`. -/
def closeEngagement (auth : Auth) (id : Id) : Handler AuditEngagement := do
  let (found, unassigned) ← query fun s =>
    ((s.find? .auditEngagement id).filter fun e => e.institutionId = auth.institutionId,
      s.unassigned id)
  let engagement ← Proc.orFail found (.http 404 "Engagement not found")
  Proc.require (engagement.status = .completed ∨ engagement.status = .followUp)
    (.http 400 ("Cannot close from status " ++ engagement.status.text))
  Proc.require (unassigned = [])
    (.http 400 (toString unassigned.length ++
      " finding(s) still have no accountable owner assigned — required before closure"))
  let updated ← updateAs { audit := some (.setStatus id .closed) } .auditEngagement id fun e =>
    { e with status := .closed }
  let _ ← create .auditLog
    { institutionId := auth.institutionId, userId := some auth.userId,
      action := "audit_engagement.close", resource := "audit_engagement", resourceId := some id }
  return updated

/-! ## Findings -/

def AuditFindingStatus.text : AuditFindingStatus → String
  | .opened => "OPEN"
  | .inProgress => "IN_PROGRESS"
  | .implemented => "IMPLEMENTED"
  | .verified => "VERIFIED"
  | .closed => "CLOSED"

/-- A date that may be left out: `new Date(date)`, absent when that is invalid. -/
def optionalDate : Option (Option DateTime) → Handler (Option DateTime)
  | none => return none
  | some date => do
    let date ← Proc.orFail date (.thrown "PrismaClientValidationError")
    return some date

/-- `createFindingSchema`. -/
structure CreateFinding where
  engagementId : Id
  description : String
  riskClassification : AuditFindingRisk
  rootCauseAnalysis : Option String := none
  recommendation : String
  actionOwnerId : Option Id := none
  targetRemediationDate : Option (Option DateTime) := none

/-- `POST /findings`. -/
def createFinding (auth : Auth) (body : CreateFinding) : Handler Id := do
  Proc.require (2 ≤ jsLength body.description ∧ 2 ≤ jsLength body.recommendation) .invalid
  let _ ← findEngagement auth body.engagementId
  let targetRemediationDate ← optionalDate body.targetRemediationDate
  let finding ← createAs { audit := some (.addFinding body.engagementId body.actionOwnerId) }
    .auditFinding
    { institutionId := auth.institutionId, engagementId := body.engagementId,
      description := body.description, riskClassification := body.riskClassification,
      rootCauseAnalysis := body.rootCauseAnalysis, recommendation := body.recommendation,
      actionOwnerId := body.actionOwnerId, targetRemediationDate, raisedById := auth.userId }
  let _ ← create .auditLog
    { institutionId := auth.institutionId, userId := some auth.userId,
      action := "audit_finding.register", resource := "audit_finding", resourceId := some finding }
  return finding

/-- The finding of a request. -/
def findFinding (auth : Auth) (id : Id) : Handler AuditFinding := do
  let found ← findById .auditFinding id fun f => f.institutionId = auth.institutionId
  Proc.orFail found (.http 404 "Finding not found")

/-- `respondSchema`.  An owner that is given may be the empty text, which is nobody. -/
structure RespondToFinding where
  managementResponse : String
  actionOwnerId : Option (Option Id) := none
  targetRemediationDate : Option (Option DateTime) := none

/-- `POST /findings/:id/respond`. -/
def respondToFinding (auth : Auth) (id : Id) (body : RespondToFinding) : Handler AuditFinding := do
  Proc.require (1 ≤ jsLength body.managementResponse) .invalid
  let finding ← findFinding auth id
  let targetRemediationDate ← optionalDate body.targetRemediationDate
  let actionOwnerId := body.actionOwnerId.getD finding.actionOwnerId
  updateAs { audit := some (.setOwner id actionOwnerId) } .auditFinding id fun f =>
    { f with managementResponse := some body.managementResponse, actionOwnerId,
             targetRemediationDate := targetRemediationDate <|> finding.targetRemediationDate,
             status := if finding.status = .opened then .inProgress else finding.status }

/-- A finding in one of some statuses is moved on. -/
def moveFinding (auth : Auth) (id : Id) (allowed : List AuditFindingStatus)
    (refusal : AuditFindingStatus → String) (data : AuditFinding → AuditFinding) :
    Handler AuditFinding := do
  let finding ← findFinding auth id
  Proc.require (finding.status ∈ allowed) (.http 400 (refusal finding.status))
  update .auditFinding id data

/-- `POST /findings/:id/mark-implemented`. -/
def markFindingImplemented (auth : Auth) (id : Id) : Handler AuditFinding :=
  moveFinding auth id [.inProgress, .opened]
    (fun status => "Cannot mark implemented from " ++ status.text)
    fun f => { f with status := .implemented }

/-- A step of a finding that is written to the audit log. -/
def logFinding (auth : Auth) (id : Id) (action : String) (p : Handler AuditFinding) :
    Handler AuditFinding := do
  let updated ← p
  let _ ← create .auditLog
    { institutionId := auth.institutionId, userId := some auth.userId, action,
      resource := "audit_finding", resourceId := some id }
  return updated

/-- `POST /findings/:id/verify`. -/
def verifyFinding (auth : Auth) (id : Id) (now : DateTime) : Handler AuditFinding :=
  logFinding auth id "audit_finding.verify" <|
    moveFinding auth id [.implemented] (fun _ => "Only an implemented finding can be verified")
      fun f => { f with status := .verified, verifiedAt := some now,
                        verifiedById := some auth.userId, overdue := false }

/-- `POST /findings/:id/close`. -/
def closeFinding (auth : Auth) (id : Id) (now : DateTime) : Handler AuditFinding :=
  logFinding auth id "audit_finding.close" <|
    moveFinding auth id [.verified] (fun _ => "Only a verified finding can be closed")
      fun f => { f with status := .closed, closedAt := some now, closedById := some auth.userId }

/-- `runAuditFindingOverdueCheck` of the scheduler. -/
def runAuditFindingOverdueCheck (now : DateTime) : Handler Unit := do
  let _ ← updateMany .auditFinding
    (fun _ f => (f.status = .opened ∨ f.status = .inProgress) ∧ f.overdue = false ∧
      ∃ date ∈ f.targetRemediationDate, date < now)
    fun f => { f with overdue := true }

/-! ## Engagements that are closed or archived -/

/-- The audit is over. -/
def AuditEngagementStatus.IsFinal (status : AuditEngagementStatus) : Prop :=
  status = .closed ∨ status = .archived

instance : DecidablePred AuditEngagementStatus.IsFinal :=
  fun status => inferInstanceAs (Decidable (status = .closed ∨ status = .archived))

namespace Db

/-- The engagement is closed. -/
def AuditClosed (s : Db) (id : Id) : Prop :=
  ∃ e ∈ s.find? .auditEngagement id, e.status = .closed

/-- The engagement is closed or archived. -/
def AuditFinal (s : Db) (id : Id) : Prop := ∃ e ∈ s.find? .auditEngagement id, e.status.IsFinal

/-- Every finding of the engagement has an owner. -/
def FindingsOwned (s : Db) (id : Id) : Prop :=
  ∀ f ∈ (s.table .auditFinding).values, f.engagementId = id → f.actionOwnerId.isSome = true

instance (s : Db) (id : Id) : Decidable (s.AuditClosed id) :=
  inferInstanceAs (Decidable (∃ e ∈ s.find? .auditEngagement id, _))

instance (s : Db) (id : Id) : Decidable (s.AuditFinal id) :=
  inferInstanceAs (Decidable (∃ e ∈ s.find? .auditEngagement id, _))

instance (s : Db) (id : Id) : Decidable (s.FindingsOwned id) :=
  inferInstanceAs (Decidable (∀ f ∈ (s.table .auditFinding).values, _))

/-- Every finding of an engagement that is closed or archived has an owner. -/
def AuditsOwned (s : Db) : Prop :=
  ∀ f ∈ (s.table .auditFinding).values, s.AuditFinal f.engagementId → f.actionOwnerId.isSome = true

instance (s : Db) : Decidable s.AuditsOwned :=
  inferInstanceAs (Decidable (∀ f ∈ (s.table .auditFinding).values, _))

theorem auditsOwned_iff {s : Db} : s.AuditsOwned ↔ ∀ id, s.AuditFinal id → s.FindingsOwned id := by
  constructor
  · rintro h id hfinal f hf rfl
    exact h f hf hfinal
  · intro h f hf hfinal
    exact h _ hfinal f hf rfl

/-- What a run does to the audits: they stay owned, and the closed ones stay closed. -/
structure KeepsAudits (s t : Db) : Prop where
  owned : s.AuditsOwned → t.AuditsOwned
  closed : ∀ id, s.AuditClosed id → t.AuditClosed id

namespace KeepsAudits

variable {s t u : Db} {id : Id}

theorem refl (s : Db) : s.KeepsAudits s := ⟨fun h => h, fun _ h => h⟩

theorem trans (h : s.KeepsAudits t) (h' : t.KeepsAudits u) : s.KeepsAudits u :=
  ⟨fun hs => h'.owned (h.owned hs), fun id hs => h'.closed id (h.closed id hs)⟩

theorem of_agree (h : s.Agree [.auditEngagement, .auditFinding] t) : s.KeepsAudits t := by
  have hengagement : ∀ id, t.find? .auditEngagement id = s.find? .auditEngagement id :=
    h.find? (by decide)
  have hfindings : t.table .auditFinding = s.table .auditFinding := h _ (by decide)
  constructor
  · intro hs
    rw [auditsOwned_iff] at hs ⊢
    intro id hfinal
    rw [AuditFinal, hengagement] at hfinal
    rw [FindingsOwned, hfindings]
    exact hs id hfinal
  · intro id hclosed
    rwa [AuditClosed, hengagement]

/-- A new engagement is planned. -/
theorem insertEngagement {new : AuditEngagement} (hnew : new.status = .planned) :
    s.KeepsAudits (s.insert .auditEngagement new) := by
  have hne : Model.auditFinding ≠ .auditEngagement := by decide
  have hfindings : (s.insert .auditEngagement new).table .auditFinding = s.table .auditFinding :=
    table_insert_of_ne hne s new
  constructor
  · intro hs
    rw [auditsOwned_iff] at hs ⊢
    intro id hfinal
    rw [FindingsOwned, hfindings]
    apply hs
    obtain ⟨e, he, hstatus⟩ := hfinal
    rw [find?_insert] at he
    by_cases hid : id = s.nextId .auditEngagement
    · rw [if_pos hid] at he
      rw [← Option.some.inj he, hnew] at hstatus
      exact absurd hstatus (by decide)
    · rw [if_neg hid] at he
      exact ⟨e, he, hstatus⟩
  · rintro id ⟨e, he, hstatus⟩
    have hne : id ≠ s.nextId .auditEngagement := by
      rintro rfl
      have hfresh : s.find? .auditEngagement (s.nextId .auditEngagement) = none :=
        OrderedMap.get?_nextKey _
      rw [hfresh] at he
      exact absurd he nofun
    refine ⟨e, ?_, hstatus⟩
    rwa [find?_insert, if_neg hne]

/-- An engagement is rewritten: a closed one stays closed, and one whose audit is over then has
owners. -/
theorem modifyEngagement {f : AuditEngagement → AuditEngagement}
    (hclosed : ∀ e, s.find? .auditEngagement id = some e → e.status = .closed →
      (f e).status = .closed)
    (hfinal : ∀ e, s.find? .auditEngagement id = some e → (f e).status.IsFinal →
      e.status.IsFinal ∨ s.FindingsOwned id) : s.KeepsAudits (s.modify .auditEngagement id f) := by
  have hne : Model.auditFinding ≠ .auditEngagement := by decide
  have hfindings : (s.modify .auditEngagement id f).table .auditFinding = s.table .auditFinding :=
    table_modify_of_ne hne s id f
  constructor
  · intro hs
    rw [auditsOwned_iff] at hs ⊢
    rintro id' ⟨e', he', hstatus⟩
    rw [FindingsOwned, hfindings]
    rw [find?_modify] at he'
    by_cases hid : id' = id
    · rw [if_pos hid] at he'
      obtain ⟨e, he, rfl⟩ := Option.map_eq_some_iff.mp he'
      rw [hid] at he ⊢
      rcases hfinal e he hstatus with hbefore | howned
      · exact hs id ⟨e, he, hbefore⟩
      · exact howned
    · rw [if_neg hid] at he'
      exact hs id' ⟨e', he', hstatus⟩
  · rintro id' ⟨e, he, hstatus⟩
    unfold AuditClosed
    rw [find?_modify]
    by_cases hid : id' = id
    · rw [hid] at he
      rw [if_pos hid, hid, Option.mem_def.mp he]
      exact ⟨f e, rfl, hclosed e he hstatus⟩
    · rw [if_neg hid]
      exact ⟨e, he, hstatus⟩

/-- The findings are rewritten: those of an audit that is over keep an owner. -/
theorem of_findings (hengagements : t.table .auditEngagement = s.table .auditEngagement)
    (hfindings : ∀ f' ∈ (t.table .auditFinding).values, s.AuditFinal f'.engagementId →
      f'.actionOwnerId.isSome = true ∨ ∃ f ∈ (s.table .auditFinding).values,
        f'.engagementId = f.engagementId ∧ f'.actionOwnerId = f.actionOwnerId) :
    s.KeepsAudits t := by
  have hfind : ∀ id, t.find? .auditEngagement id = s.find? .auditEngagement id := by
    intro id
    unfold Db.find?
    rw [hengagements]
  constructor
  · intro hs f' hf' hfinal
    rw [AuditFinal, hfind] at hfinal
    rcases hfindings f' hf' hfinal with howned | ⟨f, hf, hengagement, howner⟩
    · exact howned
    · rw [howner]
      rw [hengagement] at hfinal
      exact hs f hf hfinal
  · intro id hclosed
    rwa [AuditClosed, hfind]

end KeepsAudits

end Db

/-- What keeps the audits that are over as they are: the status of a closed engagement is not set to
another one, by a call or by the resolution of a request, an engagement is closed or archived when
its findings have owners, and a finding of an audit that is over is given an owner. -/
def Access.RespectsAudits (lab : Access) (s : Db) : Prop :=
  (∀ r ∈ lab.resolves, r.request.type = .auditEngagementApproval →
    ¬ s.AuditClosed r.request.targetId) ∧
  match lab.audit with
  | none => True
  | some (.setStatus id status) =>
    (s.AuditClosed id → status = .closed) ∧ (status.IsFinal → s.FindingsOwned id)
  | some (.addFinding id owner) => s.AuditFinal id → owner.isSome = true
  | some (.setOwner id owner) =>
    ∀ f ∈ s.find? .auditFinding id, s.AuditFinal f.engagementId → owner.isSome = true

instance (lab : Access) (s : Db) : Decidable (lab.RespectsAudits s) := by
  unfold Access.RespectsAudits
  split <;> infer_instance

/-! ## What the statements do to the audits -/

/-- A statement that respects the audits keeps them. -/
def AuditStep (lab : Access) (s t : Db) : Prop := lab.RespectsAudits s → s.KeepsAudits t

theorem AuditStep.of_quiet {α : Type} {p : Handler α}
    (hp : Quiet [.auditEngagement, .auditFinding] p) : p.EveryStep AuditStep :=
  .of_every (fun _ _ _ hagree _ => .of_agree hagree) hp

section Steps

variable {α : Type}

/-- What comes after the engagement of a request has been found. -/
theorem AuditStep.findEngagement_bind {auth : Auth} {id : Id} {k : AuditEngagement → Handler α}
    (hk : ∀ e, (k e).EveryStep AuditStep) : (findEngagement auth id >>= k).EveryStep AuditStep :=
  EveryStep.bind (of_quiet ((Quiet.query _).bind fun _ => Quiet.orFail _ _)) hk

theorem AuditStep.findFinding_bind {auth : Auth} {id : Id} {k : AuditFinding → Handler α}
    (hk : ∀ f, (k f).EveryStep AuditStep) : (findFinding auth id >>= k).EveryStep AuditStep :=
  EveryStep.bind (of_quiet ((Quiet.query _).bind fun _ => Quiet.orFail _ _)) hk

theorem AuditStep.optionalDate_bind {date : Option (Option DateTime)}
    {k : Option DateTime → Handler α} (hk : ∀ d, (k d).EveryStep AuditStep) :
    (optionalDate date >>= k).EveryStep AuditStep := by
  apply EveryStep.bind ?_ hk
  cases date with
  | none => trivial
  | some date => exact of_quiet ((Quiet.orFail _ _).bind fun _ => Quiet.pure _)

/-- The record a call leaves at its end. -/
theorem AuditStep.log (row : Row .auditLog) (a : α) :
    (do let _ ← create .auditLog row; return a : Handler α).EveryStep AuditStep := by
  have hcreate : Quiet [.auditEngagement, .auditFinding] (create .auditLog row) :=
    Quiet.create (by decide) row
  exact of_quiet (hcreate.bind fun _ => Quiet.pure a)

/-- An engagement is rewritten. -/
theorem AuditStep.updateEngagement {lab : Access} {id : Id} {f : AuditEngagement → AuditEngagement}
    (hclosed : ∀ s : Db, lab.RespectsAudits s → s.AuditClosed id → ∀ e, e.status = .closed →
      (f e).status = .closed)
    (hfinal : ∀ s : Db, lab.RespectsAudits s → ∀ e, (f e).status.IsFinal →
      e.status.IsFinal ∨ s.FindingsOwned id) :
    (updateAs lab .auditEngagement id f).EveryStep AuditStep := by
  refine ⟨fun s hlab => ?_, fun _ => trivial⟩
  cases hrow : s.find? .auditEngagement id with
  | none =>
    simp only [hrow]
    exact .refl s
  | some e =>
    simp only [hrow]
    apply Db.KeepsAudits.modifyEngagement
    · intro e' he' hstatus
      exact hclosed s hlab ⟨e', he', hstatus⟩ e' hstatus
    · exact fun e' _ hstatus => hfinal s hlab e' hstatus

/-- A finding is rewritten. -/
theorem AuditStep.updateFinding {lab : Access} {id : Id} {f : AuditFinding → AuditFinding}
    (hengagement : ∀ x, (f x).engagementId = x.engagementId)
    (howner : ∀ s : Db, lab.RespectsAudits s → ∀ x ∈ s.find? .auditFinding id,
      s.AuditFinal x.engagementId →
        (f x).actionOwnerId.isSome = true ∨ (f x).actionOwnerId = x.actionOwnerId) :
    (updateAs lab .auditFinding id f).EveryStep AuditStep := by
  refine ⟨fun s hlab => ?_, fun _ => trivial⟩
  cases hrow : s.find? .auditFinding id with
  | none =>
    simp only [hrow]
    exact .refl s
  | some x =>
    simp only [hrow]
    have hne : Model.auditEngagement ≠ .auditFinding := by decide
    apply Db.KeepsAudits.of_findings (Db.table_modify_of_ne hne s id f)
    intro f' hf' hfinal
    obtain ⟨id', hid'⟩ := OrderedMap.mem_values.mp hf'
    have hget : (s.modify .auditFinding id f).find? .auditFinding id' = some f' := hid'
    rw [Db.find?_modify] at hget
    by_cases hid : id' = id
    · rw [if_pos hid, hid, hrow] at hget
      obtain rfl : f x = f' := Option.some.inj hget
      rw [hengagement] at hfinal
      rcases howner s hlab x hrow hfinal with howned | hsame
      · exact .inl howned
      · exact .inr ⟨x, OrderedMap.mem_values.mpr ⟨id, hrow⟩, hengagement x, hsame⟩
    · rw [if_neg hid] at hget
      exact .inr ⟨f', OrderedMap.mem_values.mpr ⟨id', hget⟩, rfl, rfl⟩

theorem AuditStep.createEngagement (auth : Auth) (body : CreateEngagement) :
    (createEngagement auth body).EveryStep AuditStep := by
  apply EveryStep.require_bind
  intro _
  apply (EveryStep.orFail _ _).bind
  intro date
  apply EveryStep.bind
  · exact ⟨fun s _ => .insertEngagement rfl, fun _ => trivial⟩
  · exact fun _ => log _ _

theorem AuditStep.requestEngagementApproval (auth : Auth) (id : Id) :
    (requestEngagementApproval auth id).EveryStep AuditStep := by
  apply findEngagement_bind
  intro e
  apply EveryStep.require_bind
  intro _
  exact of_quiet ((Quiet.create (by decide) _).bind fun _ => Quiet.pure _)

theorem AuditStep.setEngagementStatus (auth : Auth) (id : Id) (status : Option String)
    (now : DateTime) : (setEngagementStatus auth id status now).EveryStep AuditStep := by
  apply (EveryStep.orFail _ _).bind
  intro status
  apply findEngagement_bind
  intro e
  apply EveryStep.require_bind
  intro _
  apply updateEngagement
  · exact fun s hlab hclosed _ _ => hlab.2.1 hclosed
  · exact fun s hlab _ hfinal => .inr (hlab.2.2 hfinal)

theorem AuditStep.rateEngagement (auth : Auth) (id : Id) (rating : AuditRating) :
    (rateEngagement auth id rating).EveryStep AuditStep := by
  apply findEngagement_bind
  intro _
  apply updateEngagement
  · exact fun _ _ _ _ hstatus => hstatus
  · exact fun _ _ _ hfinal => .inl hfinal

theorem AuditStep.closeEngagement (auth : Auth) (id : Id) :
    (closeEngagement auth id).EveryStep AuditStep := by
  apply EveryStep.bind (of_quiet (Quiet.query _))
  intro found
  apply (EveryStep.orFail _ _).bind
  intro e
  apply EveryStep.require_bind
  intro _
  apply EveryStep.require_bind
  intro _
  apply EveryStep.bind
  · apply updateEngagement
    · exact fun _ _ _ _ _ => rfl
    · exact fun s hlab _ hfinal => .inr (hlab.2.2 hfinal)
  · exact fun _ => log _ _

theorem AuditStep.createFinding (auth : Auth) (body : CreateFinding) :
    (createFinding auth body).EveryStep AuditStep := by
  apply EveryStep.require_bind
  intro _
  apply findEngagement_bind
  intro _
  apply optionalDate_bind
  intro date
  apply EveryStep.bind
  · refine ⟨fun s hlab => ?_, fun _ => trivial⟩
    have hne : Model.auditEngagement ≠ .auditFinding := by decide
    apply Db.KeepsAudits.of_findings (Db.table_insert_of_ne hne s _)
    intro f' hf' hfinal
    rw [Db.table_insert_self, OrderedMap.values_create, List.mem_append, List.mem_singleton] at hf'
    rcases hf' with hold | rfl
    · exact .inr ⟨f', hold, rfl, rfl⟩
    · exact .inl (hlab.2 hfinal)
  · exact fun _ => log _ _

theorem AuditStep.respondToFinding (auth : Auth) (id : Id) (body : RespondToFinding) :
    (respondToFinding auth id body).EveryStep AuditStep := by
  apply EveryStep.require_bind
  intro _
  apply findFinding_bind
  intro finding
  apply optionalDate_bind
  intro date
  apply updateFinding
  · exact fun _ => rfl
  · exact fun s hlab x hx hfinal => .inl (hlab.2 x hx hfinal)

theorem AuditStep.moveFinding (auth : Auth) (id : Id) (allowed : List AuditFindingStatus)
    (refusal : AuditFindingStatus → String) {data : AuditFinding → AuditFinding}
    (hdata : ∀ x, (data x).engagementId = x.engagementId ∧
      (data x).actionOwnerId = x.actionOwnerId) :
    (moveFinding auth id allowed refusal data).EveryStep AuditStep := by
  apply findFinding_bind
  intro finding
  apply EveryStep.require_bind
  intro _
  apply updateFinding
  · exact fun x => (hdata x).1
  · exact fun _ _ x _ _ => .inr (hdata x).2

theorem AuditStep.markFindingImplemented (auth : Auth) (id : Id) :
    (markFindingImplemented auth id).EveryStep AuditStep :=
  moveFinding auth id _ _ fun _ => ⟨rfl, rfl⟩

theorem AuditStep.verifyFinding (auth : Auth) (id : Id) (now : DateTime) :
    (verifyFinding auth id now).EveryStep AuditStep :=
  EveryStep.bind (moveFinding auth id _ _ fun _ => ⟨rfl, rfl⟩) fun _ => log _ _

theorem AuditStep.closeFinding (auth : Auth) (id : Id) (now : DateTime) :
    (closeFinding auth id now).EveryStep AuditStep :=
  EveryStep.bind (moveFinding auth id _ _ fun _ => ⟨rfl, rfl⟩) fun _ => log _ _

theorem AuditStep.runAuditFindingOverdueCheck (now : DateTime) :
    (runAuditFindingOverdueCheck now).EveryStep AuditStep := by
  apply EveryStep.bind
  · refine ⟨fun s _ => ?_, fun _ => trivial⟩
    have hne : Model.auditEngagement ≠ .auditFinding := by decide
    apply Db.KeepsAudits.of_findings (Db.table_modifyAll_of_ne hne s _)
    intro f' hf' _
    obtain ⟨id, hid⟩ := OrderedMap.mem_values.mp hf'
    have hget : (s.modifyAll .auditFinding _).find? .auditFinding id = some f' := hid
    rw [Db.find?_modifyAll] at hget
    obtain ⟨f, hf, rfl⟩ := Option.map_eq_some_iff.mp hget
    refine .inr ⟨f, OrderedMap.mem_values.mpr ⟨id, hf⟩, ?_⟩
    split
    · exact ⟨rfl, rfl⟩
    · exact ⟨rfl, rfl⟩
  · exact fun _ => trivial

/-- The effect of a decision on the audits: only that about a scope has one, and it opens the
engagement again. -/
theorem run_effect_audits {call : ResolveCall} {request : ApprovalRequest} {s t : Db}
    (h : (call.effect request).run s = (.ok (), t)) :
    s.Agree [.auditEngagement, .auditFinding] t ∨
      request.type = .auditEngagementApproval ∧ ∃ status : AuditEngagementStatus,
        ¬ status.IsFinal ∧ t = s.modify .auditEngagement request.targetId fun e => { e with status } := by
  by_cases htype : request.type = .auditEngagementApproval
  · refine .inr ⟨htype, ?_⟩
    unfold ResolveCall.effect at h
    cases hdecision : call.decision with
    | approve =>
      simp only [hdecision, applyApproval, htype] at h
      exact ⟨.inProgress, by decide, run_update_end_eq_ok h⟩
    | reject =>
      simp only [hdecision, applyRejection, htype] at h
      exact ⟨.planned, by decide, run_update_end_eq_ok h⟩
  · have hm : ∀ m ∈ approvalWrites request.type,
        m ∉ [Model.auditEngagement, Model.auditFinding] := by
      revert htype
      cases request.type <;> decide
    have hagree := (call.quiet_effect hm).run s
    rw [h] at hagree
    exact .inl hagree

theorem AuditStep.resolve (call : ResolveCall) : call.handler.EveryStep AuditStep := by
  apply call.everyStep
  · exact fun _ s _ => .refl s
  · intro request s t hrun hlab
    obtain ⟨row, u, -, -, heffect, rfl⟩ := ResolveCall.run_inTx_effect hrun
    have hclaimed : s.Agree [.auditEngagement, .auditFinding]
        (s.modify .approvalRequest call.requestId call.resolve) :=
      Db.Agree.modify (m := .approvalRequest) (by decide) s call.requestId call.resolve
    have hlogged : ∀ log : Row .auditLog, u.KeepsAudits (u.insert .auditLog log) := by
      intro log
      have hagree : u.Agree [.auditEngagement, .auditFinding] (u.insert .auditLog log) :=
        Db.Agree.insert (by decide) u log
      exact .of_agree hagree
    refine .trans (.of_agree hclaimed) (.trans ?_ (hlogged _))
    rcases run_effect_audits heffect with hagree | ⟨htype, status, hopen, rfl⟩
    · exact .of_agree hagree
    · have hnot := hlab.1 _ rfl htype
      apply Db.KeepsAudits.modifyEngagement
      · intro e he hclosed
        rw [hclaimed.find? (by decide)] at he
        exact absurd ⟨e, he, hclosed⟩ hnot
      · exact fun _ _ hfinal => absurd hfinal hopen

end Steps

/-! ## Runs -/

/-- The calls of a run.  The last constructor stands for every other endpoint. -/
inductive AuditCall
  | createEngagement (auth : Auth) (body : CreateEngagement)
  | requestApproval (auth : Auth) (id : Id)
  | setStatus (auth : Auth) (id : Id) (status : Option String) (now : DateTime)
  | rate (auth : Auth) (id : Id) (rating : AuditRating)
  | close (auth : Auth) (id : Id)
  | createFinding (auth : Auth) (body : CreateFinding)
  | respond (auth : Auth) (id : Id) (body : RespondToFinding)
  | markImplemented (auth : Auth) (id : Id)
  | verify (auth : Auth) (id : Id) (now : DateTime)
  | closeFinding (auth : Auth) (id : Id) (now : DateTime)
  | overdueCheck (now : DateTime)
  | resolve (call : ResolveCall)
  | other (p : Handler Unit) (h : Quiet [.auditEngagement, .auditFinding] p)

def AuditCall.handler : AuditCall → Handler Unit
  | createEngagement auth body => do let _ ← NexusEfos.createEngagement auth body
  | requestApproval auth id => requestEngagementApproval auth id
  | setStatus auth id status now => do let _ ← setEngagementStatus auth id status now
  | rate auth id rating => do let _ ← rateEngagement auth id rating
  | close auth id => do let _ ← closeEngagement auth id
  | createFinding auth body => do let _ ← NexusEfos.createFinding auth body
  | respond auth id body => do let _ ← respondToFinding auth id body
  | markImplemented auth id => do let _ ← markFindingImplemented auth id
  | verify auth id now => do let _ ← verifyFinding auth id now
  | closeFinding auth id now => do let _ ← NexusEfos.closeFinding auth id now
  | overdueCheck now => runAuditFindingOverdueCheck now
  | resolve call => call.handler
  | other p _ => p

theorem AuditCall.everyStep (call : AuditCall) : call.handler.EveryStep AuditStep := by
  cases call with
  | createEngagement auth body =>
    exact (AuditStep.createEngagement auth body).bind fun _ => trivial
  | requestApproval auth id => exact AuditStep.requestEngagementApproval auth id
  | setStatus auth id status now =>
    exact (AuditStep.setEngagementStatus auth id status now).bind fun _ => trivial
  | rate auth id rating => exact (AuditStep.rateEngagement auth id rating).bind fun _ => trivial
  | close auth id => exact (AuditStep.closeEngagement auth id).bind fun _ => trivial
  | createFinding auth body => exact (AuditStep.createFinding auth body).bind fun _ => trivial
  | respond auth id body => exact (AuditStep.respondToFinding auth id body).bind fun _ => trivial
  | markImplemented auth id =>
    exact (AuditStep.markFindingImplemented auth id).bind fun _ => trivial
  | verify auth id now => exact (AuditStep.verifyFinding auth id now).bind fun _ => trivial
  | closeFinding auth id now => exact (AuditStep.closeFinding auth id now).bind fun _ => trivial
  | overdueCheck now => exact AuditStep.runAuditFindingOverdueCheck now
  | resolve call => exact AuditStep.resolve call
  | other p h => exact AuditStep.of_quiet h

section Runs

variable {ι : Type} [DecidableEq ι]

def auditPool (calls : ι → AuditCall) (s : Db) : Pool ι Access Db Failure Unit :=
  ⟨fun i => (calls i).handler, s⟩

/-- What a run of calls does to the audits: the findings of those that are over have owners, and
what has been closed is closed. -/
structure AuditsStayClosed (calls : ι → AuditCall) (s : Db) (sched : List ι) : Prop where
  owned : ((auditPool calls s).run sched).state.AuditsOwned
  closed : ∀ before after, sched = before ++ after → ∀ id,
    ((auditPool calls s).run before).state.AuditClosed id →
      ((auditPool calls s).run sched).state.AuditClosed id

/-- Runs that respect the audits that are over. -/
theorem audits_stay_closed (calls : ι → AuditCall) (s : Db) (sched : List ι)
    (hstart : s.AuditsOwned)
    (hrespects : (auditPool calls s).Allowed Access.RespectsAudits sched) :
    AuditsStayClosed calls s sched := by
  have hsteps : ∀ i, ((auditPool calls s).threads i).EveryStep AuditStep :=
    fun i => (calls i).everyStep
  have hkeeps : ∀ c : Pool ι Access Db Failure Unit, (∀ i, (c.threads i).EveryStep AuditStep) →
      ∀ is, c.Allowed Access.RespectsAudits is → c.state.KeepsAudits (c.run is).state :=
    fun c hc is his => Pool.run_rel .refl .trans (fun _ _ _ hstep hlab => hstep hlab) hc his
  constructor
  · exact (hkeeps _ hsteps sched hrespects).owned hstart
  · rintro before after rfl id hclosed
    rw [Pool.run_append]
    have hafter := (Pool.allowed_append.mp hrespects).2
    exact (hkeeps _ (Pool.run_everyStep hsteps before) after hafter).closed id hclosed

end Runs

/-! ## Audits -/

/-- An engagement whose fieldwork goes on, and a finding without an owner. -/
def auditDb : Db :=
  (Db.empty.insert .auditEngagement
    { institutionId := 1, type := .internal, leadAuditor := "Ama", scope := "Cash",
      status := .inProgress, plannedStartDate := 0, raisedById := 1 }).insert .auditFinding
    { institutionId := 1, engagementId := 1, description := "No dual control",
      riskClassification := .high, recommendation := "Two keys", raisedById := 1 }

/-- The finding is given an owner, and the engagement is completed and closed. -/
def closingCalls : Fin 3 → AuditCall :=
  ![.respond ⟨1, 2⟩ 1 { managementResponse := "Agreed", actionOwnerId := some (some 5) },
    .setStatus ⟨1, 1⟩ 1 (some "COMPLETED") 10, .close ⟨1, 1⟩ 1]

theorem audits_stay_closed_inOrder :
    auditDb.AuditsOwned ∧
      (auditPool closingCalls auditDb).Allowed Access.RespectsAudits [0, 0, 1, 1, 2, 2, 2] ∧
      ((auditPool closingCalls auditDb).run [0, 0, 1, 1, 2, 2, 2]).state.AuditClosed 1 ∧
      AuditsStayClosed closingCalls auditDb [0, 0, 1, 1, 2, 2, 2] := by
  have hstart : auditDb.AuditsOwned := by decide +kernel
  have hrespects : (auditPool closingCalls auditDb).Allowed Access.RespectsAudits
      [0, 0, 1, 1, 2, 2, 2] := by decide +kernel
  exact ⟨hstart, hrespects, by decide +kernel,
    audits_stay_closed closingCalls auditDb _ hstart hrespects⟩

/-- The scope is approved twice: once before the audit, and once after it is closed. -/
def reopeningCalls : Fin 6 → AuditCall :=
  ![.requestApproval ⟨1, 1⟩ 2, .requestApproval ⟨1, 1⟩ 2, .resolve ⟨.approve, ⟨1, 2⟩, 5, 1, none, none⟩,
    .setStatus ⟨1, 1⟩ 2 (some "COMPLETED") 10, .close ⟨1, 1⟩ 2,
    .resolve ⟨.approve, ⟨1, 2⟩, 20, 2, none, none⟩]

/-- An engagement is archived with a finding that nobody owns, and a closed engagement goes on when
the second request for its approval is approved. -/
theorem audits_reopened :
    auditDb.AuditsOwned ∧
      ¬ AuditsStayClosed (![.setStatus ⟨1, 1⟩ 1 (some "ARCHIVED") 10] : Fin 1 → AuditCall) auditDb
        [0, 0] ∧
      ¬ AuditsStayClosed reopeningCalls
        (auditDb.insert .auditEngagement
          { institutionId := 1, type := .internal, leadAuditor := "Ama", scope := "Loans",
            plannedStartDate := 0, raisedById := 1 })
        [0, 0, 1, 1, 2, 2, 3, 3, 4, 4, 4, 5, 5] := by
  refine ⟨by decide +kernel, ?_, ?_⟩
  · intro h
    exact absurd h.owned (by decide +kernel)
  · intro h
    have hclosed := h.closed [0, 0, 1, 1, 2, 2, 3, 3, 4, 4, 4] [5, 5] rfl 2 (by decide +kernel)
    exact absurd hclosed (by decide +kernel)

end NexusEfos
