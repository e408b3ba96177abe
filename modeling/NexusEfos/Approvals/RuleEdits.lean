/-
What was approved is what is active: the logic of a business rule.

A rule may be edited while it is a draft, and an approver decides about the logic that he was
asked about.  An edit checks the status in one statement and writes in another, and the two
statements of a request for activation are apart as well.  An approved rule decides with the
logic of its request as long as every edit that changes a rule writes while the rule is neither
PENDING_APPROVAL nor ACTIVE and no request for its activation is pending.
-/
import NexusEfos.Approvals.Requests
import NexusEfos.Library.History

namespace NexusEfos

open Proc

/-! ## The endpoints -/

/-- What `ruleSchema` takes. -/
structure RuleBody where
  name : String
  businessPurpose : Option String := none
  description : Option String := none
  category : BusinessRuleCategory
  triggerPoint : BusinessRuleTriggerPoint
  conditions : List RuleCondition
  conditionLogic : String := "ALL"
  actions : List RuleAction
  priority : ℤ := 100
  effectiveDate : Option DateTime := none
  expiryDate : Option DateTime := none

/-- What `ruleSchema.partial()` takes. -/
structure RulePatch where
  name : Option String := none
  businessPurpose : Option String := none
  description : Option String := none
  category : Option BusinessRuleCategory := none
  triggerPoint : Option BusinessRuleTriggerPoint := none
  conditions : Option (List RuleCondition) := none
  conditionLogic : Option String := none
  actions : Option (List RuleAction) := none
  priority : Option ℤ := none
  effectiveDate : Option DateTime := none
  expiryDate : Option DateTime := none

/-- What the schema asks for. -/
def RulePatch.IsValid (patch : RulePatch) : Prop :=
  (∀ name ∈ patch.name, 2 ≤ jsLength name) ∧
    (∀ conditions ∈ patch.conditions, conditions ≠ [] ∧ ∀ c ∈ conditions, c.field ≠ "") ∧
    (∀ conditionLogic ∈ patch.conditionLogic, conditionLogic ∈ ["ALL", "ANY"]) ∧
    ∀ actions ∈ patch.actions, actions ≠ []

instance (patch : RulePatch) : Decidable patch.IsValid :=
  inferInstanceAs (Decidable ((∀ name ∈ patch.name, 2 ≤ jsLength name) ∧
    (∀ conditions ∈ patch.conditions, conditions ≠ [] ∧ ∀ c ∈ conditions, c.field ≠ "") ∧
    (∀ conditionLogic ∈ patch.conditionLogic, conditionLogic ∈ ["ALL", "ANY"]) ∧
    ∀ actions ∈ patch.actions, actions ≠ []))

/-- The body with all fields given. -/
def RuleBody.patch (body : RuleBody) : RulePatch :=
  { name := some body.name, businessPurpose := body.businessPurpose,
    description := body.description, category := some body.category,
    triggerPoint := some body.triggerPoint, conditions := some body.conditions,
    conditionLogic := some body.conditionLogic, actions := some body.actions,
    priority := some body.priority, effectiveDate := body.effectiveDate,
    expiryDate := body.expiryDate }

/-- What an edit writes.  A field that was left out stays as it is. -/
def RulePatch.apply (patch : RulePatch) (r : BusinessRule) : BusinessRule :=
  { r with
    name := patch.name.getD r.name
    businessPurpose := patch.businessPurpose <|> r.businessPurpose
    description := patch.description <|> r.description
    category := patch.category.getD r.category
    triggerPoint := patch.triggerPoint.getD r.triggerPoint
    conditions := patch.conditions.getD r.conditions
    conditionLogic := patch.conditionLogic.getD r.conditionLogic
    actions := patch.actions.getD r.actions
    priority := patch.priority.getD r.priority
    effectiveDate := patch.effectiveDate <|> r.effectiveDate
    expiryDate := patch.expiryDate <|> r.expiryDate }

def generateRuleCode (existingCount : ℕ) : String :=
  let digits := toString (existingCount + 1)
  "BR-" ++ "".pushn '0' (3 - digits.length) ++ digits

/-- `POST /` of the rules. -/
def createBusinessRule (auth : Auth) (body : RuleBody) : Handler Id := do
  Proc.require body.patch.IsValid .invalid
  let existing ← count .businessRule fun _ r => r.institutionId = auth.institutionId
  let rule ← create .businessRule
    { institutionId := auth.institutionId, ruleCode := generateRuleCode existing,
      name := body.name, businessPurpose := body.businessPurpose,
      description := body.description, category := body.category,
      triggerPoint := body.triggerPoint, conditions := body.conditions,
      conditionLogic := body.conditionLogic, actions := body.actions,
      priority := body.priority, effectiveDate := body.effectiveDate,
      expiryDate := body.expiryDate, status := .draft, businessOwnerId := some auth.userId }
  let _ ← create .auditLog (ruleLog auth "business_rule.create" rule)
  return rule

/-- `PATCH /:id` of the rules. -/
def editBusinessRule (versionNo : Db → Id → Option ℤ) (auth : Auth) (ruleId : Id)
    (expectedVersion : Option ℤ) (patch : RulePatch) : Handler BusinessRule := do
  Proc.require patch.IsValid .invalid
  let found ← findById .businessRule ruleId fun r => r.institutionId = auth.institutionId
  let existing ← Proc.orFail found (.http 404 "Rule not found")
  Proc.require (existing.status = .draft)
    (.http 400 "Only DRAFT rules can be edited — retire this rule and create a new one instead")
  checkVersion versionNo ruleId expectedVersion
  updateAs { edits := some ⟨ruleId, patch.apply⟩ } .businessRule ruleId patch.apply

/-! ## What a rule decides with -/

structure RuleLogic where
  conditions : List RuleCondition
  conditionLogic : String
  triggerPoint : BusinessRuleTriggerPoint
  actions : List RuleAction
  deriving DecidableEq

def BusinessRule.logic (r : BusinessRule) : RuleLogic :=
  ⟨r.conditions, r.conditionLogic, r.triggerPoint, r.actions⟩

def Db.ruleLogic (s : Db) (ruleId : Id) : Option RuleLogic :=
  (s.find? .businessRule ruleId).map BusinessRule.logic

def Db.ruleStatus (s : Db) (ruleId : Id) : Option BusinessRuleStatus :=
  (s.find? .businessRule ruleId).map BusinessRule.status

/-- The request asks for the activation of the rule. -/
def ApprovalRequest.ActivatesRule (r : ApprovalRequest) (ruleId : Id) : Prop :=
  r.type = .businessRuleActivation ∧ r.targetId = ruleId

instance (r : ApprovalRequest) (ruleId : Id) : Decidable (r.ActivatesRule ruleId) :=
  inferInstanceAs (Decidable (r.type = .businessRuleActivation ∧ r.targetId = ruleId))

/-- A request for the activation of the rule waits for its approval. -/
def Db.ActivationPending (s : Db) (ruleId : Id) : Prop :=
  ∃ e ∈ (s.table .approvalRequest).entries, e.2.ActivatesRule ruleId ∧ e.2.status = .pending

instance (s : Db) (ruleId : Id) : Decidable (s.ActivationPending ruleId) :=
  inferInstanceAs (Decidable (∃ e ∈ (s.table .approvalRequest).entries,
    e.2.ActivatesRule ruleId ∧ e.2.status = .pending))

/-- The edit changes what the rule decides with. -/
def RuleEdit.Changes (edit : RuleEdit) (s : Db) : Prop :=
  ∃ r ∈ s.find? .businessRule edit.ruleId, (edit.data r).logic ≠ r.logic

instance (edit : RuleEdit) (s : Db) : Decidable (edit.Changes s) :=
  inferInstanceAs (Decidable (∃ r ∈ s.find? .businessRule edit.ruleId,
    (edit.data r).logic ≠ r.logic))

/-- An edit that changes the rule finds it neither pending nor active, and no request for its
activation. -/
def Access.EditsInTime (ruleId : Id) (lab : Access) (s : Db) : Prop :=
  ∀ edit ∈ lab.edits, edit.ruleId = ruleId → edit.Changes s →
    s.ruleStatus ruleId ≠ some .pendingApproval ∧ s.ruleStatus ruleId ≠ some .active ∧
      ¬ s.ActivationPending ruleId

instance (ruleId : Id) (lab : Access) (s : Db) : Decidable (lab.EditsInTime ruleId s) :=
  inferInstanceAs (Decidable (∀ edit ∈ lab.edits, edit.ruleId = ruleId → edit.Changes s →
    s.ruleStatus ruleId ≠ some .pendingApproval ∧ s.ruleStatus ruleId ≠ some .active ∧
      ¬ s.ActivationPending ruleId))

/-! ## Events -/

inductive RuleEvent
  | requested (requestId ruleId : Id) (logic : Option RuleLogic)
  | activated (requestId ruleId : Id)
  deriving DecidableEq

/-- A request that a statement files, with what the rule decides with at this moment. -/
def requestEvents (s t : Db) : List RuleEvent :=
  match t.find? .approvalRequest (s.nextId .approvalRequest) with
  | some r =>
    if r.type = .businessRuleActivation then
      [.requested (s.nextId .approvalRequest) r.targetId (s.ruleLogic r.targetId)]
    else []
  | none => []

/-- An approval that commits. -/
def decisionEvents (lab : Access) (s t : Db) : List RuleEvent :=
  match lab.resolves with
  | some r =>
    if r.request.type = .businessRuleActivation ∧ s.requestStatus r.requestId = some .pending ∧
        t.requestStatus r.requestId = some .approved then
      [.activated r.requestId r.request.targetId]
    else []
  | none => []

def ruleEvents (lab : Access) (s t : Db) : List RuleEvent :=
  requestEvents s t ++ decisionEvents lab s t

/-- The requests through which a rule was activated, in their order. -/
def activationsOf (ruleId : Id) (h : List RuleEvent) : List Id :=
  h.filterMap fun
    | .activated requestId id => if id = ruleId then some requestId else none
    | .requested .. => none

/-! ## Steps -/

section Steps

variable {s t : Db} {lab : Access} {ruleId : Id}

/-- What a statement does to a rule that is there. -/
inductive RuleMoves (lab : Access) (id : Id) (s t : Db) (r r' : BusinessRule) : Prop
  | kept (logic : r'.logic = r.logic) (status : r'.status = .active → r.status = .active)
  | activated (resolution : Resolution) (resolves : lab.resolves = some resolution)
      (asked : resolution.request.ActivatesRule id)
      (before : s.requestStatus resolution.requestId = some .pending)
      (after : t.requestStatus resolution.requestId = some .approved) (logic : r'.logic = r.logic)
  | edited (edit : RuleEdit) (edits : lab.edits = some edit) (rule : edit.ruleId = id)
      (data : r' = edit.data r) (status : r'.status = r.status)
      (requests : t.table .approvalRequest = s.table .approvalRequest)

/-- What a request asks for does not change. -/
def Db.KeepsRequests (s t : Db) : Prop :=
  s.KeepsRows .approvalRequest (fun r r' => r'.type = r.type ∧ r'.targetId = r.targetId) t

/-- A pending request for an activation was there before, or is filed for a rule that is there. -/
def Db.FilesActivations (s t : Db) : Prop :=
  ∀ id r, t.find? .approvalRequest id = some r → r.type = .businessRuleActivation →
    r.status = .pending → s.find? .approvalRequest id = some r ∨
      id = s.nextId .approvalRequest ∧ (s.ruleLogic r.targetId).isSome = true

structure RuleStep (lab : Access) (s t : Db) : Prop where
  rules : ∀ id r, s.find? .businessRule id = some r →
    ∃ r', t.find? .businessRule id = some r' ∧ RuleMoves lab id s t r r'
  created : ∀ id r', s.find? .businessRule id = none → t.find? .businessRule id = some r' →
    r'.status = .draft
  requests : s.KeepsRequests t
  files : s.FilesActivations t

theorem Db.KeepsRequests.of_table_eq (h : t.table .approvalRequest = s.table .approvalRequest) :
    s.KeepsRequests t :=
  Db.KeepsRows.of_table_eq (fun _ => ⟨rfl, rfl⟩) h

theorem Db.FilesActivations.of_table_eq (h : t.table .approvalRequest = s.table .approvalRequest) :
    s.FilesActivations t := by
  intro id r hr _ _
  rw [Db.find?, h] at hr
  exact .inl hr

namespace RuleStep

/-- The rules stay as they are. -/
theorem of_requests (hrules : t.table .businessRule = s.table .businessRule)
    (hkeeps : s.KeepsRequests t) (hfiles : s.FilesActivations t) : RuleStep lab s t := by
  have hsame : ∀ id, t.find? .businessRule id = s.find? .businessRule id := fun id =>
    congrArg (OrderedMap.get? · id) hrules
  constructor
  · intro id r hr
    exact ⟨r, (hsame id).trans hr, .kept rfl fun h => h⟩
  · intro id r' hnone hr'
    rw [hsame, hnone] at hr'
    exact absurd hr' nofun
  · exact hkeeps
  · exact hfiles

theorem of_agree (h : s.Agree [.businessRule, .approvalRequest] t) : RuleStep lab s t :=
  of_requests (h _ (by decide)) (.of_table_eq (h _ (by decide))) (.of_table_eq (h _ (by decide)))

/-- The change of one rule. -/
theorem of_modify {id : Id} {f : BusinessRule → BusinessRule}
    (hf : ∀ r, RuleMoves lab id s (s.modify .businessRule id f) r (f r)) :
    RuleStep lab s (s.modify .businessRule id f) := by
  have htable : (s.modify .businessRule id f).table .approvalRequest = s.table .approvalRequest :=
    Db.table_modify_of_ne (m := .businessRule) (by decide) s id f
  constructor
  · intro id' r hr
    rw [Db.find?_modify, hr]
    by_cases hid : id' = id
    · rw [if_pos hid, hid]
      exact ⟨f r, rfl, hf r⟩
    · rw [if_neg hid]
      exact ⟨r, rfl, .kept rfl fun h => h⟩
  · intro id' r' hnone hr'
    rw [Db.find?_modify, hnone, Option.map_none, ite_self] at hr'
    exact absurd hr' (by simp)
  · exact .of_table_eq htable
  · exact .of_table_eq htable

/-- A new rule is a draft. -/
theorem of_insert {r : BusinessRule} (hr : r.status = .draft) :
    RuleStep lab s (s.insert .businessRule r) := by
  have htable : (s.insert .businessRule r).table .approvalRequest = s.table .approvalRequest :=
    Db.table_insert_of_ne (m := .businessRule) (by decide) s r
  have hrules : s.KeepsRows .businessRule Eq (s.insert .businessRule r) :=
    Db.KeepsRows.insert (m := .businessRule) (fun _ => rfl) s r
  constructor
  · intro id old hold
    obtain ⟨new, hnew, rfl⟩ := hrules id old hold
    exact ⟨old, hnew, .kept rfl fun h => h⟩
  · intro id r' hnone hr'
    rw [Db.find?_insert, hnone] at hr'
    split at hr'
    · rw [← Option.some.inj hr']
      exact hr
    · exact absurd hr' nofun
  · exact .of_table_eq htable
  · exact .of_table_eq htable

end RuleStep

/-- The transaction of a decision. -/
theorem ResolveCall.run_inTx_ruleStep {call : ResolveCall} {existing : ApprovalRequest} {u : Unit}
    (hlab : lab.resolves =
      some ⟨call.requestId, existing, call.decision = .approve, call.now⟩)
    (h : (call.inTx existing).run s = (.ok u, t)) : RuleStep lab s t := by
  obtain ⟨row, hrow, hpending, hrequests⟩ := run_inTx_eq_ok h
  obtain ⟨-, v, -, -, heffect, ht⟩ := run_inTx_effect h
  have hkeeps : s.KeepsRequests t := by
    intro id r hr
    rw [hrequests]
    by_cases hid : id = call.requestId
    · rw [if_pos hid]
      rw [hid, hrow] at hr
      rw [← Option.some.inj hr]
      exact ⟨_, rfl, rfl, rfl⟩
    · rw [if_neg hid]
      exact ⟨r, hr, rfl, rfl⟩
  have hfiles : s.FilesActivations t := by
    intro id r hr _ hstatus
    rw [hrequests] at hr
    by_cases hid : id = call.requestId
    · rw [if_pos hid] at hr
      rw [← Option.some.inj hr] at hstatus
      exact absurd hstatus (call.resolve_status_ne row)
    · rw [if_neg hid] at hr
      exact .inl hr
  have hclaimed : (s.modify .approvalRequest call.requestId call.resolve).table .businessRule =
      s.table .businessRule := Db.table_modify_of_ne (m := .approvalRequest) (by decide) s _ _
  have hlogged : t.table .businessRule = v.table .businessRule := by
    rw [ht]
    exact Db.table_insert_of_ne (m := .auditLog) (by decide) v _
  by_cases htype : existing.type = .businessRuleActivation
  · -- The decision sets the status of one rule.
    have hset : ∃ f : BusinessRule → BusinessRule,
        v.table .businessRule = (s.table .businessRule).modify existing.targetId f ∧
          ∀ r, (f r).logic = r.logic ∧
            ((f r).status = .active → r.status = .active ∨ call.decision = .approve) := by
      unfold effect at heffect
      cases hdecision : call.decision with
      | approve =>
        simp only [hdecision, applyApproval, htype] at heffect
        rw [run_update_end_eq_ok heffect, Db.table_modify_self, hclaimed]
        exact ⟨_, rfl, fun r => ⟨rfl, fun _ => .inr rfl⟩⟩
      | reject =>
        simp only [hdecision, applyRejection, htype] at heffect
        rw [run_update_end_eq_ok heffect, Db.table_modify_self, hclaimed]
        exact ⟨_, rfl, fun r => ⟨rfl, (by simp)⟩⟩
    obtain ⟨f, hrules, hf⟩ := hset
    have hfind : ∀ id, t.find? .businessRule id = if id = existing.targetId then
        (s.find? .businessRule id).map f else s.find? .businessRule id := by
      intro id
      rw [Db.find?, hlogged, hrules]
      exact OrderedMap.get?_modify _ _ _ _
    constructor
    · intro id r hr
      rw [hfind, hr]
      by_cases hid : id = existing.targetId
      · rw [if_pos hid]
        refine ⟨f r, rfl, ?_⟩
        by_cases happrove : call.decision = .approve
        · refine .activated _ hlab ⟨htype, hid.symm⟩ ?_ ?_ (hf r).1
          · show (s.find? .approvalRequest call.requestId).map ApprovalRequest.status = _
            rw [hrow, Option.map_some, hpending]
          · show (t.find? .approvalRequest call.requestId).map ApprovalRequest.status = _
            rw [hrequests, if_pos rfl, Option.map_some]
            show some call.decision.status = _
            rw [happrove]
            rfl
        · exact .kept (hf r).1 fun hactive => ((hf r).2 hactive).resolve_right happrove
      · rw [if_neg hid]
        exact ⟨r, rfl, .kept rfl fun h => h⟩
    · intro id r' hnone hr'
      rw [hfind, hnone, Option.map_none, ite_self] at hr'
      exact absurd hr' (by simp)
    · exact hkeeps
    · exact hfiles
  · have hwrites : ∀ m ∈ approvalWrites existing.type, m ∉ [Model.businessRule] := by
      cases htype' : existing.type
      case businessRuleActivation => exact absurd htype' htype
      all_goals decide
    have hkept := (call.quiet_effect hwrites).run
      (s.modify .approvalRequest call.requestId call.resolve)
    rw [heffect] at hkept
    apply RuleStep.of_requests
    · rw [hlogged, hkept _ (by decide), hclaimed]
    · exact hkeeps
    · exact hfiles

end Steps

/-! ## The calls -/

/-- A decision that changes a request goes by the request as it was filed. -/
def Access.DecidesAsFiled (lab : Access) (s t : Db) : Prop :=
  t.table .approvalRequest ≠ s.table .approvalRequest → ∀ resolution ∈ lab.resolves,
    ∀ r, s.find? .approvalRequest resolution.requestId = some r →
      r.type = resolution.request.type ∧ r.targetId = resolution.request.targetId

def ruleProtocol : Protocol Access Db Unit where
  rely := fun s t => s.KeepsRows .businessRule (fun _ _ => True) t ∧ s.KeepsRequests t
  guar := fun lab s _ t _ => RuleStep lab s t ∧ lab.DecidesAsFiled s t
  refl := fun _ => ⟨.of_table_eq (fun _ => trivial) rfl, .of_table_eq rfl⟩
  trans := by
    intro a b c h h'
    constructor
    · exact h.1.trans (fun _ _ _ _ _ => trivial) h'.1
    · exact h.2.trans (fun _ _ _ h h' => ⟨h'.1.trans h.1, h'.2.trans h.2⟩) h'.2

section Follow

variable {s t : Db} {lab : Access} {α : Type}

theorem RuleStep.follows (h : RuleStep lab s t) (hlab : lab.DecidesAsFiled s t) (d : Unit) :
    ruleProtocol.rely s t ∧ ruleProtocol.guar lab s d t d := by
  constructor
  · constructor
    · intro id r hr
      obtain ⟨r', hr', -⟩ := h.rules id r hr
      exact ⟨r', hr', trivial⟩
    · exact h.requests
  · exact ⟨h, hlab⟩

theorem Access.decidesAsFiled_of_none (hlab : lab.resolves = none) : lab.DecidesAsFiled s t := by
  intro _ r hr
  rw [hlab] at hr
  exact absurd hr nofun

theorem Access.decidesAsFiled_of_table_eq (h : t.table .approvalRequest = s.table .approvalRequest) :
    lab.DecidesAsFiled s t :=
  fun hne => absurd h hne

theorem ruleProtocol_watches : ruleProtocol.Watches [.businessRule, .approvalRequest] := by
  intro lab s t d h
  have hstep : RuleStep lab s t := .of_agree h
  exact hstep.follows (Access.decidesAsFiled_of_table_eq (h _ (by decide))) d

/-- Keeping to the protocol, whatever comes out. -/
abbrev FollowsRules (p : Handler α) (s : Db) : Prop :=
  p.Follows ruleProtocol (fun _ _ _ => True) s ()

/-- Statements under labels that decide nothing. -/
theorem followsRules_of_everyStep {p : Handler α}
    (h : p.EveryStep fun lab s t => lab.resolves = none ∧ RuleStep lab s t) : FollowsRules p s := by
  refine (Follows.of_everyStep ?_ h).imp fun _ _ _ _ => trivial
  intro lab t t' d hstep
  exact hstep.2.follows (Access.decidesAsFiled_of_none hstep.1) d

/-- The update of one rule. -/
theorem updateRule_everyStep {id : Id} {f : BusinessRule → BusinessRule}
    (hlab : lab.resolves = none)
    (hf : ∀ s r, RuleMoves lab id s (s.modify .businessRule id f) r (f r)) :
    (updateAs lab .businessRule id f).EveryStep fun lab s t =>
      lab.resolves = none ∧ RuleStep lab s t := by
  constructor
  · intro s
    have hsame : RuleStep lab s s := .of_agree (.refl s)
    cases hrow : s.find? .businessRule id with
    | some r => simpa only [hrow] using And.intro hlab (RuleStep.of_modify (hf s))
    | none => simpa only [hrow] using And.intro hlab hsame
  · intro _
    trivial

theorem createBusinessRule_follows (auth : Auth) (body : RuleBody) :
    FollowsRules (createBusinessRule auth body) s := by
  have hW := ruleProtocol_watches
  refine Follows.require (fun _ => ?_) fun _ => trivial
  refine hW.query fun t _ => ?_
  refine Follows.bind (followsRules_of_everyStep ?_) ?_ fun _ _ _ _ => trivial
  · exact ⟨fun s => ⟨rfl, .of_insert rfl⟩, fun _ => trivial⟩
  · intro t _ rule _
    refine hW.quiet_end ?_ fun _ _ _ => trivial
    exact (Quiet.create (by decide) _).bind fun _ => Quiet.pure _

theorem RulePatch.moves (patch : RulePatch) (ruleId : Id) (r : BusinessRule) :
    RuleMoves { edits := some ⟨ruleId, patch.apply⟩ } ruleId s
      (s.modify .businessRule ruleId patch.apply) r (patch.apply r) :=
  .edited ⟨ruleId, patch.apply⟩ rfl rfl rfl rfl
    (Db.table_modify_of_ne (m := .businessRule) (by decide) s ruleId patch.apply)

theorem editBusinessRule_follows (versionNo : Db → Id → Option ℤ) (auth : Auth) (ruleId : Id)
    (expectedVersion : Option ℤ) (patch : RulePatch) :
    FollowsRules (editBusinessRule versionNo auth ruleId expectedVersion patch) s := by
  have hW := ruleProtocol_watches
  refine Follows.require (fun _ => ?_) fun _ => trivial
  refine hW.query fun t _ => Follows.orFail (fun existing _ => ?_) fun _ => trivial
  refine Follows.require (fun _ => ?_) fun _ => trivial
  refine hW.quiet ?_ (fun t₁ _ _ => ?_) fun _ _ => trivial
  · unfold checkVersion
    cases expectedVersion with
    | none => exact Quiet.pure _
    | some expected => exact (Quiet.query _).bind fun _ => Quiet.require _ _
  · exact followsRules_of_everyStep
      (updateRule_everyStep rfl fun _ _ => patch.moves ruleId _)

/-- A request is filed for a rule that was found. -/
theorem requestRuleActivation_follows (auth : Auth) (ruleId : Id) :
    FollowsRules (requestRuleActivation auth ruleId) s := by
  have hW := ruleProtocol_watches
  refine hW.query fun t _ => Follows.orFail (fun rule hrule => ?_) fun _ => trivial
  refine Follows.require (fun _ => ?_) fun _ => trivial
  intro t₁ ht₁
  obtain ⟨r, hr, -⟩ := ht₁.1 ruleId rule (Option.filter_eq_some_iff.mp hrule).1
  have hstep : ∀ row : ApprovalRequest, row.targetId = ruleId →
      RuleStep {} t₁ (t₁.insert .approvalRequest row) := by
    intro row hrow
    apply RuleStep.of_requests
    · exact Db.table_insert_of_ne (m := .approvalRequest) (by decide) t₁ row
    · exact Db.KeepsRows.insert (m := .approvalRequest) (fun _ => ⟨rfl, rfl⟩) t₁ row
    · intro id row' hrow' _ _
      rw [Db.find?_insert] at hrow'
      split at hrow'
      · next hid =>
        rw [← Option.some.inj hrow', hrow]
        exact .inr ⟨hid, by rw [Db.ruleLogic, hr]; rfl⟩
      · exact .inl hrow'
  have hfiled := hstep { institutionId := auth.institutionId, type := .businessRuleActivation,
                         targetType := "BusinessRule", targetId := ruleId,
                         requestedById := auth.userId } rfl
  obtain ⟨hrely, hguar⟩ := hfiled.follows (Access.decidesAsFiled_of_none rfl) ()
  have hmarked : ∀ t, FollowsRules (updateAs { files := some (.businessRule ruleId) } .businessRule
      ruleId fun r => { r with status := .pendingApproval }) t :=
    fun _ => followsRules_of_everyStep (updateRule_everyStep rfl fun _ _ => .kept rfl nofun)
  refine ⟨(), hrely, hguar, (hmarked _).bind (fun t₂ _ _ _ => ?_) fun _ _ _ _ => trivial⟩
  refine hW.quiet_end ?_ fun _ _ _ => trivial
  exact (Quiet.create (by decide) _).bind fun _ => Quiet.pure _

theorem retireRule_follows (auth : Auth) (ruleId : Id) :
    FollowsRules (retireRule auth ruleId) s := by
  have hW := ruleProtocol_watches
  have hretired : ∀ t, RuleStep { moves := some (.businessRule ruleId) } t
      (t.modify .businessRule ruleId fun r => { r with status := .retired }) :=
    fun t => .of_modify fun _ => .kept rfl nofun
  refine Follows.bind (followsRules_of_everyStep ?_) ?_ fun _ _ _ _ => trivial
  · constructor
    · intro t
      have hsame : RuleStep { moves := some (.businessRule ruleId) } t t := .of_agree (.refl t)
      refine ⟨rfl, ?_⟩
      cases hrow : t.find? .businessRule ruleId with
      | none => simpa only [hrow] using hsame
      | some r =>
        by_cases hp : r.institutionId = auth.institutionId
        · simpa only [hrow, hp, decide_true, if_true] using hretired t
        · simpa only [hrow, hp, decide_false, Bool.false_eq_true, if_false] using hsame
    · exact fun _ => trivial
  · intro t _ updated _
    refine hW.quiet_end ?_ fun _ _ _ => trivial
    exact (Quiet.require _ _).bind fun _ => (Quiet.create (by decide) _).bind fun _ => Quiet.pure _

/-- A decision about a request that was read. -/
theorem ResolveCall.followsRules (call : ResolveCall) : FollowsRules call.handler s := by
  have hW := ruleProtocol_watches
  refine hW.query fun t _ => Follows.orFail (fun existing hexisting => ?_) fun _ => trivial
  refine Follows.require (fun _ => ?_) fun _ => trivial
  refine Follows.require (fun _ => ?_) fun _ => trivial
  intro t₁ ht₁
  have hfound := (Option.filter_eq_some_iff.mp hexisting).1
  obtain ⟨row, hrow, hsame⟩ := ht₁.2 call.requestId existing hfound
  have hfiled : ∀ t₂, ({ resolves := some ⟨call.requestId, existing, call.decision = .approve,
      call.now⟩ } : Access).DecidesAsFiled t₁ t₂ := by
    intro t₂ _ resolution hresolution r hr
    rw [← Option.some.inj hresolution, hrow] at hr
    rw [← Option.some.inj hresolution, ← Option.some.inj hr]
    exact hsame
  have hdecided : ∀ t₂, RuleStep { resolves := some ⟨call.requestId, existing,
      call.decision = .approve, call.now⟩ } t₁ t₂ → ruleProtocol.rely t₁ t₂ ∧
        ruleProtocol.guar { resolves := some ⟨call.requestId, existing,
          call.decision = .approve, call.now⟩ } t₁ () t₂ () :=
    fun t₂ hstep => hstep.follows (hfiled t₂) ()
  cases hrun : ((call.inTx existing).interrupted call.fault).run t₁ with
  | mk r t₂ =>
    simp only [hrun]
    cases r with
    | error e =>
      obtain ⟨hrely, hguar⟩ := hdecided t₁ (.of_agree (.refl t₁))
      exact ⟨(), hrely, hguar, trivial⟩
    | ok u =>
      obtain ⟨hrely, hguar⟩ := hdecided t₂
        (ResolveCall.run_inTx_ruleStep rfl (run_interrupted_eq_ok hrun))
      exact ⟨(), hrely, hguar, trivial⟩

/-- A call that may touch a rule.  The last constructor stands for every other endpoint. -/
inductive RuleCall
  | create (auth : Auth) (body : RuleBody)
  | edit (versionNo : Db → Id → Option ℤ) (auth : Auth) (ruleId : Id)
      (expectedVersion : Option ℤ) (patch : RulePatch)
  | requestActivation (auth : Auth) (ruleId : Id)
  | retire (auth : Auth) (ruleId : Id)
  | resolve (call : ResolveCall)
  | other (p : Handler Unit) (h : p.EveryStep fun lab s t => lab.resolves = none ∧
      t.table .businessRule = s.table .businessRule ∧ s.KeepsRequests t ∧ s.FilesActivations t)

def RuleCall.handler : RuleCall → Handler Unit
  | create auth body => do let _ ← createBusinessRule auth body
  | edit versionNo auth ruleId expectedVersion patch => do
    let _ ← editBusinessRule versionNo auth ruleId expectedVersion patch
  | requestActivation auth ruleId => do let _ ← requestRuleActivation auth ruleId
  | retire auth ruleId => retireRule auth ruleId
  | resolve call => call.handler
  | other p _ => p

theorem RuleCall.follows (call : RuleCall) : FollowsRules call.handler s := by
  cases call with
  | create auth body =>
    exact (createBusinessRule_follows auth body).bind (fun _ _ _ _ => trivial) fun _ _ _ _ => trivial
  | edit versionNo auth ruleId expectedVersion patch =>
    exact (editBusinessRule_follows versionNo auth ruleId expectedVersion patch).bind
      (fun _ _ _ _ => trivial) fun _ _ _ _ => trivial
  | requestActivation auth ruleId =>
    exact (requestRuleActivation_follows auth ruleId).bind (fun _ _ _ _ => trivial)
      fun _ _ _ _ => trivial
  | retire auth ruleId => exact retireRule_follows auth ruleId
  | resolve call => exact call.followsRules
  | other p h =>
    apply followsRules_of_everyStep
    exact h.imp fun _ _ _ hstep => ⟨hstep.1, .of_requests hstep.2.1 hstep.2.2.1 hstep.2.2.2⟩

end Follow

/-! ## What the requests and the rule have in common -/

section Books

variable {s t : Db} {lab : Access} {ruleId : Id} {h : List RuleEvent}

/-- An active rule has the logic that it had when the activation was requested which was the last
to be approved. -/
def Db.ActiveAsRequested (s : Db) (ruleId : Id) (h : List RuleEvent) : Prop :=
  s.ruleStatus ruleId = some .active → ∃ id, (activationsOf ruleId h).getLast? = some id ∧
    .requested id ruleId (s.ruleLogic ruleId) ∈ h

/-- A pending request has been filed for the logic that the rule still has. -/
structure RuleBooks (ruleId : Id) (s : Db) (h : List RuleEvent) : Prop where
  pending : ∀ id r, s.find? .approvalRequest id = some r → r.ActivatesRule ruleId →
    r.status = .pending →
      (s.ruleLogic ruleId).isSome = true ∧ .requested id ruleId (s.ruleLogic ruleId) ∈ h
  active : s.ActiveAsRequested ruleId h

theorem activationsOf_append (h h' : List RuleEvent) :
    activationsOf ruleId (h ++ h') = activationsOf ruleId h ++ activationsOf ruleId h' :=
  List.filterMap_append

theorem activationsOf_requestEvents : activationsOf ruleId (requestEvents s t) = [] := by
  unfold requestEvents
  split
  · split
    · rfl
    · rfl
  · rfl

/-- An approval of a request for the rule that commits. -/
def Access.Activates (lab : Access) (ruleId : Id) (s t : Db) (requestId : Id) : Prop :=
  ∃ resolution ∈ lab.resolves, resolution.requestId = requestId ∧
    resolution.request.ActivatesRule ruleId ∧ s.requestStatus requestId = some .pending ∧
      t.requestStatus requestId = some .approved

theorem activationsOf_decisionEvents {id : Id} (hactivates : lab.Activates ruleId s t id) :
    activationsOf ruleId (decisionEvents lab s t) = [id] := by
  obtain ⟨resolution, hresolution, rfl, ⟨htype, htarget⟩, hbefore, hafter⟩ := hactivates
  unfold decisionEvents
  rw [Option.mem_def.mp hresolution]
  simp [htype, htarget, hbefore, hafter, activationsOf]

theorem activationsOf_decisionEvents_eq_nil (hnone : ∀ id, ¬ lab.Activates ruleId s t id) :
    activationsOf ruleId (decisionEvents lab s t) = [] := by
  unfold decisionEvents
  split
  · next resolution hresolution =>
    split
    · next hdecides =>
      obtain ⟨htype, hbefore, hafter⟩ := hdecides
      have htarget : resolution.request.targetId ≠ ruleId := fun htarget =>
        hnone _ ⟨resolution, hresolution, rfl, ⟨htype, htarget⟩, hbefore, hafter⟩
      simp [activationsOf, htarget]
    · rfl
  · rfl

theorem Db.activationPending_of_find? {id : Id} {r : ApprovalRequest}
    (hr : s.find? .approvalRequest id = some r) (hrule : r.ActivatesRule ruleId)
    (hpending : r.status = .pending) : s.ActivationPending ruleId :=
  ⟨(id, r), OrderedMap.get?_eq_some.mp hr, hrule, hpending⟩

/-- A rule decides with what it did before, or an edit has changed it, and nothing else. -/
theorem RuleStep.ruleLogic_cases (hstep : RuleStep lab s t)
    (hsome : (s.ruleLogic ruleId).isSome = true) :
    t.ruleLogic ruleId = s.ruleLogic ruleId ∨
      ∃ edit ∈ lab.edits, edit.ruleId = ruleId ∧ edit.Changes s ∧
        t.ruleStatus ruleId = s.ruleStatus ruleId ∧
        t.table .approvalRequest = s.table .approvalRequest := by
  unfold Db.ruleLogic Db.ruleStatus at *
  rw [Option.isSome_map] at hsome
  obtain ⟨r, hr⟩ := Option.isSome_iff_exists.mp hsome
  obtain ⟨r', hr', hmoves⟩ := hstep.rules ruleId r hr
  rw [hr, hr', Option.map_some, Option.map_some, Option.map_some, Option.map_some]
  cases hmoves with
  | kept hlogic _ => exact .inl (congrArg some hlogic)
  | activated _ _ _ _ _ hlogic => exact .inl (congrArg some hlogic)
  | edited edit hedits hrule hdata hstatus hrequests =>
    by_cases hlogic : r'.logic = r.logic
    · exact .inl (congrArg some hlogic)
    · right
      refine ⟨edit, hedits, hrule, ⟨r, hrule ▸ hr, ?_⟩, congrArg some hstatus, hrequests⟩
      rw [← hdata]
      exact hlogic

/-- A rule that becomes active is approved. -/
theorem RuleStep.active_before (hstep : RuleStep lab s t)
    (hnone : ∀ id, ¬ lab.Activates ruleId s t id) (hactive : t.ruleStatus ruleId = some .active) :
    s.ruleStatus ruleId = some .active := by
  unfold Db.ruleStatus at *
  obtain ⟨r', hr', hstatus⟩ := Option.map_eq_some_iff.mp hactive
  cases hr : s.find? .businessRule ruleId with
  | none =>
    have hdraft := hstep.created ruleId r' hr hr'
    rw [hstatus] at hdraft
    exact absurd hdraft nofun
  | some r =>
    obtain ⟨r'', hr'', hmoves⟩ := hstep.rules ruleId r hr
    rw [hr'] at hr''
    rw [← Option.some.inj hr''] at hmoves
    rw [Option.map_some]
    cases hmoves with
    | kept _ hkept => rw [hkept hstatus]
    | activated resolution hresolves hasked hbefore hafter _ =>
      exact absurd ⟨resolution, hresolves, rfl, hasked, hbefore, hafter⟩ (hnone _)
    | edited _ _ _ _ hkept _ => rw [← hkept, hstatus]

namespace RuleBooks

theorem step (hbooks : RuleBooks ruleId s h) (hstep : RuleStep lab s t)
    (hlab : lab.EditsInTime ruleId s) (hfiled : lab.DecidesAsFiled s t) :
    RuleBooks ruleId t (h ++ ruleEvents lab s t) := by
  constructor
  · intro id r hr hrule hpending
    rcases hstep.files id r hr hrule.1 hpending with hbefore | ⟨hid, hsome⟩
    · obtain ⟨hsome, hrequested⟩ := hbooks.pending id r hbefore hrule hpending
      rcases hstep.ruleLogic_cases hsome with hlogic | ⟨edit, hedit, hid, hchanges, -, -⟩
      · rw [hlogic]
        exact ⟨hsome, List.mem_append_left _ hrequested⟩
      · exact absurd (Db.activationPending_of_find? hbefore hrule hpending)
          (hlab edit hedit hid hchanges).2.2
    · rw [hrule.2] at hsome
      rw [hid] at hr ⊢
      rcases hstep.ruleLogic_cases hsome with hlogic | ⟨-, -, -, -, -, hrequests⟩
      · rw [hlogic]
        refine ⟨hsome, List.mem_append_right _ (List.mem_append_left _ ?_)⟩
        unfold requestEvents
        simp only [hr, hrule.1, if_true, hrule.2, List.mem_singleton]
      · have hnew : s.find? .approvalRequest (s.nextId .approvalRequest) = none :=
          OrderedMap.get?_nextKey _
        rw [Db.find?, hrequests] at hr
        exact absurd (hnew.symm.trans hr) (by simp)
  · intro hactive
    have hevents : activationsOf ruleId (h ++ ruleEvents lab s t) =
        activationsOf ruleId h ++ activationsOf ruleId (decisionEvents lab s t) := by
      rw [activationsOf_append, ruleEvents, activationsOf_append, activationsOf_requestEvents,
        List.nil_append]
    rw [hevents]
    by_cases hdecides : ∃ id, lab.Activates ruleId s t id
    · obtain ⟨id, hactivates⟩ := hdecides
      rw [activationsOf_decisionEvents hactivates]
      refine ⟨id, List.getLast?_concat, List.mem_append_left _ ?_⟩
      obtain ⟨resolution, hresolution, hid, hasked, hbefore, hafter⟩ := hactivates
      -- The request was pending, so its logic is the one the rule still has.
      obtain ⟨r, hr, hpending⟩ := Option.map_eq_some_iff.mp hbefore
      have hchanged : t.table .approvalRequest ≠ s.table .approvalRequest := by
        intro hsame
        rw [Db.requestStatus, Db.find?, hsame] at hafter
        exact absurd (hbefore.symm.trans hafter) (by decide)
      have hsame := hfiled hchanged resolution hresolution r (hid ▸ hr)
      have hrule : r.ActivatesRule ruleId := ⟨hsame.1.trans hasked.1, hsame.2.trans hasked.2⟩
      obtain ⟨hsome, hrequested⟩ := hbooks.pending id r hr hrule hpending
      rcases hstep.ruleLogic_cases hsome with hlogic | ⟨-, -, -, -, -, hrequests⟩
      · rw [hlogic]
        exact hrequested
      · exact absurd hrequests hchanged
    · have hnone : ∀ id, ¬ lab.Activates ruleId s t id := fun id hid => hdecides ⟨id, hid⟩
      rw [activationsOf_decisionEvents_eq_nil hnone, List.append_nil]
      have hbefore := hstep.active_before hnone hactive
      obtain ⟨id, hlast, hrequested⟩ := hbooks.active hbefore
      refine ⟨id, hlast, List.mem_append_left _ ?_⟩
      have hsome : (s.ruleLogic ruleId).isSome = true := by
        obtain ⟨r, hr, -⟩ := Option.map_eq_some_iff.mp hbefore
        rw [Db.ruleLogic, hr]
        rfl
      rcases hstep.ruleLogic_cases hsome with hlogic | ⟨edit, hedit, hid, hchanges, -, -⟩
      · rw [hlogic]
        exact hrequested
      · exact absurd hbefore (hlab edit hedit hid hchanges).2.1

end RuleBooks

/-- A statement that meets the condition leaves the logic of a pending or an active rule alone. -/
theorem RuleStep.logic_frozen (hstep : RuleStep lab s t) (hlab : lab.EditsInTime ruleId s)
    (hstatus : s.ruleStatus ruleId = some .pendingApproval ∨ s.ruleStatus ruleId = some .active) :
    t.ruleLogic ruleId = s.ruleLogic ruleId := by
  have hsome : (s.ruleLogic ruleId).isSome = true := by
    rcases hstatus with hstatus | hstatus
    all_goals
      obtain ⟨r, hr, -⟩ := Option.map_eq_some_iff.mp hstatus
      rw [Db.ruleLogic, hr]
      rfl
  rcases hstep.ruleLogic_cases hsome with hlogic | ⟨edit, hedit, hid, hchanges, -, -⟩
  · exact hlogic
  · obtain ⟨hpending, hactive, -⟩ := hlab edit hedit hid hchanges
    exact hstatus.elim (fun h => absurd h hpending) fun h => absurd h hactive

end Books

/-! ## Runs of the calls -/

section Runs

variable {ι : Type} [DecidableEq ι]

def rulePool (calls : ι → RuleCall) (s : Db) : Pool ι Access Db Failure Unit :=
  ⟨fun i => (calls i).handler, s⟩

omit [DecidableEq ι] in
theorem rulePool_follows (calls : ι → RuleCall) (s : Db) :
    (rulePool calls s).Follows ruleProtocol (fun _ _ => True) fun _ => () :=
  fun i => (calls i).follows

/-- In a run in which every edit that changes the rule finds it neither PENDING_APPROVAL nor
ACTIVE, and no request for its activation pending, an active rule has the logic that it had when
its activation was requested, and the logic of a pending or an active rule never changes. -/
theorem active_as_requested (calls : ι → RuleCall) (s : Db) (ruleId : Id)
    (hactive : s.ruleStatus ruleId ≠ some .active) (hpending : ¬ s.ActivationPending ruleId)
    (sched : List ι) (hedits : (rulePool calls s).Allowed (Access.EditsInTime ruleId) sched) :
    ((rulePool calls s).run sched).state.ActiveAsRequested ruleId
        ((rulePool calls s).history ruleEvents sched) ∧
      ∀ before i after, sched = before ++ i :: after →
        ((rulePool calls s).run before).state.ruleStatus ruleId = some .pendingApproval ∨
          ((rulePool calls s).run before).state.ruleStatus ruleId = some .active →
        ((rulePool calls s).run (before ++ [i])).state.ruleLogic ruleId =
          ((rulePool calls s).run before).state.ruleLogic ruleId := by
  have hfollows := rulePool_follows calls s
  constructor
  · have hstart : RuleBooks ruleId s [] := by
      constructor
      · intro id r hr hrule hwaits
        exact absurd (Db.activationPending_of_find? hr hrule hwaits) hpending
      · exact fun h => absurd h hactive
    have hbooks : RuleBooks ruleId ((rulePool calls s).run sched).state
        ([] ++ (rulePool calls s).history ruleEvents sched) := by
      apply Pool.Follows.run_history (K := fun _ _ => True) _ _ hfollows hstart (fun _ => trivial)
        (Pool.allowedAfter_of_allowed hedits [])
      · exact fun _ _ _ _ => trivial
      · intro lab t _ u _ past hguar _ hlab hbooks _
        exact ⟨hbooks.step hguar.1 hlab hguar.2, trivial⟩
    exact hbooks.active
  · intro before i after hsched hstatus
    rw [hsched, ← List.singleton_append, ← List.append_assoc] at hedits
    have hprefix := (Pool.allowed_append.mp hedits).1
    rcases hfollows.last_step hprefix with hsame | ⟨lab, d, d', hlab, hguar, -⟩
    · rw [hsame]
    · exact hguar.1.logic_frozen hlab hstatus

end Runs

/-! ## An edit that comes late -/

/-- A draft of a rule: loans over 1000 are rejected. -/
def draftRule : Db :=
  Db.empty.insert .businessRule
    { institutionId := 1, ruleCode := "BR-001", name := "Large loans", triggerPoint := .loanInitiation,
      conditions := [⟨"amount", .greaterThan, .number 1000⟩], actions := [⟨.reject, none⟩] }

/-- One user raises the limit, and asks for the activation, and another approves it. -/
def ruleCalls : Fin 3 → RuleCall
  | 0 => .edit (fun _ _ => none) ⟨1, 1⟩ 1 none
      { conditions := some [⟨"amount", .greaterThan, .number 1000000⟩] }
  | 1 => .requestActivation ⟨1, 1⟩ 1
  | 2 => .resolve { decision := .approve, auth := ⟨1, 2⟩, now := 1, requestId := 1 }

/-- The edit is finished before the activation is requested. -/
theorem active_as_requested_ruleCalls :
    ((rulePool ruleCalls draftRule).run [0, 0, 1, 1, 1, 1, 2, 2]).state.ruleStatus 1 =
        some .active ∧
      ((rulePool ruleCalls draftRule).run [0, 0, 1, 1, 1, 1, 2, 2]).state.ActiveAsRequested 1
        ((rulePool ruleCalls draftRule).history ruleEvents [0, 0, 1, 1, 1, 1, 2, 2]) := by
  constructor
  · decide +kernel
  · exact (active_as_requested ruleCalls draftRule 1 (by decide +kernel) (by decide +kernel)
      [0, 0, 1, 1, 1, 1, 2, 2] (by decide +kernel)).1

/-- The edit has found a draft, and writes when the rule is active. -/
theorem active_other_than_requested :
    ¬ ∀ (calls : Fin 3 → RuleCall) (s : Db) (ruleId : Id),
      s.ruleStatus ruleId ≠ some .active → ¬ s.ActivationPending ruleId →
      ∀ sched, ((rulePool calls s).run sched).state.ActiveAsRequested ruleId
          ((rulePool calls s).history ruleEvents sched) ∧
        ∀ before i after, sched = before ++ i :: after →
          ((rulePool calls s).run before).state.ruleStatus ruleId = some .pendingApproval ∨
            ((rulePool calls s).run before).state.ruleStatus ruleId = some .active →
          ((rulePool calls s).run (before ++ [i])).state.ruleLogic ruleId =
            ((rulePool calls s).run before).state.ruleLogic ruleId := by
  intro h
  have hrun := h ruleCalls draftRule 1 (by decide +kernel) (by decide +kernel)
    [0, 1, 1, 1, 1, 2, 2, 0]
  have hchanged := hrun.2 [0, 1, 1, 1, 1, 2, 2] 0 [] rfl (by decide +kernel)
  revert hchanged
  decide +kernel

end NexusEfos
