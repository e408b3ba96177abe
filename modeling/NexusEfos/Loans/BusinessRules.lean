/-
Business rules: `lib/businessRules.ts`.

A rule compares fields of a context with values, and JavaScript converts both sides
as it goes.  These conversions, and the access to a field, are those of the language;
`Js` collects the ones that matter, and nothing below depends on what they answer.
-/
import NexusEfos.Prisma
import Mathlib.Data.List.Sort

namespace NexusEfos

/-- What a rule of the life of a loan is evaluated against. -/
structure RuleContext where
  principal : ℚ
  termMonths : ℕ
  interestRate : ℚ
  customer : Option Customer

/-- A value as the comparisons see it: `Number(x)`, absent when that is `NaN`, and
`String(x)`. -/
structure JsValue where
  number : Option ℚ
  string : String

/-- What the language provides: `context[a][b]…`, absent when it is `undefined`, the
value of a literal, `toLowerCase`, and `Number.prototype.toLocaleString`. -/
structure Js (Context : Type := RuleContext) where
  property : Context → List String → Option JsValue
  value : RuleValue → JsValue
  toLowerCase : String → String
  toLocaleString : ℚ → String

variable {Context : Type}

def getField (js : Js Context) (context : Context) (field : String) : Option JsValue :=
  js.property context (field.splitOn ".")

/-- A comparison of two numbers, which fails unless both sides are numbers. -/
def compareNumbers (p : ℚ → ℚ → Bool) (actual expected : JsValue) : Bool :=
  match actual.number, expected.number with
  | some x, some y => p x y
  | _, _ => false

/-- Equality of numbers if both sides are numbers, of strings otherwise. -/
def looselyEqual (actual expected : JsValue) : Bool :=
  match actual.number, expected.number with
  | some x, some y => decide (x = y)
  | _, _ => decide (actual.string = expected.string)

def evaluateCondition (js : Js Context) (context : Context) (condition : RuleCondition) : Bool :=
  match getField js context condition.field with
  | none => false
  | some actual =>
    let expected := js.value condition.value
    match condition.operator with
    | .equals => looselyEqual actual expected
    | .notEquals => !looselyEqual actual expected
    | .greaterThan => compareNumbers (fun x y => decide (y < x)) actual expected
    | .greaterThanOrEqual => compareNumbers (fun x y => decide (y ≤ x)) actual expected
    | .lessThan => compareNumbers (fun x y => decide (x < y)) actual expected
    | .lessThanOrEqual => compareNumbers (fun x y => decide (x ≤ y)) actual expected
    | .contains =>
      decide ((js.toLowerCase expected.string).toList <:+: (js.toLowerCase actual.string).toList)

def ruleMatches (js : Js Context) (context : Context) (conditions : List RuleCondition)
    (conditionLogic : String) : Bool :=
  if conditions.isEmpty then false
  else if conditionLogic = "ANY" then conditions.any (evaluateCondition js context)
  else conditions.all (evaluateCondition js context)

structure MatchedRule where
  rule : Id × BusinessRule
  hasReject : Bool

def matchRules (js : Js Context) (now : DateTime) (institutionId : Id)
    (triggerPoint : BusinessRuleTriggerPoint) (context : Context) :
    Handler (List MatchedRule) := do
  let activeRules ← query fun s =>
    ((s.table .businessRule).entries.filter fun r =>
      r.2.institutionId = institutionId ∧ r.2.status = .active ∧ r.2.triggerPoint = triggerPoint ∧
        (r.2.effectiveDate.all fun date => date ≤ now) ∧
        r.2.expiryDate.all fun date => now ≤ date).insertionSort
      fun r r' => r.2.priority ≤ r'.2.priority
  return (activeRules.filter fun r => ruleMatches js context r.2.conditions r.2.conditionLogic).map
    fun r => ⟨r, r.2.actions.any fun a => a.type = .reject⟩

def RuleActionType.text : RuleActionType → String
  | .flag => "FLAG"
  | .requireAdditionalApproval => "REQUIRE_ADDITIONAL_APPROVAL"
  | .reject => "REJECT"

/-- What one action of a matched rule leaves behind. -/
def executeAction (institutionId userId : Id) (targetType : String) (targetId : Id)
    (rule : BusinessRule) (action : RuleAction) : Handler String := do
  match action.type with
  | .flag =>
    let _ ← create .auditLog
      { institutionId, userId := some userId, action := "business_rule.flagged",
        resource := targetType, resourceId := some targetId }
    return action.type.text
  | .requireAdditionalApproval =>
    let _ ← createAs { raises := some (targetType, targetId) } .approvalRequest
      { institutionId, type := .businessRuleTriggered, targetType, targetId,
        reason := some (action.message.getD ("Business rule " ++ rule.ruleCode ++ " (" ++ rule.name ++
          ") requires additional approval")),
        requestedById := userId }
    return action.type.text
  | .reject => return action.type.text

structure RuleWarning where
  ruleCode : String
  ruleName : String
  actionsTaken : List String

def executeMatchedRules (institutionId userId : Id) (targetType : String) (targetId : Id)
    (matched : List MatchedRule) : Handler (List RuleWarning) :=
  Proc.mapEach matched fun m => do
    let actionsTaken ← Proc.mapEach m.rule.2.actions
      (executeAction institutionId userId targetType targetId m.rule.2)
    let _ ← create .auditLog
      { institutionId, userId := some userId, action := "business_rule.triggered",
        resource := targetType, resourceId := some targetId }
    return ⟨m.rule.2.ruleCode, m.rule.2.name, actionsTaken⟩

end NexusEfos
