/-
The record of a customer: the endpoints of `routes/customer.routes.ts` that create it, classify it
and keep its beneficiaries, and `lib/customerRiskScoring.ts`.

The endpoints that edit the profile and the status are with the other requests for approval.
-/
import NexusEfos.Approvals.Requests
import NexusEfos.Loans.BusinessRules

namespace NexusEfos

/-! ## Creation -/

/-- White space, as the regular expressions of the language see it. -/
def isJsSpace (c : Char) : Bool :=
  (9 ≤ c.toNat && c.toNat ≤ 13) || (8192 ≤ c.toNat && c.toNat ≤ 8202) ||
    c.toNat ∈ [32, 160, 5760, 8232, 8233, 8239, 8287, 12288, 65279]

/-- The words of a name, in lower case and with one space between them. -/
def normalizeName (toLowerCase : String → String) (name : String) : String :=
  " ".intercalate (((toLowerCase name).splitToList isJsSpace).filter fun word => word ≠ "")

/-- `createSchema`. -/
structure CreateCustomer where
  fullName : String
  phone : String
  email : Option String := none
  idType : Option String := none
  idNumber : Option String := none
  branchId : Id
  address : Option String := none
  segment : CustomerSegment := .individual

/-- What the schema asks for.  `isEmail` is the format check of the library. -/
def CreateCustomer.IsValid (isEmail : String → Bool) (body : CreateCustomer) : Prop :=
  2 ≤ jsLength body.fullName ∧ 6 ≤ jsLength body.phone ∧ ∀ email ∈ body.email, isEmail email = true

instance CreateCustomer.decidableIsValid (isEmail : String → Bool) (body : CreateCustomer) :
    Decidable (body.IsValid isEmail) :=
  inferInstanceAs (Decidable (_ ∧ _ ∧ ∀ email ∈ body.email, isEmail email = true))

def CreateCustomer.profile (body : CreateCustomer) : CustomerProfile :=
  { fullName := body.fullName, phone := body.phone, email := body.email, idType := body.idType,
    idNumber := body.idNumber, branchId := some body.branchId, address := body.address,
    segment := body.segment }

/-- `customer.create`.  A phone number is unique within an institution. -/
def createCustomerRowAs (lab : Access) (row : Customer) : Handler Id :=
  Proc.attempt lab fun s =>
    if (row.institutionId, row.profile.phone) ∈ (s.table .customer).values.map
        fun c => (c.institutionId, c.profile.phone) then
      (.error uniqueViolation, s)
    else (.ok (s.nextId .customer), s.insert .customer row)

/-- `POST /`.  `equalsInsensitive` is the comparison of the database. -/
def createCustomer (isEmail : String → Bool) (js : Js CreateCustomer)
    (equalsInsensitive : String → String → Bool) (auth : Auth) (now : DateTime)
    (customerNumber : String) (body : CreateCustomer) : Handler Id := do
  Proc.require (body.IsValid isEmail) .invalid
  let normalized := normalizeName js.toLowerCase body.fullName
  let watchlistMatch ← findFirst .watchlistEntry fun _ w =>
    decide (w.institutionId = auth.institutionId) && equalsInsensitive w.fullName body.fullName &&
      w.deletedAt.isNone
  let existingCustomers ← findMany .customer fun _ c =>
    decide (c.institutionId = auth.institutionId) && !c.archived
  let duplicateMatch := existingCustomers.find? fun c =>
    normalizeName js.toLowerCase c.2.profile.fullName = normalized
  let matched ← matchRules js now auth.institutionId .customerCreation body
  let blockingRule := matched.find? fun m => m.hasReject
  Proc.require (blockingRule.isNone = true)
    (.http 400 ("Customer creation blocked by business rule " ++
      (blockingRule.map fun m => m.rule.2.ruleCode ++ ": " ++ m.rule.2.name).getD ""))
  let customer ← createCustomerRowAs {}
    { institutionId := auth.institutionId, customerNumber := some customerNumber,
      profile := body.profile,
      status := if watchlistMatch.isSome then .blacklisted else .registered,
      watchlistFlag := watchlistMatch.isSome, possibleDuplicate := duplicateMatch.isSome }
  let _ ← executeMatchedRules auth.institutionId auth.userId "Customer" customer matched
  match watchlistMatch with
  | some w =>
    let _ ← create .approvalRequest
      { institutionId := auth.institutionId, type := .amlAdjudication, targetType := "Customer",
        targetId := customer, payload := { previousStatus := some .registered },
        reason := some ("Name matches watchlist entry: " ++
          w.2.reason.getD "no reason recorded"),
        requestedById := auth.userId }
    let _ ← create .auditLog (customerLog auth "customer.create" customer)
    return customer
  | none =>
    let _ ← create .auditLog (customerLog auth "customer.create" customer)
    return customer

/-! ## Classification -/

/-- `PATCH /:id/kyc`. -/
def changeKyc (auth : Auth) (customerId : Id) (kycStatus : Option KycStatus) : Handler Unit := do
  let kycStatus ← Proc.orFail kycStatus (.http 400 "kycStatus required")
  let found ← findById .customer customerId fun c => c.institutionId = auth.institutionId
  let existing ← Proc.orFail found (.http 404 "Customer not found")
  assertNotLocked existing.status
  let _ ← update .customer customerId fun c => { c with kycStatus }
  let _ ← create .auditLog (customerLog auth "customer.kyc_change" customerId)

/-- A politically exposed person, or a high risk. -/
def cddLevelFor (pepStatus : PepStatus) (riskRating : Option RiskRating) : CddLevel :=
  if pepStatus ≠ .notPep ∨ riskRating = some .high then .enhanced else .standard

/-- `PATCH /:id/cdd`. -/
def updateCdd (auth : Auth) (now : DateTime) (customerId : Id) (pepStatus : Option PepStatus)
    (cddNotes : Option String) : Handler Unit := do
  let found ← findById .customer customerId fun c => c.institutionId = auth.institutionId
  let existing ← Proc.orFail found (.http 404 "Customer not found")
  assertNotLocked existing.status
  let effectivePepStatus := pepStatus.getD existing.pepStatus
  let cddLevel := cddLevelFor effectivePepStatus existing.profile.riskRating
  let _ ← update .customer customerId fun c =>
    { c with pepStatus := pepStatus.getD c.pepStatus, cddNotes := cddNotes <|> c.cddNotes, cddLevel,
             cddCompletedAt := some now, cddCompletedById := some auth.userId }
  let _ ← create .auditLog (customerLog auth "customer.cdd_update" customerId)

def PepStatus.text : PepStatus → String
  | .notPep => "NOT PEP"
  | .domesticPep => "DOMESTIC PEP"
  | .foreignPep => "FOREIGN PEP"
  | .pepAssociate => "PEP ASSOCIATE"

/-- What `calculateCustomerRiskScore` answers. -/
structure CustomerRiskScore where
  score : ℕ
  rating : RiskRating
  breakdown : List ScoreBreakdownItem

def calculateCustomerRiskScore (c : Customer) : CustomerRiskScore :=
  let breakdown : List ScoreBreakdownItem :=
    (if c.watchlistFlag then [⟨"Watchlist match", 50⟩] else []) ++
    (if c.pepStatus ≠ .notPep then [⟨"PEP status: " ++ c.pepStatus.text, 30⟩] else []) ++
    (if c.kycStatus = .rejected then [⟨"KYC rejected", 25⟩] else []) ++
    (if c.kycStatus = .pending then [⟨"KYC pending", 10⟩] else []) ++
    (if c.possibleDuplicate then [⟨"Flagged as possible duplicate", 10⟩] else []) ++
    (if c.cddLevel = .enhanced then [⟨"Enhanced due diligence required", 15⟩] else [])
  let score := min 100 (breakdown.map ScoreBreakdownItem.points).sum
  { score, rating := if 50 ≤ score then .high else if 25 ≤ score then .medium else .low, breakdown }

/-- `POST /:id/recompute-risk-score`. -/
def recomputeRiskScore (auth : Auth) (customerId : Id) : Handler CustomerRiskScore := do
  let found ← findById .customer customerId fun c => c.institutionId = auth.institutionId
  let customer ← Proc.orFail found (.http 404 "Customer not found")
  let result := calculateCustomerRiskScore customer
  let _ ← updateAs { risk := some ⟨some customerId, none, some result.rating⟩ } .customer customerId
    fun c =>
      { c with kycRiskScore := some result.score, kycRiskScoreBreakdown := result.breakdown,
               profile := { c.profile with riskRating := some result.rating } }
  let _ ← create .auditLog (customerLog auth "customer.risk_score_recomputed" customerId)
  return result

/-! ## Beneficiaries -/

/-- `findOwnedCustomer`. -/
def findOwnedCustomer (customerId institutionId : Id) : Handler (Option Customer) :=
  findById .customer customerId fun c => c.institutionId = institutionId

/-- `beneficiarySchema`. -/
structure BeneficiaryBody where
  fullName : String
  relationship : String
  allocationPct : ℚ
  phone : Option String := none

def BeneficiaryBody.IsValid (body : BeneficiaryBody) : Prop :=
  2 ≤ jsLength body.fullName ∧ 1 ≤ jsLength body.relationship ∧ 0 ≤ body.allocationPct ∧
    body.allocationPct ≤ 100

instance BeneficiaryBody.decidableIsValid (body : BeneficiaryBody) : Decidable body.IsValid :=
  inferInstanceAs (Decidable (_ ∧ _ ∧ _ ∧ _))

/-- `POST /:id/beneficiaries`. -/
def addBeneficiary (toText : ℚ → String) (auth : Auth) (customerId : Id) (body : BeneficiaryBody) :
    Handler Id := do
  Proc.require body.IsValid .invalid
  let found ← findOwnedCustomer customerId auth.institutionId
  let _ ← Proc.orFail found (.http 404 "Customer not found")
  let existingBeneficiaries ← findMany .beneficiary fun _ b =>
    decide (b.customerId = customerId) && b.deletedAt.isNone
  let currentTotal := (existingBeneficiaries.map fun b => toNumber b.2.allocationPct).sum
  let newTotal := currentTotal + body.allocationPct
  Proc.require (newTotal ≤ 100)
    (.http 400 ("Total beneficiary allocation cannot exceed 100% (currently " ++
      toText currentTotal ++ "%, this would bring it to " ++ toText newTotal ++ "%)"))
  let beneficiary ← createAs { allocates := some (customerId, ofNumber body.allocationPct) }
    .beneficiary
    { customerId, fullName := body.fullName, relationship := body.relationship,
      allocationPct := ofNumber body.allocationPct, phone := body.phone }
  let _ ← create .auditLog (customerLog auth "customer.beneficiary_add" customerId)
  return beneficiary

/-- `DELETE /:id/beneficiaries/:beneficiaryId`. -/
def removeBeneficiary (auth : Auth) (now : DateTime) (customerId beneficiaryId : Id) :
    Handler Unit := do
  let found ← findOwnedCustomer customerId auth.institutionId
  let _ ← Proc.orFail found (.http 404 "Customer not found")
  let _ ← updateMany .beneficiary
    (fun id b => decide (id = beneficiaryId) && decide (b.customerId = customerId))
    fun b => { b with deletedAt := some now }

end NexusEfos
