/-
The import of customers: `POST /customers/commit` of `routes/migration.routes.ts`.

The file is validated as a whole, and is refused if any of its rows has an error.  Then each row
of the customers creates one or, if the phone number is taken and the answer says so, updates it,
and the customer carries the batch in either case; the rows of the other sheets follow for the
customers that were written.  A row that fails is reported and the rest goes on.
-/
import NexusEfos.Customers.Records
import NexusEfos.Loans.Import

namespace NexusEfos

/-! ## Rows of the sheets -/

structure CustomerRow where
  rowNumber : ℕ
  fullName : String
  phone : String
  email : String := ""
  segment : String
  branch : String
  address : String := ""
  idType : String := ""
  idNumber : String := ""
  riskRating : String := ""
  preferredChannel : String := ""
  preferredLanguage : String := ""
  pepStatus : String := "NOT_PEP"
  cddNotes : String := ""
  smsEnabled : String := ""
  emailEnabled : String := ""
  whatsappEnabled : String := ""
  marketingEnabled : String := ""
  transactionAlertsEnabled : String := ""
  statementDeliveryEnabled : String := ""

structure NokRow where
  rowNumber : ℕ
  customerPhone : String
  fullName : String
  relationship : String
  phone : String

/-- A number in a cell is read already, and absent if it is none. -/
structure BeneRow where
  rowNumber : ℕ
  customerPhone : String
  fullName : String
  relationship : String
  allocationPct : Option ℚ
  phone : String := ""

structure BoRow where
  rowNumber : ℕ
  customerPhone : String
  fullName : String
  ownershipPct : Option ℚ
  idType : String := ""

/-- A date in a cell is read already, and absent if it is none. -/
structure ConsentRow where
  rowNumber : ℕ
  customerPhone : String
  consentType : String
  granted : String
  grantedDate : String := ""
  grantedAt : Option DateTime := none

/-- What `parseWorkbook` finds. -/
structure CustomerWorkbook where
  customers : List CustomerRow
  nextOfKin : List NokRow := []
  beneficiaries : List BeneRow := []
  beneficialOwners : List BoRow := []
  consentRecords : List ConsentRow := []

/-! ## Validation -/

def segments : List (String × CustomerSegment) :=
  [("INDIVIDUAL", .individual), ("BUSINESS", .business), ("FARMER_GROUP", .farmerGroup),
    ("WOMENS_GROUP", .womensGroup), ("YOUTH", .youth), ("CORPORATE", .corporate)]

def idTypes : List String := ["NATIONAL_ID", "PASSPORT", "DRIVERS_LICENCE", "VOTER_ID"]

def riskRatings : List (String × RiskRating) := [("LOW", .low), ("MEDIUM", .medium), ("HIGH", .high)]

def preferredChannels : List String := ["SMS", "EMAIL", "WHATSAPP", "CALL"]

def pepStatuses : List (String × PepStatus) :=
  [("NOT_PEP", .notPep), ("DOMESTIC_PEP", .domesticPep), ("FOREIGN_PEP", .foreignPep),
    ("PEP_ASSOCIATE", .pepAssociate)]

def consentTypes : List String :=
  ["DATA_PROCESSING", "MARKETING", "SMS", "EMAIL", "PUSH_NOTIFICATION", "BIOMETRIC", "CREDIT_BUREAU",
    "INFORMATION_SHARING", "DIGITAL_SIGNATURE", "OTHER"]

/-- A cell that is to hold one of some words. -/
def errorUnlessOneOf (label : String) (words : List String) (cell : String) : List String :=
  errorUnless (cell ∈ words) (label ++ " must be one of: " ++ ", ".intercalate words)

/-- The same for a cell that may be blank. -/
def errorUnlessBlankOrOneOf (label : String) (words : List String) (cell : String) : List String :=
  if cell = "" then [] else errorUnlessOneOf label words cell

/-- `/^[^\s@]+@[^\s@]+\.[^\s@]+$/` -/
def isImportEmail (email : String) : Bool :=
  match email.toList.splitOn '@' with
  | [name, domain] =>
    !name.isEmpty && domain.tail.dropLast.contains '.' && email.toList.all fun c => !isJsSpace c
  | _ => false

/-- What is wrong with a phone number that has to be there. -/
def requiredPhoneErrors (phone : String) : List String :=
  if phone = "" then ["Phone is required"] else (phoneError phone).toList

/-- What is wrong with a phone number that has to be that of a row of the customers. -/
def parentPhoneErrors (knownPhones : List String) (phone : String) : List String :=
  if phone = "" then ["Customer Phone is required"]
  else if phone ∈ knownPhones then []
  else
    match phoneError phone with
    | some pe => ["Customer Phone: " ++ pe]
    | none => ["Customer Phone \"" ++ phone ++ "\" does not match any row in the Customers sheet"]

/-- The switches of a row, with the labels of their columns. -/
def CustomerRow.switches (row : CustomerRow) : List (String × String) :=
  [("SMS Enabled", row.smsEnabled), ("Email Enabled", row.emailEnabled),
    ("WhatsApp Enabled", row.whatsappEnabled), ("Marketing Enabled", row.marketingEnabled),
    ("Transaction Alerts Enabled", row.transactionAlertsEnabled),
    ("Statement Delivery Enabled", row.statementDeliveryEnabled)]

/-- What is wrong with a row of the customers, given the phone numbers of the rows before it and
the branch it names. -/
def CustomerRow.errors (row : CustomerRow) (seenPhones : List String) (branchId : Option Id) :
    List String :=
  errorUnless (row.fullName ≠ "") "Full Name is required" ++
  requiredPhoneErrors row.phone ++
  errorUnless (row.phone = "" ∨ row.phone ∉ seenPhones)
    "Duplicate phone number within the Customers sheet" ++
  errorUnlessOneOf "Segment" (segments.map Prod.fst) row.segment ++
  (if row.branch = "" then
    ["Branch is required — there is no valid \"unassigned\" state for a customer"]
  else errorUnless (branchId.isSome = true) ("Branch \"" ++ row.branch ++
    "\" does not match any existing branch name — check the Branches page for exact spelling")) ++
  errorUnlessBlankOrOneOf "ID Type" idTypes row.idType ++
  errorUnlessBlankOrOneOf "Risk Rating" (riskRatings.map Prod.fst) row.riskRating ++
  errorUnlessBlankOrOneOf "Preferred Channel" preferredChannels row.preferredChannel ++
  errorUnlessOneOf "PEP Status" (pepStatuses.map Prod.fst) row.pepStatus ++
  errorUnless (row.email = "" ∨ isImportEmail row.email = true) "Email is not a valid format" ++
  row.switches.flatMap fun e =>
    errorUnless (e.2 ∈ ["", "Y", "N"]) (e.1 ++ " must be Y, N, or left blank")

/-- The validation of a row of the customers: one with errors, one whose phone number is that of
an existing customer, or a valid one. -/
structure CustomerResult where
  data : CustomerRow
  errors : List String
  existingCustomerId : Option Id
  branchId : Option Id

/-- Row by row, with the phone numbers of those before. -/
def validateCustomers (existingByPhone branchIdByName : String → Option Id) :
    List String → List CustomerRow → List CustomerResult
  | _, [] => []
  | seenPhones, row :: rows =>
    let branchId := branchIdByName row.branch
    { data := row, errors := row.errors seenPhones branchId,
      existingCustomerId := existingByPhone row.phone, branchId } ::
        validateCustomers existingByPhone branchIdByName (row.phone :: seenPhones) rows

def NokRow.errors (row : NokRow) (knownPhones : List String) : List String :=
  parentPhoneErrors knownPhones row.customerPhone ++
  errorUnless (row.fullName ≠ "") "Full Name is required" ++
  errorUnless (row.relationship ≠ "") "Relationship is required" ++
  requiredPhoneErrors row.phone

/-- A number above 0 and not above 100. -/
def isPercentage (x : Option ℚ) : Prop := ∃ pct ∈ x, 0 < pct ∧ pct ≤ 100

instance (x : Option ℚ) : Decidable (isPercentage x) :=
  inferInstanceAs (Decidable (∃ pct ∈ x, _))

/-- `beneByCustomer`: what the rows of the file give away for a customer. -/
def beneByCustomer (rows : List BeneRow) (phone : String) : ℚ :=
  ((rows.filter fun row => row.customerPhone = phone).map fun row => row.allocationPct.getD 0).sum

def BeneRow.errors (toText : ℚ → String) (rows : List BeneRow) (knownPhones : List String)
    (row : BeneRow) : List String :=
  parentPhoneErrors knownPhones row.customerPhone ++
  errorUnless (row.fullName ≠ "") "Full Name is required" ++
  errorUnless (row.relationship ≠ "") "Relationship is required" ++
  errorUnless (isPercentage row.allocationPct) "Allocation % must be a number between 0 and 100" ++
  errorUnless (row.customerPhone = "" ∨ beneByCustomer rows row.customerPhone ≤ 100)
    ("Total allocation for this customer across all beneficiary rows exceeds 100% (currently " ++
      toText (beneByCustomer rows row.customerPhone) ++ "%)")

def BoRow.errors (row : BoRow) (knownPhones : List String) : List String :=
  parentPhoneErrors knownPhones row.customerPhone ++
  errorUnless (row.fullName ≠ "") "Full Name is required" ++
  errorUnless (isPercentage row.ownershipPct) "Ownership % must be a number between 0 and 100" ++
  errorUnlessBlankOrOneOf "ID Type" idTypes row.idType

def ConsentRow.errors (row : ConsentRow) (knownPhones : List String) : List String :=
  parentPhoneErrors knownPhones row.customerPhone ++
  errorUnlessOneOf "Consent Type" consentTypes row.consentType ++
  errorUnless (row.granted = "Y" ∨ row.granted = "N") "Granted must be Y or N" ++
  errorUnless (row.grantedDate = "" ∨ row.grantedAt.isSome = true)
    ("Granted Date \"" ++ row.grantedDate ++ "\" is not a recognizable date")

/-- `validateAll`: the customers with their errors, and the errors of the other sheets.
`trimLower` is `s.trim().toLowerCase()`, and `toText` writes a number. -/
def validateAll (trimLower : String → String) (toText : ℚ → String) (institutionId : Id)
    (parsed : CustomerWorkbook) : Handler (List CustomerResult × List (List String)) := do
  let phones := parsed.customers.map CustomerRow.phone
  let existingCustomers ← findMany .customer fun _ c =>
    decide (c.institutionId = institutionId) && decide (c.profile.phone ∈ phones) &&
      decide (c.profile.phone ≠ "")
  let branches ← findMany .branch fun _ b => b.institutionId = institutionId
  let existingByPhone := fun phone =>
    (existingCustomers.find? fun c => c.2.profile.phone = phone).map Prod.fst
  let branchIdByName := fun name =>
    (branches.reverse.find? fun b => trimLower b.2.name = trimLower name).map Prod.fst
  let customerResults := validateCustomers existingByPhone branchIdByName [] parsed.customers
  return (customerResults,
    parsed.nextOfKin.map (fun row => row.errors phones) ++
    parsed.beneficiaries.map (fun row => row.errors toText parsed.beneficiaries phones) ++
    parsed.beneficialOwners.map (fun row => row.errors phones) ++
    parsed.consentRecords.map fun row => row.errors phones)

/-! ## Commit -/

/-- A cell that is blank is no value. -/
def cell? (cell : String) : Option String := if cell = "" then none else some cell

/-- A switch that is blank leaves a value as it is. -/
def switchOr (cell : String) (value : Bool) : Bool := if cell = "" then value else cell = "Y"

def CustomerRow.risk (row : CustomerRow) : Option RiskRating := riskRatings.lookup row.riskRating

def CustomerRow.pep (row : CustomerRow) : PepStatus := (pepStatuses.lookup row.pepStatus).getD .notPep

/-- `commonData`. -/
def CustomerRow.commonData (row : CustomerRow) (branchId : Option Id) (c : Customer) : Customer :=
  { c with
    profile :=
      { c.profile with
        fullName := row.fullName, email := cell? row.email,
        segment := (segments.lookup row.segment).getD .individual, branchId,
        address := cell? row.address, idType := cell? row.idType, idNumber := cell? row.idNumber,
        riskRating := row.risk, preferredChannel := cell? row.preferredChannel,
        preferredLanguage := cell? row.preferredLanguage,
        smsEnabled := switchOr row.smsEnabled c.profile.smsEnabled,
        emailEnabled := switchOr row.emailEnabled c.profile.emailEnabled,
        whatsappEnabled := switchOr row.whatsappEnabled c.profile.whatsappEnabled,
        marketingEnabled := switchOr row.marketingEnabled c.profile.marketingEnabled,
        transactionAlertsEnabled :=
          switchOr row.transactionAlertsEnabled c.profile.transactionAlertsEnabled,
        statementDeliveryEnabled :=
          switchOr row.statementDeliveryEnabled c.profile.statementDeliveryEnabled }
    pepStatus := row.pep, cddNotes := cell? row.cddNotes }

/-- The new customer of a row. -/
def CustomerRow.customer (row : CustomerRow) (institutionId batchId : Id) (customerNumber : String)
    (branchId : Option Id) : Customer :=
  row.commonData branchId
    { institutionId, customerNumber := some customerNumber, profile := { phone := row.phone },
      status := .active, kycStatus := .verified, importBatchId := some batchId }

/-- The update of a customer from a row. -/
def updateFromRow (batchId : Id) (row : CustomerRow) (branchId : Option Id) (customerId : Id) :
    Handler Id := do
  let _ ← updateAs { risk := some ⟨some customerId, some row.pep, row.risk⟩,
                     importsCustomer := some (.update batchId customerId) } .customer
    customerId fun c => { row.commonData branchId c with importBatchId := some batchId }
  return customerId

/-- The customer of a row is updated, or created.  If someone else has just created it, it is
updated after all. -/
def importCustomer (auth : Auth) (batchId : Id) (customerNumber : String) (r : CustomerResult) :
    Handler Id :=
  match r.existingCustomerId with
  | some customerId => updateFromRow batchId r.data r.branchId customerId
  | none => do
    let created ← Proc.outcome (createCustomerRowAs
      { risk := some ⟨none, some r.data.pep, r.data.risk⟩,
        importsCustomer := some (.create batchId) }
      (r.data.customer auth.institutionId batchId customerNumber r.branchId))
    match created with
    | .ok customerId => return customerId
    | .error e =>
      Proc.require (e = uniqueViolation) e
      let existing ← findFirst .customer fun _ c =>
        decide (c.institutionId = auth.institutionId) && decide (c.profile.phone = r.data.phone)
      let existing ← Proc.orFail existing recordNotFound
      updateFromRow batchId r.data r.branchId existing.1

/-- What is done about a row whose phone number is taken. -/
inductive DuplicateResolution
  | skip | update
  deriving DecidableEq

/-- The row is skipped: its phone number is taken and it is not to update. -/
def CustomerResult.isSkipped (resolutions : String → Option DuplicateResolution)
    (r : CustomerResult) : Bool :=
  r.existingCustomerId.isSome && decide (resolutions r.data.phone ≠ some .update)

/-- A row that fails is caught. -/
def importCustomerRow (auth : Auth) (batchId : Id) (customerNumber : CustomerRow → String)
    (resolutions : String → Option DuplicateResolution) (r : CustomerResult) :
    Handler (Option (Except (ℕ × Failure) (String × Id))) := do
  if r.isSkipped resolutions then return none
  else
    let outcome ← (importCustomer auth batchId (customerNumber r.data) r).outcome
    return some (match outcome with
      | .ok customerId => .ok (r.data.phone, customerId)
      | .error e => .error (r.data.rowNumber, e))

/-- Import a row of another sheet for its customer, if that was written. -/
def importLinkedRow {α : Type} (customerIdByPhone : List (String × Id)) (customerPhone : α → String)
    (rowNumber : α → ℕ) (createRow : Id → α → Handler Id) (row : α) :
    Handler (Option (ℕ × Failure)) :=
  match customerIdByPhone.lookup (customerPhone row) with
  | none => return none
  | some customerId => do
    let outcome ← (createRow customerId row).outcome
    return match outcome with
      | .ok _ => none
      | .error e => some (rowNumber row, e)

def createImportedBeneficiary (customerId : Id) (row : BeneRow) : Handler Id :=
  createAs { allocates := some (customerId, ofNumber (row.allocationPct.getD 0)) } .beneficiary
    { customerId, fullName := row.fullName, relationship := row.relationship,
      allocationPct := ofNumber (row.allocationPct.getD 0), phone := cell? row.phone }

/-- What the import of a file comes to. -/
structure CustomerImportOutcome where
  successRows : ℕ
  skipped : ℕ
  rowErrors : List (ℕ × Failure)

/-- `POST /customers/commit`. -/
def commitCustomers (trimLower : String → String) (toText : ℚ → String) (auth : Auth)
    (customerNumber : CustomerRow → String) (resolutions : String → Option DuplicateResolution)
    (parsed : CustomerWorkbook) (now : DateTime) : Handler CustomerImportOutcome := do
  let (customerResults, linkedErrors) ← validateAll trimLower toText auth.institutionId parsed
  requireNoErrors (customerResults.map CustomerResult.errors ++ linkedErrors)
  let batchId ← create .importBatch
    { institutionId := auth.institutionId, entityType := .customer,
      totalRows := customerResults.length, createdById := auth.userId }
  let outcomes ← Proc.mapEach customerResults
    (importCustomerRow auth batchId customerNumber resolutions)
  let written := outcomes.filterMap id
  let customerIdByPhone := written.filterMap Except.toOption
  let kinErrors ← Proc.mapEach parsed.nextOfKin
    (importLinkedRow customerIdByPhone NokRow.customerPhone NokRow.rowNumber
      fun customerId _ => create .nextOfKin (⟨customerId⟩ : CustomerReference))
  let beneficiaryErrors ← Proc.mapEach parsed.beneficiaries
    (importLinkedRow customerIdByPhone BeneRow.customerPhone BeneRow.rowNumber
      createImportedBeneficiary)
  let ownerErrors ← Proc.mapEach parsed.beneficialOwners
    (importLinkedRow customerIdByPhone BoRow.customerPhone BoRow.rowNumber
      fun customerId _ => create .beneficialOwner (⟨customerId⟩ : CustomerReference))
  let consentErrors ← Proc.mapEach parsed.consentRecords
    (importLinkedRow customerIdByPhone ConsentRow.customerPhone ConsentRow.rowNumber
      fun customerId _ => create .customerConsent (⟨customerId⟩ : CustomerReference))
  let rowErrors := (written.filterMap fun r => match r with
      | .ok _ => none
      | .error e => some e) ++
    (kinErrors ++ beneficiaryErrors ++ ownerErrors ++ consentErrors).filterMap id
  let _ ← update .importBatch batchId fun b =>
    { b with status := if rowErrors.isEmpty then .committed else .failed,
             successRows := customerIdByPhone.length, errorRows := rowErrors.length,
             committedAt := some now }
  let _ ← create .auditLog
    { institutionId := auth.institutionId, userId := some auth.userId,
      action := "migration.customers_commit", resource := "import_batch",
      resourceId := some batchId }
  return { successRows := customerIdByPhone.length,
           skipped := (outcomes.filter Option.isNone).length, rowErrors }

/-! ## What its statements do -/

theorem isPercentage_of_errors_eq_nil {toText : ℚ → String} {rows : List BeneRow}
    {knownPhones : List String} {row : BeneRow} (h : row.errors toText rows knownPhones = []) :
    isPercentage row.allocationPct := by
  unfold BeneRow.errors at h
  obtain ⟨h, -⟩ := List.append_eq_nil_iff.mp h
  obtain ⟨-, h⟩ := List.append_eq_nil_iff.mp h
  by_contra hnot
  rw [errorUnless, if_neg hnot] at h
  exact List.cons_ne_nil _ _ h

section Statements

variable {D : Access → Db → Db → Prop}

/-- What comes after the validation may use that the beneficiaries are validated. -/
theorem everyStep_validateAll_bind {α : Type} (hread : ∀ s, D {} s s)
    {trimLower : String → String} {toText : ℚ → String} {institutionId : Id}
    {parsed : CustomerWorkbook} {f : List CustomerResult × List (List String) → Handler α}
    (hf : ∀ results linkedErrors,
      (∀ row ∈ parsed.beneficiaries, row.errors toText parsed.beneficiaries
        (parsed.customers.map CustomerRow.phone) ∈ linkedErrors) →
      (f (results, linkedErrors)).EveryStep D) :
    (validateAll trimLower toText institutionId parsed >>= f).EveryStep D := by
  refine ⟨hread, fun existingCustomers => ⟨hread, fun branches => ?_⟩⟩
  apply hf
  intro row hrow
  simp only [List.mem_append, List.mem_map]
  exact .inl (.inl (.inr ⟨row, hrow, rfl⟩))

/-- The rows of a sheet. -/
theorem everyStep_importLinkedRows {α : Type} (customerIdByPhone : List (String × Id))
    (customerPhone : α → String) (rowNumber : α → ℕ) {createRow : Id → α → Handler Id}
    {rows : List α} (h : ∀ customerId, ∀ row ∈ rows, (createRow customerId row).EveryStep D) :
    (Proc.mapEach rows (importLinkedRow customerIdByPhone customerPhone rowNumber
      createRow)).EveryStep D := by
  apply Proc.EveryStep.mapEach
  intro row hrow
  unfold importLinkedRow
  split
  · trivial
  · exact (h _ row hrow).outcome.bind fun _ => trivial

/-- A row of the customers updates one or creates one. -/
theorem everyStep_importCustomer (hread : ∀ s, D {} s s) {auth : Auth} {batchId : Id}
    {customerNumber : String} {r : CustomerResult}
    (hcreate : (createCustomerRowAs
      { risk := some ⟨none, some r.data.pep, r.data.risk⟩,
        importsCustomer := some (.create batchId) }
      (r.data.customer auth.institutionId batchId customerNumber r.branchId)).EveryStep D)
    (hupdate : ∀ customerId, (updateFromRow batchId r.data r.branchId customerId).EveryStep D) :
    (importCustomer auth batchId customerNumber r).EveryStep D := by
  unfold importCustomer
  split
  · exact hupdate _
  · apply Proc.EveryStep.bind hcreate.outcome
    intro created
    split
    · trivial
    · apply (Proc.EveryStep.require _ _).bind
      intro _
      apply Proc.EveryStep.bind
      · exact ⟨hread, fun _ => trivial⟩
      intro existing
      apply (Proc.EveryStep.orFail _ _).bind
      exact fun _ => hupdate _

/-- What the rows of the customers do, the beneficiaries and the rows that are only created, the
whole file does. -/
theorem everyStep_commitCustomers (hread : ∀ s, D {} s s) {trimLower : String → String}
    {toText : ℚ → String} {auth : Auth} {customerNumber : CustomerRow → String}
    {resolutions : String → Option DuplicateResolution} {parsed : CustomerWorkbook}
    {now : DateTime}
    (hcustomer : ∀ batchId number r, (importCustomer auth batchId number r).EveryStep D)
    (hbatch : ∀ id f, (update .importBatch id f).EveryStep D)
    (hbeneficiary : ∀ customerId row, isPercentage row.allocationPct →
      (createImportedBeneficiary customerId row).EveryStep D)
    (hcreate : ∀ (m : Model) (row : Row m),
      m ∈ [Model.importBatch, .nextOfKin, .beneficialOwner, .customerConsent, .auditLog] →
        (create m row).EveryStep D) :
    (commitCustomers trimLower toText auth customerNumber resolutions parsed now).EveryStep D := by
  apply everyStep_validateAll_bind hread
  intro results linkedErrors hmem
  apply Proc.EveryStep.require_bind
  intro hvalid
  apply (hcreate _ _ (by decide)).bind
  intro batchId
  apply Proc.EveryStep.bind
  · apply Proc.EveryStep.mapEach
    intro r _
    unfold importCustomerRow
    split
    · trivial
    · exact (hcustomer batchId _ r).outcome.bind fun _ => trivial
  · intro outcomes
    have hreference : ∀ {α : Type} (customerPhone : α → String) (rowNumber : α → ℕ) (rows : List α)
        (m : Model) (row : Id → Row m), m ∈ [Model.nextOfKin, .beneficialOwner, .customerConsent] →
        (Proc.mapEach rows (importLinkedRow ((outcomes.filterMap id).filterMap Except.toOption)
          customerPhone rowNumber fun customerId _ => create m (row customerId))).EveryStep D := by
      intro α customerPhone rowNumber rows m row hm
      apply everyStep_importLinkedRows
      intro customerId _ _
      exact hcreate m _ (List.mem_cons_of_mem _ (List.mem_append_left [Model.auditLog] hm))
    refine (hreference _ _ _ _ _ (by decide)).bind fun _ => ?_
    apply Proc.EveryStep.bind
    · apply everyStep_importLinkedRows
      intro customerId row hrow
      have hnoerrors := hvalid _ (List.mem_append_right _ (hmem row hrow))
      exact hbeneficiary customerId row (isPercentage_of_errors_eq_nil hnoerrors)
    · intro _
      refine (hreference _ _ _ _ _ (by decide)).bind fun _ => ?_
      refine (hreference _ _ _ _ _ (by decide)).bind fun _ => ?_
      apply (hbatch _ _).bind
      intro _
      exact (hcreate _ _ (by decide)).bind fun _ => trivial

end Statements

end NexusEfos
