/-
Edits that expect a version: `lib/optimisticLock.ts` and the five endpoints that use it.

The database client counts the updates of every row in its `versionNo`.  An edit that was made
for an older version than the present one is refused; but the version is compared in one statement
and the edit written in another, and an edit of a role that sends only permissions updates no row
of the role.  Of the edits that expect one version of a record at most one is applied, as long as
every edit updates the record itself and writes while the record still has the version.
-/
import NexusEfos.Approvals.RuleEdits
import NexusEfos.Library.History

namespace NexusEfos

/-! ## Versions -/

/-- The database with the version numbers of its rows. -/
structure VersionedDb where
  db : Db
  versionNo : Model → Id → ℤ := fun _ _ => 1

namespace VersionedDb

def setDb (db : Db) (s : VersionedDb) : VersionedDb := { s with db }

/-- What `update` does to a row, with the middleware of the client: the version goes up. -/
def update (s : VersionedDb) (m : Model) (id : Id) (data : Row m → Row m) : VersionedDb where
  db := s.db.modify m id data
  versionNo := fun m' id' => s.versionNo m' id' + if m' = m ∧ id' = id then 1 else 0

end VersionedDb

abbrev VersionedHandler (α : Type) := Proc Access VersionedDb Failure α

/-- Code that updates no row of the five kinds. -/
def unversioned {α : Type} (p : Handler α) : VersionedHandler α :=
  p.onPart VersionedDb.db VersionedDb.setDb

/-- `update`, under a label.  `taken` says that the values of a unique column are taken. -/
def updateVersioned (lab : Access) (m : Model) (id : Id) (data : Row m → Row m)
    (taken : Db → Row m → Bool := fun _ _ => false) : VersionedHandler (Row m) :=
  Proc.attempt lab fun s =>
    match s.db.find? m id with
    | some row =>
      if taken s.db (data row) = true then (.error uniqueViolation, s)
      else (.ok (data row), s.update m id data)
    | none => (.error recordNotFound, s)

/-- `checkVersion` of `lib/optimisticLock.ts`. -/
def checkVersionNo (m : Model) (id : Id) (expectedVersion : Option ℤ) : VersionedHandler Unit :=
  match expectedVersion with
  | none => pure ()
  | some expected => do
    let current ← Proc.exec {} fun s =>
      ((s.db.find? m id).map fun _ => s.versionNo m id, s)
    Proc.require (∀ version ∈ current, version = expected)
      (.http 409 "This record was changed by someone else since you loaded it")

/-- The label of an edit. -/
def editLabel (m : Model) (id : Id) (expectedVersion : Option ℤ) (ownRow : Bool) : Access :=
  { applies := expectedVersion.map fun version => ⟨m, id, version, ownRow⟩ }

/-! ## The endpoints -/

section Endpoints

variable (isEmail : String → Bool) (auth : Auth) (id : Id) (expectedVersion : Option ℤ)

/-- `PATCH /:id` of the customers. -/
def patchCustomer (patch : CustomerProfilePatch) : VersionedHandler (Option Id) := do
  Proc.require (patch.IsValid isEmail) .invalid
  let found ← unversioned (findById .customer id fun c => c.institutionId = auth.institutionId)
  let existing ← Proc.orFail found (.http 404 "Customer not found")
  unversioned (assertNotLocked existing.status)
  checkVersionNo .customer id expectedVersion
  if patch.touchesCriticalField = true ∧ existing.status ∈ [AccountStatus.active, .verified] then
    let approval ← unversioned (create .approvalRequest
      { institutionId := auth.institutionId, type := .customerProfileUpdate,
        targetType := "Customer", targetId := id, payload := { profile := patch },
        reason := some "Critical field change on an active/verified customer",
        requestedById := auth.userId })
    let _ ← updateVersioned (editLabel .customer id expectedVersion true) .customer id fun c =>
      { c with status := .pendingApproval }
    let _ ← unversioned (create .auditLog (customerLog auth "customer.update_requested" id))
    return some approval
  else
    let _ ← updateVersioned (editLabel .customer id expectedVersion true) .customer id fun c =>
      { c with profile := patch.apply c.profile }
    let _ ← unversioned (create .auditLog (customerLog auth "customer.update" id))
    return none

/-- `updateSchema` of the employees: a field is absent when the request left it out. -/
structure EmployeePatch where
  fullName : Option String := none
  email : Option String := none
  branchId : Option (Option Id) := none
  employeeNumber : Option (Option String) := none
  employmentType : Option EmploymentType := none
  departmentId : Option (Option Id) := none
  division : Option (Option String) := none
  positionId : Option (Option Id) := none
  grade : Option (Option String) := none
  employmentDate : Option (Option DateTime) := none
  confirmationDate : Option (Option DateTime) := none
  reportingManagerId : Option (Option Id) := none
  bankName : Option (Option String) := none
  bankAccountNumber : Option (Option String) := none
  bankAccountName : Option (Option String) := none

def EmployeePatch.IsValid (patch : EmployeePatch) : Prop :=
  (∀ name ∈ patch.fullName, 2 ≤ jsLength name) ∧ ∀ email ∈ patch.email, isEmail email = true

instance (patch : EmployeePatch) : Decidable (patch.IsValid isEmail) :=
  inferInstanceAs (Decidable ((∀ name ∈ patch.fullName, 2 ≤ jsLength name) ∧
    ∀ email ∈ patch.email, isEmail email = true))

def EmployeePatch.apply (patch : EmployeePatch) (e : Employee) : Employee :=
  { e with
    fullName := patch.fullName.getD e.fullName
    email := patch.email.getD e.email
    branchId := patch.branchId.getD e.branchId
    employeeNumber := patch.employeeNumber.getD e.employeeNumber
    employmentType := patch.employmentType.getD e.employmentType
    departmentId := patch.departmentId.getD e.departmentId
    division := patch.division.getD e.division
    positionId := patch.positionId.getD e.positionId
    grade := patch.grade.getD e.grade
    employmentDate := patch.employmentDate.getD e.employmentDate
    confirmationDate := patch.confirmationDate.getD e.confirmationDate
    reportingManagerId := patch.reportingManagerId.getD e.reportingManagerId
    bankName := patch.bankName.getD e.bankName
    bankAccountNumber := patch.bankAccountNumber.getD e.bankAccountNumber
    bankAccountName := patch.bankAccountName.getD e.bankAccountName }

/-- Another employee of the institution has the address or the number. -/
def employeeTaken (s : Db) (e : Employee) : Bool :=
  (s.table .employee).entries.any fun other => other.1 ≠ id ∧
    other.2.institutionId = e.institutionId ∧ (other.2.email = e.email ∨
      e.employeeNumber.isSome = true ∧ other.2.employeeNumber = e.employeeNumber)

/-- `PATCH /:id` of the employees. -/
def patchEmployee (patch : EmployeePatch) : VersionedHandler Employee := do
  Proc.require (patch.IsValid isEmail) .invalid
  let found ← unversioned (findById .employee id fun e => e.institutionId = auth.institutionId)
  let _ ← Proc.orFail found (.http 404 "Employee not found")
  checkVersionNo .employee id expectedVersion
  Proc.require (patch.reportingManagerId ≠ some (some id))
    (.http 400 "An employee cannot be their own reporting manager")
  let employee ← updateVersioned (editLabel .employee id expectedVersion true) .employee id
    patch.apply (employeeTaken id)
  let _ ← unversioned (create .auditLog
    { institutionId := auth.institutionId, userId := some auth.userId,
      action := "employee.update", resource := "employee", resourceId := some id })
  return employee

/-- `updateBranchSchema`. -/
structure BranchPatch where
  name : Option String := none
  code : Option String := none
  region : Option (Option String) := none

def BranchPatch.IsValid (patch : BranchPatch) : Prop :=
  (∀ name ∈ patch.name, 1 ≤ jsLength name) ∧ ∀ code ∈ patch.code, 1 ≤ jsLength code

instance (patch : BranchPatch) : Decidable patch.IsValid :=
  inferInstanceAs (Decidable ((∀ name ∈ patch.name, 1 ≤ jsLength name) ∧
    ∀ code ∈ patch.code, 1 ≤ jsLength code))

def BranchPatch.apply (patch : BranchPatch) (b : Branch) : Branch :=
  { b with
    name := patch.name.getD b.name
    code := patch.code.getD b.code
    region := patch.region.getD b.region }

/-- Another branch of the institution has the code. -/
def branchTaken (s : Db) (b : Branch) : Bool :=
  (s.table .branch).entries.any fun other => other.1 ≠ id ∧
    other.2.institutionId = b.institutionId ∧ other.2.code = b.code

/-- `PATCH /branches/:id`. -/
def patchBranch (patch : BranchPatch) : VersionedHandler Branch := do
  Proc.require patch.IsValid .invalid
  let found ← unversioned (findById .branch id fun b => b.institutionId = auth.institutionId)
  let _ ← Proc.orFail found (.http 404 "Branch not found")
  checkVersionNo .branch id expectedVersion
  let branch ← updateVersioned (editLabel .branch id expectedVersion true) .branch id
    patch.apply (branchTaken id)
  let _ ← unversioned (create .auditLog
    { institutionId := auth.institutionId, userId := some auth.userId,
      action := "branch.update", resource := "branch", resourceId := some id })
  return branch

/-- `PATCH /:id` of the business rules. -/
def patchBusinessRule (patch : RulePatch) : VersionedHandler BusinessRule := do
  Proc.require patch.IsValid .invalid
  let found ← unversioned (findById .businessRule id fun r =>
    r.institutionId = auth.institutionId)
  let existing ← Proc.orFail found (.http 404 "Rule not found")
  Proc.require (existing.status = .draft)
    (.http 400 "Only DRAFT rules can be edited — retire this rule and create a new one instead")
  checkVersionNo .businessRule id expectedVersion
  updateVersioned (editLabel .businessRule id expectedVersion true) .businessRule id patch.apply

/-- `updateRoleSchema`. -/
structure RolePatch where
  description : Option String := none
  permissionCodes : Option (List String) := none
  requireMfa : Option Bool := none

/-- `rolePermission.deleteMany`. -/
def deleteRolePermissions (roleId : Id) : Handler Unit :=
  Proc.exec {} fun s =>
    ((), s.setTable .rolePermission ((s.table .rolePermission).filter fun _ x => x.roleId ≠ roleId))

/-- `rolePermission.createMany`, with `skipDuplicates`. -/
def createRolePermissions (roleId : Id) (permissionIds : List Id) : Handler Unit :=
  Proc.exec {} fun s =>
    ((), (permissionIds.filter fun permissionId => ¬ ∃ x ∈ (s.table .rolePermission).values,
      x.roleId = roleId ∧ x.permissionId = permissionId).foldl
        (fun s permissionId => s.insert .rolePermission ⟨roleId, permissionId⟩) s)

/-- The transaction of an edit of a role. -/
def patchRoleInTx (roleId : Id) (patch : RolePatch) : VersionedHandler Unit := do
  patch.description.forM fun description => do
    let _ ← updateVersioned {} .role roleId fun r => { r with description := some description }
  patch.requireMfa.forM fun requireMfa => do
    let _ ← updateVersioned {} .role roleId fun r => { r with requireMfa }
  patch.permissionCodes.forM fun codes => do
    let permissions ← unversioned (findMany .permission fun _ p => p.code ∈ codes)
    unversioned (deleteRolePermissions roleId)
    unversioned (createRolePermissions roleId (permissions.map Prod.fst))

/-- An edit of a role that sends nothing changes nothing. -/
def RolePatch.label (patch : RolePatch) : Access :=
  if patch.description.isSome || patch.requireMfa.isSome then editLabel .role id expectedVersion true
  else if patch.permissionCodes.isSome then editLabel .role id expectedVersion false
  else {}

/-- `PATCH /:id` of the roles. -/
def patchRole (patch : RolePatch) : VersionedHandler (Option Role) := do
  let found ← unversioned (findById .role id fun r => r.institutionId = some auth.institutionId)
  let _ ← Proc.orFail found (.http 404 "Role not found")
  checkVersionNo .role id expectedVersion
  Proc.transaction (patch.label id expectedVersion) (patchRoleInTx id patch)
  let _ ← unversioned (create .auditLog
    { institutionId := auth.institutionId, userId := some auth.userId, action := "role.update",
      resource := "role", resourceId := some id })
  unversioned (findUnique .role id)

end Endpoints

/-! ## Versions go up -/

namespace VersionedDb

/-- No version goes down. -/
def Ages (s t : VersionedDb) : Prop := ∀ m id, s.versionNo m id ≤ t.versionNo m id

theorem Ages.refl (s : VersionedDb) : s.Ages s := fun _ _ => le_rfl

theorem Ages.trans {s t u : VersionedDb} (h : s.Ages t) (h' : t.Ages u) : s.Ages u :=
  fun m id => (h m id).trans (h' m id)

theorem ages_update (s : VersionedDb) (m : Model) (id : Id) (data : Row m → Row m) :
    s.Ages (s.update m id data) := by
  intro m' id'
  show s.versionNo m' id' ≤ s.versionNo m' id' + if m' = m ∧ id' = id then 1 else 0
  split
  · omega
  · omega

end VersionedDb

open VersionedDb

section Ages

variable {α : Type} {auth : Auth} {id : Id} {expectedVersion : Option ℤ} {isEmail : String → Bool}

theorem ages_unversioned (p : Handler α) : (unversioned p).Every Ages :=
  Proc.every_onPart (fun _ _ _ _ => le_rfl) p

theorem ages_updateVersioned (lab : Access) (m : Model) (data : Row m → Row m)
    (taken : Db → Row m → Bool) : (updateVersioned lab m id data taken).Every Ages := by
  refine ⟨fun s => ?_, fun _ => trivial⟩
  dsimp only
  split
  · split
    · exact .refl s
    · exact s.ages_update m id data
  · exact .refl s

theorem ages_checkVersionNo (m : Model) : (checkVersionNo m id expectedVersion).Every Ages := by
  cases expectedVersion with
  | none => trivial
  | some expected => exact Proc.Every.bind ⟨fun s => .refl s, fun _ => trivial⟩ fun _ => .require _ _

theorem ages_patchCustomer (patch : CustomerProfilePatch) :
    (patchCustomer isEmail auth id expectedVersion patch).Every Ages := by
  refine (Proc.Every.require _ _).bind fun _ => (ages_unversioned _).bind fun found => ?_
  refine (Proc.Every.orFail _ _).bind fun existing => (ages_unversioned _).bind fun _ => ?_
  refine (ages_checkVersionNo _).bind fun _ => ?_
  split
  · refine (ages_unversioned _).bind fun approval => ?_
    refine (ages_updateVersioned _ _ _ _).bind fun _ => ?_
    exact (ages_unversioned _).bind fun _ => trivial
  · refine (ages_updateVersioned _ _ _ _).bind fun _ => ?_
    exact (ages_unversioned _).bind fun _ => trivial

theorem ages_patchEmployee (patch : EmployeePatch) :
    (patchEmployee isEmail auth id expectedVersion patch).Every Ages := by
  refine (Proc.Every.require _ _).bind fun _ => (ages_unversioned _).bind fun found => ?_
  refine (Proc.Every.orFail _ _).bind fun _ => (ages_checkVersionNo _).bind fun _ => ?_
  refine (Proc.Every.require _ _).bind fun _ => ?_
  refine (ages_updateVersioned _ _ _ _).bind fun _ => ?_
  exact (ages_unversioned _).bind fun _ => trivial

theorem ages_patchBranch (patch : BranchPatch) :
    (patchBranch auth id expectedVersion patch).Every Ages := by
  refine (Proc.Every.require _ _).bind fun _ => (ages_unversioned _).bind fun found => ?_
  refine (Proc.Every.orFail _ _).bind fun _ => (ages_checkVersionNo _).bind fun _ => ?_
  refine (ages_updateVersioned _ _ _ _).bind fun _ => ?_
  exact (ages_unversioned _).bind fun _ => trivial

theorem ages_patchBusinessRule (patch : RulePatch) :
    (patchBusinessRule auth id expectedVersion patch).Every Ages := by
  refine (Proc.Every.require _ _).bind fun _ => (ages_unversioned _).bind fun found => ?_
  refine (Proc.Every.orFail _ _).bind fun existing => (Proc.Every.require _ _).bind fun _ => ?_
  exact (ages_checkVersionNo _).bind fun _ => ages_updateVersioned _ _ _ _

theorem ages_patchRoleInTx (patch : RolePatch) : (patchRoleInTx id patch).Every Ages := by
  refine Proc.Every.bind ?_ fun _ => Proc.Every.bind ?_ fun _ => ?_
  · cases patch.description with
    | none => trivial
    | some description => exact (ages_updateVersioned _ _ _ _).bind fun _ => trivial
  · cases patch.requireMfa with
    | none => trivial
    | some requireMfa => exact (ages_updateVersioned _ _ _ _).bind fun _ => trivial
  · cases patch.permissionCodes with
    | none => trivial
    | some codes =>
      refine (ages_unversioned _).bind fun permissions => (ages_unversioned _).bind fun _ => ?_
      exact ages_unversioned _

theorem ages_patchRole (patch : RolePatch) :
    (patchRole auth id expectedVersion patch).Every Ages := by
  refine (ages_unversioned _).bind fun found => (Proc.Every.orFail _ _).bind fun _ => ?_
  refine (ages_checkVersionNo _).bind fun _ => ?_
  refine (Proc.Every.transaction Ages.refl Ages.trans _ (ages_patchRoleInTx patch)).bind fun _ => ?_
  exact (ages_unversioned _).bind fun _ => ages_unversioned _

end Ages

/-! ## The edits and the code without versions -/

section Projects

variable {α β : Type} {s : VersionedDb} {isEmail : String → Bool} {auth : Auth} {id : Id}
  {expectedVersion : Option ℤ}

/-- The versions of the rows that are there. -/
def VersionedDb.versions (s : VersionedDb) (m : Model) (db : Db) (id : Id) : Option ℤ :=
  (db.find? m id).map fun _ => s.versionNo m id

/-- Executed alone, the code answers and writes as the code on the tables does. -/
def Projects (p : VersionedHandler α) (q : Handler α) (s : VersionedDb) : Prop :=
  (p.run s).1 = (q.run s.db).1 ∧ (p.run s).2.db = (q.run s.db).2

theorem run_unversioned (p : Handler α) (s : VersionedDb) :
    (unversioned p).run s = ((p.run s.db).1, s.setDb (p.run s.db).2) := by
  apply Proc.run_onPart
  · exact fun _ _ => rfl
  · exact fun _ _ _ => rfl
  · exact fun _ => rfl

namespace Projects

theorem pure (a : α) : Projects (Pure.pure a) (Pure.pure a) s := ⟨rfl, rfl⟩

/-- What comes after code that updates no versioned row finds the same versions. -/
theorem unversioned_bind {p : Handler β} {f : β → VersionedHandler α} {g : β → Handler α}
    (h : ∀ b db, Projects (f b) (g b) (s.setDb db)) :
    Projects (unversioned p >>= f) (p >>= g) s := by
  unfold Projects
  rw [Proc.run_bind, Proc.run_bind, run_unversioned]
  cases hrun : p.run s.db with
  | mk r db =>
    cases r with
    | ok b => exact h b db
    | error e => exact ⟨rfl, rfl⟩

theorem require {p : Prop} [Decidable p] {e : Failure} {f : Unit → VersionedHandler α}
    {g : Unit → Handler α} (h : Projects (f ()) (g ()) s) :
    Projects (Proc.require p e >>= f) (Proc.require p e >>= g) s := by
  by_cases hp : p
  · rw [Proc.require_pos hp, Proc.require_pos hp]
    exact h
  · rw [Proc.require_neg hp, Proc.require_neg hp]
    exact ⟨rfl, rfl⟩

theorem orFail {o : Option β} {e : Failure} {f : β → VersionedHandler α} {g : β → Handler α}
    (h : ∀ b, Projects (f b) (g b) s) :
    Projects (Proc.orFail o e >>= f) (Proc.orFail o e >>= g) s := by
  cases o with
  | some b => exact h b
  | none => exact ⟨rfl, rfl⟩

theorem checkVersionNo {m : Model} {f : Unit → VersionedHandler α} {g : Unit → Handler α}
    (h : Projects (f ()) (g ()) s) :
    Projects (checkVersionNo m id expectedVersion >>= f)
      (checkVersion (s.versions m) id expectedVersion >>= g) s := by
  cases expectedVersion with
  | none => exact h
  | some expected => exact require h

theorem updateVersioned {lab lab' : Access} {m : Model} {data : Row m → Row m}
    {f : Row m → VersionedHandler α} {g : Row m → Handler α} (h : ∀ row s, Projects (f row) (g row) s) :
    Projects (updateVersioned lab m id data >>= f) (updateAs lab' m id data >>= g) s := by
  unfold Projects
  rw [Proc.run_bind, Proc.run_bind]
  unfold NexusEfos.updateVersioned NexusEfos.updateAs
  rw [Proc.run_attempt, Proc.run_attempt]
  cases hrow : s.db.find? m id with
  | some row => exact h (data row) (s.update m id data)
  | none => exact ⟨rfl, rfl⟩

end Projects

theorem patchCustomer_projects (patch : CustomerProfilePatch) :
    Projects (patchCustomer isEmail auth id expectedVersion patch)
      (updateCustomer isEmail (s.versions .customer) auth id expectedVersion patch) s := by
  refine .require (.unversioned_bind fun found db => .orFail fun existing => ?_)
  refine .unversioned_bind fun _ db' => ?_
  have hcheck : ∀ {f : Unit → VersionedHandler (Option Id)} {g : Unit → Handler (Option Id)},
      Projects (f ()) (g ()) ((s.setDb db).setDb db') →
        Projects (checkVersionNo .customer id expectedVersion >>= f)
          (checkVersion (s.versions .customer) id expectedVersion >>= g)
          ((s.setDb db).setDb db') := fun h => .checkVersionNo h
  apply hcheck
  split
  · refine .unversioned_bind fun approval _ => ?_
    exact .updateVersioned fun _ _ => .unversioned_bind fun _ _ => .pure _
  · exact .updateVersioned fun _ _ => .unversioned_bind fun _ _ => .pure _

theorem patchBusinessRule_projects (patch : RulePatch) :
    Projects (patchBusinessRule auth id expectedVersion patch)
      (editBusinessRule (s.versions .businessRule) auth id expectedVersion patch) s := by
  refine .require (.unversioned_bind fun found db => .orFail fun existing => .require ?_)
  have hcheck : ∀ {f : Unit → VersionedHandler BusinessRule} {g : Unit → Handler BusinessRule},
      Projects (f ()) (g ()) (s.setDb db) →
        Projects (checkVersionNo .businessRule id expectedVersion >>= f)
          (checkVersion (s.versions .businessRule) id expectedVersion >>= g) (s.setDb db) :=
    fun h => .checkVersionNo h
  apply hcheck
  rw [← Proc.bind_pure (updateVersioned _ _ _ _), ← Proc.bind_pure (updateAs _ _ _ _)]
  exact .updateVersioned fun row _ => .pure row

end Projects

/-! ## Runs of the calls -/

/-- A call that edits a record of one of the five kinds.  The last constructor stands for every
other call. -/
inductive VersionedCall
  | customer (isEmail : String → Bool) (auth : Auth) (id : Id) (expectedVersion : Option ℤ)
      (patch : CustomerProfilePatch)
  | employee (isEmail : String → Bool) (auth : Auth) (id : Id) (expectedVersion : Option ℤ)
      (patch : EmployeePatch)
  | role (auth : Auth) (id : Id) (expectedVersion : Option ℤ) (patch : RolePatch)
  | branch (auth : Auth) (id : Id) (expectedVersion : Option ℤ) (patch : BranchPatch)
  | businessRule (auth : Auth) (id : Id) (expectedVersion : Option ℤ) (patch : RulePatch)
  | other (p : VersionedHandler Unit) (h : p.Every Ages)

def VersionedCall.handler : VersionedCall → VersionedHandler Unit
  | customer isEmail auth id expectedVersion patch => do
    let _ ← patchCustomer isEmail auth id expectedVersion patch
  | employee isEmail auth id expectedVersion patch => do
    let _ ← patchEmployee isEmail auth id expectedVersion patch
  | role auth id expectedVersion patch => do let _ ← patchRole auth id expectedVersion patch
  | branch auth id expectedVersion patch => do let _ ← patchBranch auth id expectedVersion patch
  | businessRule auth id expectedVersion patch => do
    let _ ← patchBusinessRule auth id expectedVersion patch
  | other p _ => p

theorem VersionedCall.ages (call : VersionedCall) : call.handler.Every Ages := by
  cases call with
  | customer isEmail auth id expectedVersion patch =>
    exact (ages_patchCustomer patch).bind fun _ => trivial
  | employee isEmail auth id expectedVersion patch =>
    exact (ages_patchEmployee patch).bind fun _ => trivial
  | role auth id expectedVersion patch => exact (ages_patchRole patch).bind fun _ => trivial
  | branch auth id expectedVersion patch => exact (ages_patchBranch patch).bind fun _ => trivial
  | businessRule auth id expectedVersion patch =>
    exact (ages_patchBusinessRule patch).bind fun _ => trivial
  | other p h => exact h

/-- The edits that a statement applies, with the versions that they expect.  An edit of the record
itself that failed has left its version alone. -/
def appliedEdits (lab : Access) (s t : VersionedDb) : List (Model × Id × ℤ) :=
  match lab.applies with
  | some e =>
    if e.ownRow = true ∧ t.versionNo e.model e.id = s.versionNo e.model e.id then []
    else [(e.model, e.id, e.expectedVersion)]
  | none => []

/-- An edit updates the record itself, and finds it at the version that it expects. -/
def Access.EditsInVersion (lab : Access) (s : VersionedDb) : Prop :=
  ∀ e ∈ lab.applies, e.ownRow = true ∧ s.versionNo e.model e.id = e.expectedVersion

instance (lab : Access) (s : VersionedDb) : Decidable (lab.EditsInVersion s) :=
  inferInstanceAs (Decidable (∀ e ∈ lab.applies, _))

/-- No edit has been applied twice, and the versions are past those that were expected. -/
structure AppliedOnce (s : VersionedDb) (h : List (Model × Id × ℤ)) : Prop where
  nodup : h.Nodup
  past : ∀ e ∈ h, e.2.2 < s.versionNo e.1 e.2.1

theorem AppliedOnce.step {lab : Access} {s t : VersionedDb} {h : List (Model × Id × ℤ)}
    (hs : AppliedOnce s h) (hages : s.Ages t) (hlab : lab.EditsInVersion s) :
    AppliedOnce t (h ++ appliedEdits lab s t) := by
  have hpast : ∀ e ∈ h, e.2.2 < t.versionNo e.1 e.2.1 :=
    fun e he => (hs.past e he).trans_le (hages _ _)
  have hkept : AppliedOnce t (h ++ []) := by
    rw [List.append_nil]
    exact ⟨hs.nodup, hpast⟩
  unfold appliedEdits
  split
  · next e he =>
    split
    · exact hkept
    · next happlied =>
      obtain ⟨hown, hversion⟩ := hlab e he
      have hraised : e.expectedVersion < t.versionNo e.model e.id := by
        have hle := hages e.model e.id
        have hne : t.versionNo e.model e.id ≠ s.versionNo e.model e.id :=
          fun heq => happlied ⟨hown, heq⟩
        omega
      have hnew : (e.model, e.id, e.expectedVersion) ∉ h := by
        intro hmem
        have hbefore := hs.past _ hmem
        exact absurd hversion hbefore.ne'
      constructor
      · rw [← List.concat_eq_append]
        exact hs.nodup.concat hnew
      · intro e' he'
        rcases List.mem_append.mp he' with hold | hsame
        · exact hpast e' hold
        · rw [List.mem_singleton.mp hsame]
          exact hraised
  · exact hkept

section Runs

variable {ι : Type} [DecidableEq ι]

def versionPool (calls : ι → VersionedCall) (s : VersionedDb) :
    Pool ι Access VersionedDb Failure Unit :=
  ⟨fun i => (calls i).handler, s⟩

/-- In a run in which every edit updates the record itself and finds it at the version that it
expects, at most one edit is applied of those that expect the same version of a record. -/
theorem edits_applied_once (calls : ι → VersionedCall) (s : VersionedDb) (sched : List ι)
    (hedits : (versionPool calls s).Allowed Access.EditsInVersion sched) :
    ((versionPool calls s).history appliedEdits sched).Nodup := by
  have hsteps : ∀ i, ((versionPool calls s).threads i).EveryStep fun _ => Ages :=
    fun i => .of_every (fun _ _ _ h => h) (calls i).ages
  have hstart : AppliedOnce s [] := ⟨List.nodup_nil, nofun⟩
  have hrun : AppliedOnce ((versionPool calls s).run sched).state
      ([] ++ (versionPool calls s).history appliedEdits sched) := by
    apply Pool.run_history _ hsteps hstart (Pool.allowedAfter_of_allowed hedits [])
    exact fun lab s t h hages hlab hs => hs.step hages hlab
  exact hrun.nodup

end Runs

/-! ## Two edits of a role -/

/-- A role and a permission. -/
def roleDb : VersionedDb where
  db := (Db.empty.insert .role { institutionId := some 1, name := "Teller" }).insert .permission
    ⟨"loans.approve"⟩

/-- Two users edit the role, and both have loaded its first version. -/
def roleEdits : Fin 2 → VersionedCall
  | 0 => .role ⟨1, 1⟩ 1 (some 1) { description := some "Counter staff" }
  | 1 => .role ⟨1, 2⟩ 1 (some 1) { description := some "Cashier" }

/-- The second is refused when it comes after the first. -/
theorem edits_applied_once_roleEdits :
    ((versionPool roleEdits roleDb).history appliedEdits [0, 0, 0, 0, 0, 1, 1]).Nodup :=
  edits_applied_once roleEdits roleDb [0, 0, 0, 0, 0, 1, 1] (by decide +kernel)

/-- Edits that send only permissions. -/
def permissionEdits : Fin 2 → VersionedCall
  | 0 => .role ⟨1, 1⟩ 1 (some 1) { permissionCodes := some ["loans.approve"] }
  | 1 => .role ⟨1, 2⟩ 1 (some 1) { permissionCodes := some [] }

/-- The second edit takes back what the first one has done, though it expects the version that
was there before. -/
theorem edits_applied_twice :
    ¬ ∀ (calls : Fin 2 → VersionedCall) (s : VersionedDb) (sched : List (Fin 2)),
      ((versionPool calls s).history appliedEdits sched).Nodup := by
  intro h
  have hrun := h permissionEdits roleDb [0, 0, 0, 0, 0, 1, 1, 1, 1, 1]
  revert hrun
  decide +kernel

/-- Two edits of the role itself that are both checked before either is written. -/
example : ¬ ((versionPool roleEdits roleDb).history appliedEdits [0, 0, 1, 1, 0, 1]).Nodup := by
  decide +kernel

end NexusEfos
