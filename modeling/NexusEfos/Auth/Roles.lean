/-
Roles and who holds them: `routes/role.routes.ts`.
-/
import NexusEfos.Middleware.OptimisticLock

namespace NexusEfos

/-- `createRoleSchema`. -/
structure RoleInput where
  name : String
  description : Option String := none
  permissionCodes : List String := []
  requireMfa : Bool := false

/-- The log entry about a role or who holds it. -/
def roleLog (auth : Auth) (action resource : String) (id : Id) : AuditLog :=
  { institutionId := auth.institutionId, userId := some auth.userId, action, resource,
    resourceId := some id }

/-- `POST /roles`. -/
def createRole (auth : Auth) (input : RoleInput) : Handler Id := do
  Proc.require (2 ≤ jsLength input.name) .invalid
  let role ← create .role
    { institutionId := some auth.institutionId, name := input.name,
      description := input.description, requireMfa := input.requireMfa }
  if input.permissionCodes ≠ [] then do
    let permissions ← findMany .permission fun _ p => p.code ∈ input.permissionCodes
    createRolePermissions role (permissions.map Prod.fst)
    let _ ← create .auditLog (roleLog auth "role.create" "role" role)
    return role
  else do
    let _ ← create .auditLog (roleLog auth "role.create" "role" role)
    return role

/-- `assignSchema`. -/
structure RoleAssignment where
  userId : Id
  roleId : Id
  branchId : Option Id := none
  expiresAt : Option DateTime := none
  isDelegated : Bool := false

/-- The user holds the role at the branch already.  Rows without a branch are never equal. -/
def RoleAssignment.Taken (input : RoleAssignment) (s : Db) : Prop :=
  input.branchId.isSome = true ∧ ∃ x ∈ (s.table .userRole).values,
    x.userId = input.userId ∧ x.roleId = input.roleId ∧ x.branchId = input.branchId

instance (input : RoleAssignment) (s : Db) : Decidable (input.Taken s) :=
  inferInstanceAs (Decidable (_ ∧ ∃ x ∈ (s.table .userRole).values, _))

/-- `userRole.create`. -/
def createUserRole (row : UserRole) (input : RoleAssignment) : Handler Id :=
  Proc.attempt {} fun s =>
    if (s.find? .user input.userId).isNone || (s.find? .role input.roleId).isNone then
      (.error foreignKeyViolation, s)
    else if input.Taken s then (.error uniqueViolation, s)
    else (.ok (s.nextId .userRole), s.insert .userRole row)

/-- `POST /roles/assign`.  The database lets the role start at once. -/
def assignRole (auth : Auth) (now : DateTime) (input : RoleAssignment) : Handler Id := do
  let assignment ← createUserRole
    { userId := input.userId, roleId := input.roleId, branchId := input.branchId,
      isDelegated := input.isDelegated,
      delegatedFromUserId := if input.isDelegated then some auth.userId else none,
      startsAt := now, expiresAt := input.expiresAt } input
  let _ ← create .auditLog (roleLog auth "role.assign" "user_role" assignment)
  return assignment

/-- `userRole.delete`. -/
def deleteUserRole (id : Id) : Handler Unit :=
  Proc.attempt {} fun s =>
    match s.find? .userRole id with
    | some _ =>
      (.ok (), s.setTable .userRole ((s.table .userRole).filter fun id' _ => id' ≠ id))
    | none => (.error recordNotFound, s)

/-- `DELETE /roles/assign/:userRoleId`. -/
def revokeRole (auth : Auth) (userRoleId : Id) : Handler Unit := do
  deleteUserRole userRoleId
  let _ ← create .auditLog (roleLog auth "role.revoke" "user_role" userRoleId)

/-! ## What they leave alone -/

section Frame

variable {watched : List Model}

theorem quiet_createRole (hrole : Model.role ∉ watched) (hpermission : Model.rolePermission ∉ watched)
    (hlog : Model.auditLog ∉ watched) (auth : Auth) (input : RoleInput) :
    Quiet watched (createRole auth input) := by
  have hlogged : ∀ role, Quiet watched (do
      let _ ← create .auditLog (roleLog auth "role.create" "role" role)
      return role : Handler Id) := fun role => (Quiet.create hlog _).bind fun _ => Quiet.pure role
  have hpermissions : ∀ role ids, Quiet watched (createRolePermissions role ids) := by
    intro role ids
    constructor
    · intro s
      have hinserts : ∀ (ids : List Id) (t : Db), s.Agree watched t → s.Agree watched
          (ids.foldl (fun s permissionId => s.insert .rolePermission ⟨role, permissionId⟩) t) := by
        intro ids
        induction ids with
        | nil => exact fun _ ht => ht
        | cons id ids ih => exact fun t ht => ih _ (ht.trans (.insert hpermission t _))
      exact hinserts _ s (.refl s)
    · exact fun _ => trivial
  apply (Quiet.require _ _).bind
  intro _
  apply (Quiet.create hrole _).bind
  intro role
  apply Quiet.ite
  · apply (Quiet.query _).bind
    intro permissions
    exact (hpermissions _ _).bind fun _ => hlogged role
  · exact hlogged role

theorem quiet_assignRole (hrole : Model.userRole ∉ watched) (hlog : Model.auditLog ∉ watched)
    (auth : Auth) (now : DateTime) (input : RoleAssignment) : Quiet watched (assignRole auth now input) := by
  have hcreate : ∀ row, Quiet watched (createUserRole row input) := by
    intro row
    constructor
    · intro s
      dsimp only
      split
      · exact .refl s
      · split
        · exact .refl s
        · exact .insert hrole s _
    · exact fun _ => trivial
  exact (hcreate _).bind fun _ => (Quiet.create hlog _).bind fun _ => Quiet.pure _

theorem quiet_revokeRole (hrole : Model.userRole ∉ watched) (hlog : Model.auditLog ∉ watched)
    (auth : Auth) (userRoleId : Id) : Quiet watched (revokeRole auth userRoleId) := by
  have hdelete : Quiet watched (deleteUserRole userRoleId) := by
    constructor
    · intro s
      dsimp only
      split
      · exact .setTable hrole s _
      · exact .refl s
    · exact fun _ => trivial
  exact hdelete.bind fun _ => (Quiet.create hlog _).bind fun _ => Quiet.pure _

end Frame

end NexusEfos
