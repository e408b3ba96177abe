/-
Permissions: `middleware/rbac.ts`.

A user has a permission by a role that grants it.  An assignment of a role may be limited in time,
and to a branch; the limit to a branch counts for the requests that name one.
-/
import NexusEfos.Handlers

namespace NexusEfos

/-- What `requirePermission` reads of a request.  A branch that is the empty text is none. -/
structure PermissionRequest where
  auth : Option Auth
  paramsBranchId : Option Id := none
  bodyBranchId : Option Id := none

/-- `req.params.branchId || req.body?.branchId` -/
def PermissionRequest.branchId (req : PermissionRequest) : Option Id :=
  req.paramsBranchId.or req.bodyBranchId

/-- The assignment is in force at a moment. -/
def UserRole.InForceAt (ur : UserRole) (now : DateTime) : Prop :=
  ur.startsAt ≤ now ∧ ∀ expiry ∈ ur.expiresAt, now < expiry

instance UserRole.decidableInForceAt (ur : UserRole) (now : DateTime) :
    Decidable (ur.InForceAt now) :=
  inferInstanceAs (Decidable (_ ∧ ∀ expiry ∈ ur.expiresAt, now < expiry))

/-- The codes of the permissions of a role. -/
def Db.permissionCodes (s : Db) (roleId : Id) : List String :=
  ((s.table .rolePermission).values.filter fun rp => rp.roleId = roleId).filterMap fun rp =>
    (s.find? .permission rp.permissionId).map Permission.code

/-- `userRole.findMany`, with the permissions of the roles. -/
def Db.activeRoles (s : Db) (userId : Id) (branchId : Option Id) (now : DateTime) :
    List (UserRole × List String) :=
  ((s.table .userRole).values.filter fun ur =>
    ur.userId = userId ∧ ur.InForceAt now ∧
      ∀ b ∈ branchId, ur.branchId = some b ∨ ur.branchId = none).map fun ur =>
    (ur, s.permissionCodes ur.roleId)

/-- `requirePermission`: a request that is let through goes on to its endpoint. -/
def requirePermission (permissionCode : String) (req : PermissionRequest) (now : DateTime) :
    Handler Unit := do
  let auth ← Proc.orFail req.auth (.http 401 "Unauthenticated")
  let userRoles ← query fun s => s.activeRoles auth.userId req.branchId now
  let hasPermission := userRoles.any fun ur => ur.2.any fun code => code = permissionCode
  Proc.require (hasPermission = true) (.http 403 ("Missing permission: " ++ permissionCode))

/-! ## Who is let through -/

/-- The role grants the permission. -/
def Db.Grants (s : Db) (roleId : Id) (permissionCode : String) : Prop :=
  ∃ rp ∈ (s.table .rolePermission).values, rp.roleId = roleId ∧
    ∃ permission ∈ s.find? .permission rp.permissionId, permission.code = permissionCode

theorem mem_permissionCodes {s : Db} {roleId : Id} {code : String} :
    code ∈ s.permissionCodes roleId ↔ s.Grants roleId code := by
  unfold Db.permissionCodes Db.Grants
  simp only [List.mem_filterMap, List.mem_filter, decide_eq_true_eq, Option.map_eq_some_iff,
    Option.mem_def, and_assoc]

/-- The branches for which an assignment is good: all of them, or its own. -/
def UserRole.CoversBranch (ur : UserRole) (branchId : Id) : Prop :=
  ur.branchId = none ∨ ur.branchId = some branchId

/-- The user holds the permission at a moment, by an assignment that satisfies a condition. -/
def Db.HoldsPermission (s : Db) (userId : Id) (permissionCode : String) (now : DateTime)
    (scope : UserRole → Prop) : Prop :=
  ∃ ur ∈ (s.table .userRole).values, ur.userId = userId ∧ ur.InForceAt now ∧
    s.Grants ur.roleId permissionCode ∧ scope ur

/-- A request is let through exactly if the user holds the permission by an assignment that is in
force and that, if the request names a branch, is good for it. -/
theorem requirePermission_iff (permissionCode : String) (req : PermissionRequest) (now : DateTime)
    (s : Db) :
    (requirePermission permissionCode req now).run s = (.ok (), s) ↔
      ∃ auth, req.auth = some auth ∧ s.HoldsPermission auth.userId permissionCode now fun ur =>
        ∀ b ∈ req.branchId, ur.CoversBranch b := by
  cases hauth : req.auth with
  | none =>
    apply iff_of_false
    · unfold requirePermission
      rw [hauth]
      intro h
      exact absurd (congrArg Prod.fst h) nofun
    · rintro ⟨auth, hsome, -⟩
      exact absurd hsome nofun
  | some auth =>
    have hmem : (s.activeRoles auth.userId req.branchId now).any
        (fun ur => ur.2.any fun code => code = permissionCode) = true ↔
        s.HoldsPermission auth.userId permissionCode now fun ur =>
          ∀ b ∈ req.branchId, ur.CoversBranch b := by
      simp only [List.any_eq_true, decide_eq_true_eq, Db.activeRoles, List.mem_map, List.mem_filter]
      constructor
      · rintro ⟨_, ⟨ur, ⟨hur, huser, hforce, hscope⟩, rfl⟩, code, hcode, rfl⟩
        exact ⟨ur, hur, huser, hforce, mem_permissionCodes.mp hcode, fun b hb => (hscope b hb).symm⟩
      · rintro ⟨ur, hur, huser, hforce, hgrants, hscope⟩
        exact ⟨_, ⟨ur, ⟨hur, huser, hforce, fun b hb => (hscope b hb).symm⟩, rfl⟩, permissionCode,
          mem_permissionCodes.mpr hgrants, rfl⟩
    have hrun : (requirePermission permissionCode req now).run s =
        (Proc.require ((s.activeRoles auth.userId req.branchId now).any
          (fun ur => ur.2.any fun code => code = permissionCode) = true)
          (.http 403 ("Missing permission: " ++ permissionCode)) : Handler Unit).run s := by
      unfold requirePermission
      rw [hauth]
      rfl
    rw [hrun]
    constructor
    · intro h
      by_cases hany : (s.activeRoles auth.userId req.branchId now).any
          (fun ur => ur.2.any fun code => code = permissionCode) = true
      · exact ⟨auth, rfl, hmem.mp hany⟩
      · rw [Proc.require, if_neg hany] at h
        exact absurd (congrArg Prod.fst h) nofun
    · rintro ⟨auth', hsome, hholds⟩
      rw [← Option.some.inj hsome] at hholds
      rw [Proc.require, if_pos (hmem.mpr hholds)]
      rfl

/-- A user whose only role grants a permission for the second branch. -/
def secondBranchDb : Db :=
  ((Db.empty.insert .permission ⟨"loans.approve"⟩).insert .rolePermission
    { roleId := 1, permissionId := 1 }).insert .userRole
      { userId := 1, roleId := 1, branchId := some 2, startsAt := 0 }

/-- A request of theirs that names no branch is let through, also one about the first. -/
theorem requirePermission_otherBranch :
    (requirePermission "loans.approve" ⟨some ⟨1, 1⟩, none, none⟩ 10).run secondBranchDb =
        (.ok (), secondBranchDb) ∧
      ¬ secondBranchDb.HoldsPermission 1 "loans.approve" 10 fun ur => ur.CoversBranch 1 := by
  constructor
  · rfl
  · rintro ⟨ur, hur, -, -, -, hcovers⟩
    obtain rfl : ur = { userId := 1, roleId := 1, branchId := some 2, startsAt := 0 } :=
      List.mem_singleton.mp hur
    rcases hcovers with h | h
    · exact absurd h (by decide)
    · exact absurd h (by decide)

end NexusEfos
