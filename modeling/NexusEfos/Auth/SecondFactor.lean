/-
The second factor: its enrolment, its end, and the devices that spare a user of it.

A device is trusted by a completed login that asks for it, whether a code was checked or not, and
only a check of a code is recorded in its `mfaVerifiedAt`.  `isDeviceTrusted` asks for that record
when a role of the user demands the second factor, but not when the user has enrolled in it by
choice.  `login_respects_iff` says which logins that lets through.
-/
import NexusEfos.Auth.Login
import NexusEfos.Auth.Roles

namespace NexusEfos

/-! ## The endpoints -/

section Endpoints

variable (p : Platform)

/-- `userMfa.upsert` of an enrolment that starts. -/
def upsertMfa (userId : Id) (secretEncrypted : String) : Handler Unit :=
  Proc.exec {} fun s =>
    match s.mfaOf userId with
    | some (id, _) => ((), s.modify .userMfa id fun m =>
        { m with secretEncrypted, backupCodesHashed := [], verifiedAt := none })
    | none => ((), s.insert .userMfa { userId, secretEncrypted })

/-- The common part of the two endpoints that start an enrolment. -/
def setUpMfa (userId : Id) (secretEncrypted : String) (enrolled : String) : TimedHandler Unit := do
  let found ← timeless (query fun s => (s.find? .user userId).map fun u => (u, s.mfaOf userId))
  let (_, mfa) ← Proc.orFail found (.http 404 "User not found")
  Proc.require (∀ x ∈ mfa, x.2.verifiedAt = none) (.http 409 enrolled)
  timeless (upsertMfa userId secretEncrypted)

/-- `POST /mfa/setup-required`, with the secret that is drawn. -/
def mfaSetupRequired (mfaPendingToken : Option String) (secretEncrypted : String) :
    TimedHandler Unit := do
  let token ← Proc.orFail (truthy mfaPendingToken) (.http 400 "mfaPendingToken required")
  let now ← date
  let userId ← Proc.orFail (p.verifyMfaPendingToken token now)
    (.http 401 "This challenge has expired. Please log in again.")
  setUpMfa userId secretEncrypted "MFA is already enrolled on this account."

/-- `POST /mfa/setup`. -/
def mfaSetup (auth : Auth) (secretEncrypted : String) : TimedHandler Unit :=
  setUpMfa auth.userId secretEncrypted
    "MFA is already enrolled on this account. Disable it before setting up again."

/-- The two statements that finish an enrolment. -/
def enrollInTx (userId : Id) (now : DateTime) (hashedCodes : List String) : Handler Unit := do
  updateMfa {} userId fun m => { m with verifiedAt := some now, backupCodesHashed := hashedCodes }
  let _ ← update .user userId fun u => { u with mfaEnabled := true }

/-- The common part of the two endpoints that finish an enrolment: the user who is enrolled. -/
def verifyMfa (userId : Id) (code : String) (hashedCodes : List String) : TimedHandler User := do
  let found ← timeless (query fun s => userWithMfa s userId)
  let (user, mfa) ← Proc.orFail found (.http 400 "Call POST /auth/mfa/setup first.")
  Proc.require (mfa.verifiedAt = none) (.http 409 "MFA is already verified on this account.")
  let now ← date
  Proc.require (p.verifyTotpCode code (p.decryptSecret mfa.secretEncrypted) now = true)
    (.http 401 "Incorrect code")
  timeless (Proc.transaction {} (enrollInTx userId now hashedCodes))
  let _ ← timeless (create .auditLog
    { institutionId := user.institutionId, userId := some userId, action := "auth.mfa_enrolled",
      resource := "" })
  return { user with mfaEnabled := true }

structure VerifyRequiredRequest where
  mfaPendingToken : String
  code : String
  deviceFingerprint : Option String := none

/-- `POST /mfa/verify-required`, with the codes and the token that are drawn. -/
def mfaVerifyRequired (request : VerifyRequiredRequest) (hashedCodes : List String)
    (raw : String) : TimedHandler Session := do
  Proc.require (jsLength request.code = 6) .invalid
  let now ← date
  let userId ← Proc.orFail (p.verifyMfaPendingToken request.mfaPendingToken now)
    (.http 401 "This challenge has expired. Please log in again.")
  let updatedUser ← verifyMfa p userId request.code hashedCodes
  completeSuccessfulLogin p userId updatedUser raw request.deviceFingerprint false true none

/-- `POST /mfa/verify`. -/
def mfaVerify (auth : Auth) (code : String) (hashedCodes : List String) : TimedHandler Unit := do
  Proc.require (jsLength code = 6) .invalid
  let _ ← verifyMfa p auth.userId code hashedCodes

/-- The two statements that end an enrolment. -/
def disenrollInTx (userId : Id) : Handler Unit := do
  Proc.exec {} fun s =>
    ((), s.setTable .userMfa ((s.table .userMfa).filter fun _ m => m.userId ≠ userId))
  let _ ← update .user userId fun u => { u with mfaEnabled := false }

/-- `POST /mfa/disable`. -/
def mfaDisable (auth : Auth) (password : String) : TimedHandler Unit := do
  let found ← timeless (findUnique .user auth.userId)
  let user ← Proc.orFail found (.http 404 "User not found")
  Proc.require (p.bcryptCompare password user.passwordHash = true)
    (.http 401 "Incorrect password")
  timeless (Proc.transaction {} (disenrollInTx auth.userId))
  let _ ← timeless (create .auditLog
    { institutionId := user.institutionId, userId := some auth.userId,
      action := "auth.mfa_disabled", resource := "" })

/-- `DELETE /devices/:id`. -/
def deleteDevice (auth : Auth) (id : Id) : TimedHandler Unit := do
  let found ← timeless (findById .userDevice id fun d => d.userId = auth.userId)
  let _ ← Proc.orFail found (.http 404 "Device not found")
  timeless (Proc.exec {} fun s =>
    ((), s.setTable .userDevice ((s.table .userDevice).filter fun id' _ => id' ≠ id)))
  let _ ← timeless (create .auditLog
    { institutionId := auth.institutionId, userId := some auth.userId,
      action := "auth.device_revoke", resource := "user_device", resourceId := some id })

end Endpoints

/-! ## Devices that have been verified -/

/-- A device of the user with the fingerprint has passed a check of a code. -/
def Db.VerifiedDevice (s : Db) (userId : Id) (fingerprint : String) : Prop :=
  ∃ d ∈ (s.table .userDevice).values, d.userId = userId ∧ d.fingerprint = fingerprint ∧
    d.mfaVerifiedAt.isSome = true

/-- No device has become verified, but for those of a list. -/
def VerifiesOnly (checks : List (Id × String)) (s t : TimedDb) : Prop :=
  ∀ userId fingerprint, t.db.VerifiedDevice userId fingerprint →
    s.db.VerifiedDevice userId fingerprint ∨ (userId, fingerprint) ∈ checks

namespace VerifiesOnly

variable {checks : List (Id × String)}

theorem refl (s : TimedDb) : VerifiesOnly checks s s := fun _ _ h => .inl h

theorem trans {s t u : TimedDb} (h : VerifiesOnly checks s t) (h' : VerifiesOnly checks t u) :
    VerifiesOnly checks s u := by
  intro userId fingerprint hverified
  rcases h' userId fingerprint hverified with hbefore | hmem
  · exact h userId fingerprint hbefore
  · exact .inr hmem

theorem append {checks' : List (Id × String)} {s t u : TimedDb} (h : VerifiesOnly checks s t)
    (h' : VerifiesOnly checks' t u) : VerifiesOnly (checks ++ checks') s u := by
  intro userId fingerprint hverified
  rw [List.mem_append]
  rcases h' userId fingerprint hverified with hbefore | hmem
  · rcases h userId fingerprint hbefore with hold | hnew
    · exact .inl hold
    · exact .inr (.inl hnew)
  · exact .inr (.inr hmem)

theorem of_table_eq {s t : TimedDb} (h : t.db.table .userDevice = s.db.table .userDevice) :
    VerifiesOnly checks s t := by
  intro userId fingerprint hverified
  unfold Db.VerifiedDevice at hverified
  rw [h] at hverified
  exact .inl hverified

end VerifiesOnly

section Statements

variable {α : Type} {checks : List (Id × String)}

theorem verifies_timeless {q : Handler α} (hq : Quiet [.userDevice] q) :
    (timeless q).Every (VerifiesOnly checks) :=
  Proc.Every.onPart (fun _ _ h => .of_table_eq (h .userDevice (by simp))) hq

theorem verifies_date : date.Every (VerifiesOnly checks) :=
  ⟨fun s => .refl s, fun _ => trivial⟩

theorem verifies_compareSecret (userId : Id) (user : User) (matched : Bool) :
    (compareSecret userId user matched).Every (VerifiesOnly checks) :=
  ⟨fun s => .refl s, fun _ => trivial⟩

theorem verifies_recordLoginAttempt (userId : Id) (result : LoginResult) :
    (recordLoginAttempt userId result).Every (VerifiesOnly checks) :=
  (verifies_timeless (Quiet.create (by decide) _)).bind fun _ => trivial

theorem verifies_registerFailedPassword (userId : Id) (user : User) :
    (registerFailedPassword userId user).Every (VerifiesOnly checks) := by
  apply verifies_date.bind
  intro now
  apply (verifies_timeless (Quiet.updateAs (by decide) _ _ _)).bind
  intro _
  exact (verifies_recordLoginAttempt _ _).bind fun _ => trivial

theorem quiet_updateMfa (lab : Access) (userId : Id) (data : UserMfa → UserMfa) :
    Quiet [.userDevice] (updateMfa lab userId data) := by
  constructor
  · intro s
    dsimp only
    cases s.mfaOf userId with
    | some x => exact .modify (m := .userMfa) (by decide) s x.1 data
    | none => exact .refl s
  · exact fun _ => trivial

/-- A device that a completed login writes is the one that the request names. -/
theorem deviceOf_eq_some {s : Db} {userId : Id} {fingerprint : String} {e : Id × UserDevice}
    (h : s.deviceOf userId fingerprint = some e) :
    s.find? .userDevice e.1 = some e.2 ∧ e.2.userId = userId ∧ e.2.fingerprint = fingerprint := by
  have hmem : e ∈ (s.table .userDevice).entries := List.mem_of_find?_eq_some h
  have hmet := List.find?_some h
  simp only [decide_eq_true_eq] at hmet
  exact ⟨OrderedMap.get?_eq_some.mpr hmem, hmet.1, hmet.2⟩

theorem verifies_upsertDevice {userId : Id} {fingerprint : String} {trustDevice verified : Bool}
    {now : DateTime} (hchecks : verified = true → (userId, fingerprint) ∈ checks) :
    (timeless (upsertDevice userId fingerprint (deviceFields now trustDevice verified)
      now)).Every (VerifiesOnly checks) := by
  constructor
  · intro s other print hverified
    dsimp only [TimedDb.setDb] at hverified
    obtain ⟨d, hd, huser, hprint, hsome⟩ := hverified
    cases hfound : s.db.deviceOf userId fingerprint with
    | some e =>
      simp only [hfound, Db.table_modify_self] at hd
      obtain ⟨hrow, hown, hsame⟩ := deviceOf_eq_some hfound
      obtain ⟨id, hid⟩ := OrderedMap.mem_values.mp hd
      rw [OrderedMap.get?_modify] at hid
      by_cases heq : id = e.1
      · rw [if_pos heq] at hid
        obtain ⟨d₀, hd₀, rfl⟩ := Option.map_eq_some_iff.mp hid
        rw [heq, show (s.db.table .userDevice).get? e.1 = some e.2 from hrow] at hd₀
        obtain rfl := Option.some.inj hd₀
        have huser' : userId = other := hown ▸ huser
        have hprint' : fingerprint = print := hsame ▸ hprint
        cases verified with
        | true => exact .inr (huser' ▸ hprint' ▸ hchecks rfl)
        | false =>
          left
          exact ⟨e.2, OrderedMap.mem_values.mpr ⟨e.1, hrow⟩, huser, hprint, hsome⟩
      · rw [if_neg heq] at hid
        left
        exact ⟨d, OrderedMap.mem_values.mpr ⟨id, hid⟩, huser, hprint, hsome⟩
    | none =>
      simp only [hfound, Db.table_insert_self] at hd
      rw [OrderedMap.values_create, List.mem_append, List.mem_singleton] at hd
      rcases hd with hold | rfl
      · exact .inl ⟨d, hold, huser, hprint, hsome⟩
      · cases verified with
        | true => exact .inr (huser ▸ hprint ▸ hchecks rfl)
        | false => exact absurd hsome (by simp [deviceFields])
  · exact fun _ => trivial

theorem verifies_seeDevice {userId : Id} {deviceFingerprint : Option String}
    {trustDevice verified : Bool}
    (hchecks : verified = true → ∀ f ∈ truthy deviceFingerprint, (userId, f) ∈ checks) :
    (seeDevice userId deviceFingerprint trustDevice verified).Every (VerifiesOnly checks) := by
  unfold seeDevice
  cases hf : truthy deviceFingerprint with
  | none => trivial
  | some f =>
    apply verifies_date.bind
    intro now
    exact verifies_upsertDevice fun hverified => hchecks hverified f hf

theorem verifies_completeSuccessfulLogin {p : Platform} {userId : Id} {user : User} {raw : String}
    {deviceFingerprint : Option String} {trustDevice verified : Bool} {backupCode : Option String}
    (hchecks : verified = true → ∀ f ∈ truthy deviceFingerprint, (userId, f) ∈ checks) :
    (completeSuccessfulLogin p userId user raw deviceFingerprint trustDevice verified
      backupCode).Every (VerifiesOnly checks) := by
  have htoken : ∀ hash expiry, Quiet [.userDevice] (createRefreshToken userId hash expiry) :=
    fun hash expiry => ⟨fun s => .insert (by decide) s _, fun _ => trivial⟩
  apply verifies_date.bind
  intro now
  apply (verifies_timeless (htoken _ _)).bind
  intro _
  apply (verifies_timeless (Quiet.updateAs (by decide) _ _ _)).bind
  intro _
  apply (verifies_seeDevice hchecks).bind
  intro _
  apply (verifies_timeless (Quiet.create (by decide) _)).bind
  intro _
  apply (verifies_recordLoginAttempt _ _).bind
  intro _
  exact verifies_date.bind fun _ => trivial

theorem verifies_userHasRoleRequiringMfa (userId : Id) :
    (userHasRoleRequiringMfa userId).Every (VerifiesOnly checks) :=
  verifies_date.bind fun _ => verifies_timeless (Quiet.query _)

theorem verifies_isDeviceTrusted (userId : Id) (fingerprint : Option String) :
    (isDeviceTrusted userId fingerprint).Every (VerifiesOnly checks) := by
  unfold isDeviceTrusted
  split
  · trivial
  · apply (verifies_timeless (Quiet.query _)).bind
    intro device
    split
    · trivial
    · apply verifies_date.bind
      intro now
      split
      · exact (verifies_userHasRoleRequiringMfa userId).bind fun _ => trivial
      · trivial

theorem verifies_finishLogin (p : Platform) (request : LoginRequest) (raw : String) (userId : Id)
    (user : User) : (finishLogin p request raw userId user).Every (VerifiesOnly checks) := by
  apply (verifies_isDeviceTrusted _ _).bind
  intro trustedSkip
  split
  · exact verifies_date.bind fun _ => trivial
  · have henroll : (mustEnroll trustedSkip userId).Every (VerifiesOnly checks) := by
      unfold mustEnroll
      split
      · trivial
      · exact verifies_userHasRoleRequiringMfa userId
    apply henroll.bind
    intro enroll
    split
    · exact verifies_date.bind fun _ => trivial
    · exact (verifies_completeSuccessfulLogin fun h => absurd h Bool.false_ne_true).bind
        fun _ => trivial

theorem verifies_login (p : Platform) (request : LoginRequest) (raw : String) :
    (login p request raw).Every (VerifiesOnly checks) := by
  apply (Proc.Every.require _ _).bind
  intro _
  apply (verifies_timeless (Quiet.query _)).bind
  intro found
  apply (Proc.Every.orFail _ _).bind
  intro e
  apply verifies_date.bind
  intro now
  split
  · apply (verifies_recordLoginAttempt _ _).bind
    intro _
    exact verifies_date.bind fun _ => trivial
  · apply (verifies_compareSecret _ _ _).bind
    intro _
    split
    · exact (Proc.Every.require _ _).bind fun _ => verifies_finishLogin p request raw _ _
    · exact (verifies_registerFailedPassword _ _).bind fun _ => trivial

theorem verifies_setUpMfa (userId : Id) (secretEncrypted enrolled : String) :
    (setUpMfa userId secretEncrypted enrolled).Every (VerifiesOnly checks) := by
  have hupsert : Quiet [.userDevice] (upsertMfa userId secretEncrypted) := by
    constructor
    · intro s
      dsimp only
      cases s.mfaOf userId with
      | some x => exact .modify (m := .userMfa) (by decide) s x.1 _
      | none => exact .insert (m := .userMfa) (by decide) s _
    · exact fun _ => trivial
  apply (verifies_timeless (Quiet.query _)).bind
  intro found
  apply (Proc.Every.orFail _ _).bind
  intro x
  exact (Proc.Every.require _ _).bind fun _ => verifies_timeless hupsert

theorem verifies_mfaSetupRequired (p : Platform) (token : Option String)
    (secretEncrypted : String) :
    (mfaSetupRequired p token secretEncrypted).Every (VerifiesOnly checks) := by
  apply (Proc.Every.orFail _ _).bind
  intro token
  apply verifies_date.bind
  intro now
  exact (Proc.Every.orFail _ _).bind fun userId => verifies_setUpMfa userId _ _

theorem verifies_verifyMfa (p : Platform) (userId : Id) (code : String)
    (hashedCodes : List String) :
    (verifyMfa p userId code hashedCodes).Every (VerifiesOnly checks) := by
  have htx : ∀ now, Quiet [.userDevice] (enrollInTx userId now hashedCodes) := fun now =>
    Quiet.bind (quiet_updateMfa _ _ _) fun _ => Quiet.update_end (by decide) _ _
  apply (verifies_timeless (Quiet.query _)).bind
  intro found
  apply (Proc.Every.orFail _ _).bind
  intro x
  apply (Proc.Every.require _ _).bind
  intro _
  apply verifies_date.bind
  intro now
  apply (Proc.Every.require _ _).bind
  intro _
  apply (verifies_timeless (Quiet.transaction _ (htx now))).bind
  intro _
  exact (verifies_timeless (Quiet.create (by decide) _)).bind fun _ => trivial

theorem verifies_mfaVerify (p : Platform) (auth : Auth) (code : String)
    (hashedCodes : List String) :
    (mfaVerify p auth code hashedCodes).Every (VerifiesOnly checks) := by
  apply (Proc.Every.require _ _).bind
  intro _
  exact (verifies_verifyMfa p _ _ _).bind fun _ => trivial

theorem verifies_mfaDisable (p : Platform) (auth : Auth) (password : String) :
    (mfaDisable p auth password).Every (VerifiesOnly checks) := by
  have htx : Quiet [.userDevice] (disenrollInTx auth.userId) :=
    Quiet.bind ⟨fun s => .setTable (by decide) s _, fun _ => trivial⟩
      fun _ => Quiet.update_end (by decide) _ _
  apply (verifies_timeless (Quiet.query _)).bind
  intro found
  apply (Proc.Every.orFail _ _).bind
  intro user
  apply (Proc.Every.require _ _).bind
  intro _
  apply (verifies_timeless (Quiet.transaction _ htx)).bind
  intro _
  exact (verifies_timeless (Quiet.create (by decide) _)).bind fun _ => trivial

theorem verifies_deleteDevice (auth : Auth) (id : Id) :
    (deleteDevice auth id).Every (VerifiesOnly checks) := by
  apply (verifies_timeless (Quiet.query _)).bind
  intro found
  apply (Proc.Every.orFail _ _).bind
  intro d
  apply Proc.Every.bind
  · constructor
    · intro s other print hverified
      obtain ⟨d, hd, hdevice⟩ := hverified
      left
      obtain ⟨id', hid⟩ := OrderedMap.mem_values.mp hd
      dsimp only [TimedDb.setDb] at hid
      rw [Db.table_setTable_self, OrderedMap.get?_filter] at hid
      have hrow := (Option.filter_eq_some_iff.mp hid).1
      exact ⟨d, OrderedMap.mem_values.mpr ⟨id', hrow⟩, hdevice⟩
    · exact fun _ => trivial
  · intro _
    exact (verifies_timeless (Quiet.create (by decide) _)).bind fun _ => trivial

end Statements

/-! ## Checks of a code -/

section Checks

variable (p : Platform) {s : TimedDb} {α β : Type} {Q : Except Failure α → TimedDb → Prop}

theorem ends_date {f : DateTime → TimedHandler α} (h : (f s.clock).Ends Q s) :
    (date >>= f).Ends Q s := h

theorem ends_timeless_query {f : Db → β} {k : β → TimedHandler α} (h : (k (f s.db)).Ends Q s) :
    (timeless (query f) >>= k).Ends Q s := h

/-- The user and the device for whom a request of the second step brings a right code. -/
def LoginMfaRequest.checked (request : LoginMfaRequest) (s : TimedDb) : Option (Id × String) := do
  let userId ← p.verifyMfaPendingToken request.mfaPendingToken s.clock
  let found ← (userWithMfa s.db userId).filter fun x => x.2.verifiedAt.isSome
  let _ ← matchCode p request.code found.2 s.clock
  let fingerprint ← truthy request.deviceFingerprint
  return (userId, fingerprint)

/-- The same for a request that finishes an enrolment. -/
def VerifyRequiredRequest.checked (request : VerifyRequiredRequest) (s : TimedDb) :
    Option (Id × String) := do
  let userId ← p.verifyMfaPendingToken request.mfaPendingToken s.clock
  let found ← userWithMfa s.db userId
  guard (p.verifyTotpCode request.code (p.decryptSecret found.2.secretEncrypted) s.clock = true)
  let fingerprint ← truthy request.deviceFingerprint
  return (userId, fingerprint)

theorem loginMfa_verifies (request : LoginMfaRequest) (raw : String) (s : TimedDb) :
    VerifiesOnly (request.checked p s).toList s ((loginMfa p request raw).run s).2 := by
  have hend : (loginMfa p request raw).Ends
      (fun _ t => VerifiesOnly (request.checked p s).toList s t) s := by
    apply Proc.Ends.require ?_ fun _ => .refl s
    intro _
    apply ends_date
    apply Proc.Ends.orFail ?_ fun _ => .refl s
    intro userId huser
    apply ends_timeless_query
    apply Proc.Ends.orFail ?_ fun _ => .refl s
    intro x hx
    apply ends_date
    apply Proc.Ends.require ?_ fun _ => .refl s
    intro _
    apply ends_date
    cases hmatch : matchCode p request.code x.2 s.clock with
    | some how =>
      have hchecks : true = true → ∀ f ∈ truthy request.deviceFingerprint,
          (userId, f) ∈ (request.checked p s).toList := by
        intro _ f hf
        have hchecked : request.checked p s = some (userId, f) := by
          simp [LoginMfaRequest.checked, huser, hx, hmatch, Option.mem_def.mp hf]
        simp [hchecked]
      have hconsume : (consumeBackupCode userId x.2 how).Every
          (VerifiesOnly (request.checked p s).toList) := by
        cases how with
        | totp => trivial
        | backup code rest =>
          exact (verifies_timeless (quiet_updateMfa _ _ _)).bind fun _ => trivial
      exact ((verifies_compareSecret _ _ _).bind fun _ => hconsume.bind fun _ =>
        verifies_completeSuccessfulLogin hchecks).run .refl .trans s
    | none =>
      have hfails : ∀ error : Bool → Failure, (do
          compareSecret userId x.1 false
          let lockedNow ← registerFailedPassword userId x.1
          recordLoginAttempt userId .failedMfa
          Proc.fail (error lockedNow) : TimedHandler Session).Every
            (VerifiesOnly (request.checked p s).toList) := fun error =>
        (verifies_compareSecret _ _ _).bind fun _ => (verifies_registerFailedPassword _ _).bind
          fun _ => (verifies_recordLoginAttempt _ _).bind fun _ => trivial
      exact (hfails _).run .refl .trans s
  exact hend

theorem mfaVerifyRequired_verifies (request : VerifyRequiredRequest) (hashedCodes : List String)
    (raw : String) (s : TimedDb) :
    VerifiesOnly (request.checked p s).toList s
      ((mfaVerifyRequired p request hashedCodes raw).run s).2 := by
  have hend : (mfaVerifyRequired p request hashedCodes raw).Ends
      (fun _ t => VerifiesOnly (request.checked p s).toList s t) s := by
    apply Proc.Ends.require ?_ fun _ => .refl s
    intro _
    apply ends_date
    apply Proc.Ends.orFail ?_ fun _ => .refl s
    intro userId huser
    -- a code that is wrong ends the request before anything is written
    by_cases hright : ∃ x, userWithMfa s.db userId = some x ∧
        p.verifyTotpCode request.code (p.decryptSecret x.2.secretEncrypted) s.clock = true
    · obtain ⟨x, hx, hcode⟩ := hright
      have hchecks : true = true → ∀ f ∈ truthy request.deviceFingerprint,
          (userId, f) ∈ (request.checked p s).toList := by
        intro _ f hf
        have hchecked : request.checked p s = some (userId, f) := by
          simp [VerifyRequiredRequest.checked, huser, hx, hcode, Option.mem_def.mp hf]
        simp [hchecked]
      exact ((verifies_verifyMfa p _ _ _).bind fun _ =>
        verifies_completeSuccessfulLogin hchecks).run .refl .trans s
    · have hfails : (verifyMfa p userId request.code hashedCodes).Ends
          (fun r t => (∃ e, r = .error e) ∧ t = s) s := by
        apply ends_timeless_query
        apply Proc.Ends.orFail ?_ fun _ => ⟨⟨_, rfl⟩, rfl⟩
        intro x hx
        apply Proc.Ends.require ?_ fun _ => ⟨⟨_, rfl⟩, rfl⟩
        intro _
        apply ends_date
        apply Proc.Ends.require ?_ fun _ => ⟨⟨_, rfl⟩, rfl⟩
        exact fun hcode => absurd ⟨x, hx, hcode⟩ hright
      apply hfails.bind
      · rintro user t ⟨⟨e, he⟩, -⟩
        exact absurd he nofun
      · rintro e t ⟨-, rfl⟩
        exact .refl t
  exact hend

end Checks

/-! ## Runs -/

/-- A call that may bear on the second factor.  The last constructor stands for every other piece
of code that leaves the devices alone, such as an edit of a role or the suspension of a user. -/
inductive AuthCall
  | login (request : LoginRequest) (raw : String)
  | loginMfa (request : LoginMfaRequest) (raw : String)
  | mfaSetupRequired (token : Option String) (secretEncrypted : String)
  | mfaVerifyRequired (request : VerifyRequiredRequest) (hashedCodes : List String) (raw : String)
  | mfaSetup (auth : Auth) (secretEncrypted : String)
  | mfaVerify (auth : Auth) (code : String) (hashedCodes : List String)
  | mfaDisable (auth : Auth) (password : String)
  | deleteDevice (auth : Auth) (id : Id)
  | createRole (auth : Auth) (input : RoleInput)
  | assignRole (auth : Auth) (input : RoleAssignment)
  | revokeRole (auth : Auth) (userRoleId : Id)
  | passTime (ms : ℕ)
  | other (q : TimedHandler Unit)
      (h : q.Every fun s t => t.db.table .userDevice = s.db.table .userDevice)

namespace AuthCall

variable (p : Platform)

def handler : AuthCall → TimedHandler Unit
  | login request raw => do let _ ← NexusEfos.login p request raw
  | loginMfa request raw => do let _ ← NexusEfos.loginMfa p request raw
  | mfaSetupRequired token secretEncrypted => NexusEfos.mfaSetupRequired p token secretEncrypted
  | mfaVerifyRequired request hashedCodes raw => do
    let _ ← NexusEfos.mfaVerifyRequired p request hashedCodes raw
  | mfaSetup auth secretEncrypted => NexusEfos.mfaSetup auth secretEncrypted
  | mfaVerify auth code hashedCodes => NexusEfos.mfaVerify p auth code hashedCodes
  | mfaDisable auth password => NexusEfos.mfaDisable p auth password
  | deleteDevice auth id => NexusEfos.deleteDevice auth id
  | createRole auth input => do let _ ← timeless (NexusEfos.createRole auth input)
  | assignRole auth input => do
    let now ← date
    let _ ← timeless (NexusEfos.assignRole auth now input)
  | revokeRole auth userRoleId => timeless (NexusEfos.revokeRole auth userRoleId)
  | passTime ms => NexusEfos.passTime ms
  | other q _ => q

/-- The user and the device for whom the call brings a right code. -/
def checked : AuthCall → TimedDb → Option (Id × String)
  | loginMfa request _, s => request.checked p s
  | mfaVerifyRequired request _ _, s => request.checked p s
  | _, _ => none

/-- The database after calls in a row. -/
def after (calls : List AuthCall) (s : TimedDb) : TimedDb :=
  Proc.runAll (calls.map (handler p)) s

/-- The checks of a code that calls in a row have passed. -/
def checks : List AuthCall → TimedDb → List (Id × String)
  | [], _ => []
  | call :: calls, s => (call.checked p s).toList ++ checks calls ((call.handler p).run s).2

/-- What a call does to the state, its answer thrown away. -/
theorem run_discard {α : Type} (q : TimedHandler α) (s : TimedDb) :
    ((do let _ ← q : TimedHandler Unit).run s).2 = (q.run s).2 := by
  rw [Proc.run_bind]
  cases h : q.run s with
  | mk r t =>
    cases r with
    | ok a => rfl
    | error e => rfl

/-- A device that a call has verified is one for which it brought a right code. -/
theorem verifies (call : AuthCall) (s : TimedDb) :
    VerifiesOnly (call.checked p s).toList s ((call.handler p).run s).2 := by
  have hevery : ∀ {q : TimedHandler Unit} {checks : List (Id × String)},
      q.Every (VerifiesOnly checks) → VerifiesOnly checks s (q.run s).2 :=
    fun hq => hq.run .refl .trans s
  cases call with
  | login request raw => exact hevery ((verifies_login p request raw).bind fun _ => trivial)
  | loginMfa request raw =>
    show VerifiesOnly _ s (Proc.run (do let _ ← NexusEfos.loginMfa p request raw) s).2
    rw [run_discard]
    exact loginMfa_verifies p request raw s
  | mfaSetupRequired token secretEncrypted => exact hevery (verifies_mfaSetupRequired p _ _)
  | mfaVerifyRequired request hashedCodes raw =>
    show VerifiesOnly _ s (Proc.run (do
      let _ ← NexusEfos.mfaVerifyRequired p request hashedCodes raw) s).2
    rw [run_discard]
    exact mfaVerifyRequired_verifies p request hashedCodes raw s
  | mfaSetup auth secretEncrypted => exact hevery (verifies_setUpMfa _ _ _)
  | mfaVerify auth code hashedCodes => exact hevery (verifies_mfaVerify p _ _ _)
  | mfaDisable auth password => exact hevery (verifies_mfaDisable p _ _)
  | deleteDevice auth id => exact hevery (verifies_deleteDevice _ _)
  | createRole auth input =>
    exact hevery ((verifies_timeless (quiet_createRole (by decide) (by decide) (by decide) _ _)).bind
      fun _ => trivial)
  | assignRole auth input =>
    exact hevery (verifies_date.bind fun _ => (verifies_timeless
      (quiet_assignRole (by decide) (by decide) _ _ _)).bind
      fun _ => trivial)
  | revokeRole auth userRoleId =>
    exact hevery (verifies_timeless (quiet_revokeRole (by decide) (by decide) _ _))
  | passTime ms => exact .of_table_eq rfl
  | other q h => exact hevery (h.imp fun _ _ hsame => .of_table_eq hsame)

/-- The same for calls in a row. -/
theorem verifies_after (calls : List AuthCall) (s : TimedDb) :
    VerifiesOnly (checks p calls s) s (after p calls s) := by
  induction calls generalizing s with
  | nil => exact .refl s
  | cons call calls ih => exact (call.verifies p s).append (ih _)

end AuthCall

/-! ## Who is let in -/

section Admission

variable (p : Platform)

/-- The device with the fingerprint spares the user of the second factor. -/
def TimedDb.SkipsMfa (s : TimedDb) (userId : Id) (fingerprint : Option String) : Prop :=
  ∃ f ∈ truthy fingerprint, ∃ e ∈ s.db.deviceOf userId f, e.2.TrustedAt s.clock ∧
    ¬ (s.db.RequiresMfa s.clock userId ∧ e.2.mfaVerifiedAt.isNone = true)

instance (s : TimedDb) (userId : Id) (fingerprint : Option String) :
    Decidable (s.SkipsMfa userId fingerprint) :=
  inferInstanceAs (Decidable (∃ f ∈ truthy fingerprint, ∃ e ∈ s.db.deviceOf userId f, _))

theorem skipsMfa_iff {s : TimedDb} {userId : Id} {fingerprint : Option String} {f : String}
    (hf : truthy fingerprint = some f) : s.SkipsMfa userId fingerprint ↔
      ∃ e, s.db.deviceOf userId f = some e ∧ e.2.TrustedAt s.clock ∧
        ¬ (s.db.RequiresMfa s.clock userId ∧ e.2.mfaVerifiedAt.isNone = true) := by
  unfold TimedDb.SkipsMfa
  rw [hf]
  simp only [Option.mem_def, Option.some.injEq, exists_eq_left']

theorem run_isDeviceTrusted (s : TimedDb) (userId : Id) (fingerprint : Option String) :
    (isDeviceTrusted userId fingerprint).run s =
      (.ok (decide (s.SkipsMfa userId fingerprint)), s) := by
  have hread : ∀ {β : Type} (g : Db → β) (k : β → TimedHandler Bool),
      (timeless (query g) >>= k).run s = (k (g s.db)).run s := fun _ _ => rfl
  unfold isDeviceTrusted
  cases hf : truthy fingerprint with
  | none => simp [TimedDb.SkipsMfa, hf]
  | some f =>
    have hiff : s.SkipsMfa userId fingerprint ↔ _ := skipsMfa_iff hf
    dsimp only
    rw [hread]
    cases hd : s.db.deviceOf userId f with
    | none =>
      have hnot : ¬ s.SkipsMfa userId fingerprint := by simp [hiff, hd]
      rw [decide_eq_false hnot]
      rfl
    | some e =>
      show (if e.2.TrustedAt s.clock then (do
          let requires ← userHasRoleRequiringMfa userId
          return ! (requires && e.2.mfaVerifiedAt.isNone)) else
        (return false : TimedHandler Bool)).run s = _
      by_cases ht : e.2.TrustedAt s.clock
      · rw [if_pos ht]
        show ((.ok (! (decide (s.db.RequiresMfa s.clock userId) && e.2.mfaVerifiedAt.isNone)), s) :
          Except Failure Bool × TimedDb) = _
        cases hv : e.2.mfaVerifiedAt with
        | none => simp [hiff, hd, ht, hv]
        | some _ => simp [hiff, hd, ht, hv]
      · rw [if_neg ht]
        have hnot : ¬ s.SkipsMfa userId fingerprint := by simp [hiff, hd, ht]
        rw [decide_eq_false hnot]
        rfl

/-- The password of an active user who is not locked out. -/
structure LoginRequest.Admitted (request : LoginRequest) (s : TimedDb) (userId : Id)
    (user : User) : Prop where
  email : p.isEmail request.email = true
  found : request.userOf s.db = some (userId, user)
  unlocked : ¬ user.LockedAt s.clock
  password : p.bcryptCompare request.password user.passwordHash = true
  active : user.status = .active

/-- Past the password, the device or the lack of a second factor lets a user in. -/
theorem run_finishLogin_session {request : LoginRequest} {raw : String} {userId : Id} {user : User}
    {s t : TimedDb} {session : Session}
    (h : (finishLogin p request raw userId user).run s = (.ok (.session session), t)) :
    (s.SkipsMfa userId request.deviceFingerprint ∨
      user.mfaEnabled = false ∧ ¬ s.db.RequiresMfa s.clock userId) ∧
      (completeSuccessfulLogin p userId user raw request.deviceFingerprint request.trustDevice
        false none).run s = (.ok session, t) := by
  unfold finishLogin at h
  rw [Proc.run_bind_ok (run_isDeviceTrusted s userId request.deviceFingerprint)] at h
  by_cases hskip : s.SkipsMfa userId request.deviceFingerprint
  · rw [decide_eq_true hskip, if_neg (by simp)] at h
    obtain ⟨session', t', hrun, hend⟩ := Proc.run_bind_eq_ok
      (show (completeSuccessfulLogin p userId user raw request.deviceFingerprint
        request.trustDevice false none >>= fun session => pure (LoginAnswer.session session)).run s
          = _ from h)
    simp only [Proc.pure_def, Proc.run_done, Prod.mk.injEq, Except.ok.injEq,
      LoginAnswer.session.injEq] at hend
    rw [hend.1, hend.2] at hrun
    exact ⟨.inl hskip, hrun⟩
  · rw [decide_eq_false hskip] at h
    by_cases henabled : user.mfaEnabled = true
    · rw [if_pos ⟨by simp, henabled⟩] at h
      exact absurd (congrArg Prod.fst h) (by simp [date, Proc.exec])
    · rw [if_neg (fun hboth => henabled hboth.2)] at h
      have hrequires : (mustEnroll false userId).run s =
          (.ok (decide (s.db.RequiresMfa s.clock userId)), s) := rfl
      rw [Proc.run_bind_ok hrequires] at h
      by_cases hmust : s.db.RequiresMfa s.clock userId
      · rw [if_pos (decide_eq_true hmust)] at h
        exact absurd (congrArg Prod.fst h) (by simp [date, Proc.exec])
      · rw [if_neg (by simpa using hmust)] at h
        obtain ⟨session', t', hrun, hend⟩ := Proc.run_bind_eq_ok h
        simp only [Proc.pure_def, Proc.run_done, Prod.mk.injEq, Except.ok.injEq,
          LoginAnswer.session.injEq] at hend
        rw [hend.1, hend.2] at hrun
        exact ⟨.inr ⟨by simpa using henabled, hmust⟩, hrun⟩

theorem run_recordLoginAttempt (userId : Id) (result : LoginResult) (s : TimedDb) :
    (recordLoginAttempt userId result).run s =
      (.ok (), s.setDb (s.db.insert .userLoginHistory ⟨userId, result⟩)) := rfl

theorem run_seeDevice (userId : Id) (deviceFingerprint : Option String)
    (trustDevice verified : Bool) (s : TimedDb) :
    ∃ t, (seeDevice userId deviceFingerprint trustDevice verified).run s = (.ok (), t) := by
  unfold seeDevice
  cases truthy deviceFingerprint with
  | none => exact ⟨s, rfl⟩
  | some f =>
    show ∃ t, (timeless (upsertDevice userId f (deviceFields s.clock trustDevice verified)
      s.clock)).run s = (.ok (), t)
    exact ⟨_, rfl⟩

/-- A login that is completed for a user who exists is answered with a session. -/
theorem run_completeSuccessfulLogin {userId : Id} {user u : User} {raw : String}
    {deviceFingerprint : Option String} {trustDevice verified : Bool} {backupCode : Option String}
    {s : TimedDb} (hrow : s.db.find? .user userId = some u) :
    ∃ session t, (completeSuccessfulLogin p userId user raw deviceFingerprint trustDevice verified
      backupCode).run s = (.ok session, t) ∧ session.userId = userId := by
  unfold completeSuccessfulLogin
  show ∃ session t, (timeless (createRefreshToken userId (p.hashRefreshToken raw)
    (s.clock + p.refreshTtlDays * msPerDay)) >>= _).run s = (.ok session, t) ∧ _
  have htoken : ∀ hash expiry, (timeless (createRefreshToken userId hash expiry)).run s =
      (.ok (s.db.nextId .refreshToken), s.setDb (s.db.insert .refreshToken
        { userId, tokenHash := hash, expiresAt := expiry,
          familyId := s.db.nextId .refreshToken })) := fun _ _ => rfl
  rw [Proc.run_bind_ok (htoken _ _)]
  have hfound : ∀ row, (s.setDb (s.db.insert .refreshToken row)).db.find? .user userId = some u := by
    intro row
    show (s.db.insert .refreshToken row).find? .user userId = some u
    rw [Db.find?_insert_of_ne (by decide), hrow]
  have hreset : ∀ (lab : Access) (f : User → User) (t : TimedDb), t.db.find? .user userId = some u →
      (timeless (updateAs lab .user userId f)).run t =
        (.ok (f u), t.setDb (t.db.modify .user userId f)) := by
    intro lab f t ht
    simp [timeless, updateAs, Proc.attempt, ht]
  rw [Proc.run_bind_ok (hreset _ _ _ (hfound _))]
  rw [Proc.run_bind_ok (run_seeDevice _ _ _ _ _).choose_spec]
  exact ⟨_, _, rfl, rfl⟩

/-- A completed login answers with a session of its user. -/
theorem completeSuccessfulLogin_userId {userId : Id} {user : User} {raw : String}
    {deviceFingerprint : Option String} {trustDevice verified : Bool} {backupCode : Option String}
    {s t : TimedDb} {session : Session}
    (h : (completeSuccessfulLogin p userId user raw deviceFingerprint trustDevice verified
      backupCode).run s = (.ok session, t)) : session.userId = userId := by
  obtain ⟨_, _, -, h⟩ := Proc.run_bind_eq_ok h
  obtain ⟨_, _, -, h⟩ := Proc.run_bind_eq_ok h
  obtain ⟨_, _, -, h⟩ := Proc.run_bind_eq_ok h
  obtain ⟨_, _, -, h⟩ := Proc.run_bind_eq_ok h
  obtain ⟨_, _, -, h⟩ := Proc.run_bind_eq_ok h
  obtain ⟨_, _, -, h⟩ := Proc.run_bind_eq_ok h
  obtain ⟨_, _, -, h⟩ := Proc.run_bind_eq_ok h
  rw [← Except.ok.inj (Prod.mk.inj h).1]

/-- A user who is found by a request is the row under its key. -/
theorem LoginRequest.find?_of_userOf {request : LoginRequest} {s : Db} {e : Id × User}
    (h : request.userOf s = some e) : s.find? .user e.1 = some e.2 :=
  OrderedMap.get?_eq_some.mpr (List.mem_of_find?_eq_some h)

/-- Who is let in without a code. -/
theorem login_session_iff (request : LoginRequest) (raw : String) (s : TimedDb) (userId : Id) :
    (∃ session t, (login p request raw).run s = (.ok (.session session), t) ∧
        session.userId = userId) ↔
      ∃ user, request.Admitted p s userId user ∧ (s.SkipsMfa userId request.deviceFingerprint ∨
        user.mfaEnabled = false ∧ ¬ s.db.RequiresMfa s.clock userId) := by
  constructor
  · rintro ⟨session, t, h, rfl⟩
    unfold login at h
    by_cases hemail : p.isEmail request.email = true
    · rw [Proc.require_pos hemail] at h
      change (Proc.orFail (request.userOf s.db) _ >>= _).run s = _ at h
      cases hfound : request.userOf s.db with
      | none =>
        rw [hfound] at h
        exact absurd (congrArg Prod.fst h) nofun
      | some e =>
        rw [hfound] at h
        change (if e.2.LockedAt s.clock then _ else _ : TimedHandler LoginAnswer).run s = _ at h
        by_cases hlocked : e.2.LockedAt s.clock
        · rw [if_pos hlocked, Proc.run_bind_ok (run_recordLoginAttempt _ _ _)] at h
          exact absurd (congrArg Prod.fst h) nofun
        · rw [if_neg hlocked] at h
          change (if p.bcryptCompare request.password e.2.passwordHash = true then _ else _ :
            TimedHandler LoginAnswer).run s = _ at h
          by_cases hpassword : p.bcryptCompare request.password e.2.passwordHash = true
          · rw [if_pos hpassword] at h
            by_cases hactive : e.2.status = .active
            · rw [Proc.require_pos hactive] at h
              obtain ⟨hhow, hrun⟩ := run_finishLogin_session p
                (show (finishLogin p request raw e.1 e.2).run s = _ from h)
              rw [completeSuccessfulLogin_userId p hrun]
              exact ⟨e.2, ⟨hemail, hfound, hlocked, hpassword, hactive⟩, hhow⟩
            · rw [Proc.require_neg hactive] at h
              exact absurd (congrArg Prod.fst h) nofun
          · rw [if_neg hpassword] at h
            obtain ⟨_, _, -, hend⟩ := Proc.run_bind_eq_ok h
            exact absurd (congrArg Prod.fst hend) nofun
    · rw [Proc.require_neg hemail] at h
      exact absurd (congrArg Prod.fst h) nofun
  · rintro ⟨user, hadmitted, hhow⟩
    have hrow := LoginRequest.find?_of_userOf hadmitted.found
    obtain ⟨session, t, hrun, huser⟩ : ∃ session t, (completeSuccessfulLogin p userId user raw
        request.deviceFingerprint request.trustDevice false none).run s = (.ok session, t) ∧
          session.userId = userId := run_completeSuccessfulLogin p hrow
    refine ⟨session, t, ?_, huser⟩
    unfold login
    rw [Proc.require_pos hadmitted.email]
    show (Proc.orFail (request.userOf s.db) _ >>= _).run s = _
    rw [hadmitted.found]
    show (if user.LockedAt s.clock then _ else _ : TimedHandler LoginAnswer).run s = _
    rw [if_neg hadmitted.unlocked]
    show (if p.bcryptCompare request.password user.passwordHash = true then _ else _ :
      TimedHandler LoginAnswer).run s = _
    rw [if_pos hadmitted.password, Proc.require_pos hadmitted.active]
    show (finishLogin p request raw userId user).run s = _
    unfold finishLogin
    rw [Proc.run_bind_ok (run_isDeviceTrusted s userId request.deviceFingerprint)]
    have hdone : ∀ enroll : Bool, enroll = false → (if enroll = true then (do
        let now ← date
        return .mfaSetupRequired (p.signMfaPendingToken userId now)) else do
        let session ← completeSuccessfulLogin p userId user raw request.deviceFingerprint
          request.trustDevice false none
        return .session session : TimedHandler LoginAnswer).run s = (.ok (.session session), t) := by
      rintro _ rfl
      rw [if_neg (by simp), Proc.run_bind_ok hrun]
      rfl
    by_cases hskip : s.SkipsMfa userId request.deviceFingerprint
    · rw [decide_eq_true hskip, if_neg (by simp)]
      exact hdone false rfl
    · obtain ⟨henabled, hrequires⟩ := hhow.resolve_left hskip
      rw [decide_eq_false hskip, if_neg (by simp [henabled])]
      exact hdone _ (decide_eq_false hrequires)

end Admission

/-! ## The second factor of those who are let in -/

section Sessions

variable (p : Platform)

/-- The user has enrolled in the second factor or holds an active role that demands it. -/
def TimedDb.NeedsMfa (s : TimedDb) (userId : Id) : Prop :=
  (∃ u ∈ s.db.find? .user userId, u.mfaEnabled = true) ∨ s.db.RequiresMfa s.clock userId

/-- Whom the request lets in although a second factor is needed, it lets in by a device that is
trusted and has been `verified`. -/
def LoginRequest.RespectsMfa (request : LoginRequest) (raw : String) (s : TimedDb)
    (verified : Id → String → Prop) : Prop :=
  ∀ session t, (login p request raw).run s = (.ok (.session session), t) →
    s.NeedsMfa session.userId → ∃ f ∈ request.deviceFingerprint,
      ∃ e ∈ s.db.deviceOf session.userId f, e.2.TrustedAt s.clock ∧
        e.2.mfaVerifiedAt.isSome = true ∧ verified session.userId f

/-- The request lets in a user who has enrolled by choice, by a device that was trusted without a
check of a code. -/
def LoginRequest.SkipsUnchecked (request : LoginRequest) (s : TimedDb) : Prop :=
  p.isEmail request.email = true ∧ ∃ x ∈ request.userOf s.db,
    (¬ x.2.LockedAt s.clock ∧ p.bcryptCompare request.password x.2.passwordHash = true ∧
      x.2.status = .active ∧ x.2.mfaEnabled = true ∧ ¬ s.db.RequiresMfa s.clock x.1) ∧
    ∃ f ∈ truthy request.deviceFingerprint, ∃ e ∈ s.db.deviceOf x.1 f,
      e.2.TrustedAt s.clock ∧ e.2.mfaVerifiedAt.isNone = true

instance (request : LoginRequest) (s : TimedDb) : Decidable (request.SkipsUnchecked p s) :=
  inferInstanceAs (Decidable (_ ∧ ∃ x ∈ request.userOf s.db, _))

variable {p} {request : LoginRequest} {raw : String} {s : TimedDb} {verified : Id → String → Prop}

theorem not_respectsMfa (h : request.SkipsUnchecked p s) :
    ¬ request.RespectsMfa p raw s verified := by
  obtain ⟨hemail, x, hfound, ⟨hunlocked, hpassword, hactive, henabled, hfree⟩, f, hf, e, he,
    htrusted, hunverified⟩ := h
  intro hrespects
  have hskip : s.SkipsMfa x.1 request.deviceFingerprint :=
    ⟨f, hf, e, he, htrusted, fun hboth => hfree hboth.1⟩
  obtain ⟨session, t, hrun, huser⟩ := (login_session_iff p request raw s x.1).mpr
    ⟨x.2, ⟨hemail, hfound, hunlocked, hpassword, hactive⟩, .inl hskip⟩
  have hrow := LoginRequest.find?_of_userOf hfound
  have hneeds : s.NeedsMfa session.userId := by
    rw [huser]
    exact .inl ⟨x.2, hrow, henabled⟩
  obtain ⟨f', hf', e', he', -, hverified, -⟩ := hrespects session t hrun hneeds
  rw [huser] at he'
  have hprint : request.deviceFingerprint = some f := (Option.filter_eq_some_iff.mp hf).1
  obtain rfl : f' = f := Option.some.inj (hf'.symm.trans hprint)
  obtain rfl : e' = e := Option.some.inj (he'.symm.trans he)
  rw [Option.isNone_iff_eq_none.mp hunverified] at hverified
  exact absurd hverified Bool.false_ne_true

theorem respectsMfa (hverified : ∀ userId f, s.db.VerifiedDevice userId f → verified userId f)
    (h : ¬ request.SkipsUnchecked p s) : request.RespectsMfa p raw s verified := by
  intro session t hrun hneeds
  obtain ⟨user, hadmitted, hhow⟩ := (login_session_iff p request raw s session.userId).mp
    ⟨session, t, hrun, rfl⟩
  have hrow := LoginRequest.find?_of_userOf hadmitted.found
  have henrolled : user.mfaEnabled = true ∨ s.db.RequiresMfa s.clock session.userId := by
    rcases hneeds with ⟨u, hu, henabled⟩ | hrequires
    · left
      obtain rfl : u = user := Option.some.inj (hu.symm.trans hrow)
      exact henabled
    · exact .inr hrequires
  rcases hhow with ⟨f, hf, e, he, htrusted, hpolicy⟩ | ⟨hdisabled, hfree⟩
  · have hsome : e.2.mfaVerifiedAt.isSome = true := by
      by_contra hnone
      have hisNone : e.2.mfaVerifiedAt.isNone = true := by simpa using hnone
      have hfree : ¬ s.db.RequiresMfa s.clock session.userId := fun hboth =>
        hpolicy ⟨hboth, hisNone⟩
      exact h ⟨hadmitted.email, _, hadmitted.found, ⟨hadmitted.unlocked, hadmitted.password,
        hadmitted.active, henrolled.resolve_right hfree, hfree⟩, f, hf, e, he, htrusted, hisNone⟩
    obtain ⟨hdevice, hown, hprint⟩ := deviceOf_eq_some he
    have hf' := (Option.filter_eq_some_iff.mp hf).1
    have hmem : e.2 ∈ (s.db.table .userDevice).values := OrderedMap.mem_values.mpr ⟨e.1, hdevice⟩
    exact ⟨f, hf', e, he, htrusted, hsome, hverified _ _ ⟨e.2, hmem, hown, hprint, hsome⟩⟩
  · rcases henrolled with henabled | hrequires
    · rw [hdisabled] at henabled
      exact absurd henabled Bool.false_ne_true
    · exact absurd hrequires hfree

end Sessions

/-- After every run, a `POST /login` answers a user who needs the second factor with a session
only for a device that is trusted, unexpired and verified, and for which the run has passed a check
of a code unless it had been verified before; but for the logins that let in a user who has enrolled
by choice, by a device that was trusted without a check. -/
theorem login_respects_iff (p : Platform) (calls : List AuthCall) (s : TimedDb)
    (request : LoginRequest) (raw : String) :
    request.RespectsMfa p raw (AuthCall.after p calls s) (fun userId f =>
        s.db.VerifiedDevice userId f ∨ (userId, f) ∈ AuthCall.checks p calls s) ↔
      ¬ request.SkipsUnchecked p (AuthCall.after p calls s) := by
  constructor
  · exact fun hrespects hskips => not_respectsMfa hskips hrespects
  · exact respectsMfa (AuthCall.verifies_after p calls s)

/-! ## A device that was trusted before the enrolment -/

/-- A platform on which a hash is the text itself and a code is right when it is the secret. -/
def plainPlatform : Platform where
  isEmail := fun _ => true
  bcryptCompare := fun text hash => text == hash
  decryptSecret := id
  verifyTotpCode := fun code secret _ => code == secret
  normalizeCode := id
  signMfaPendingToken := fun _ _ => "pending"
  verifyMfaPendingToken := fun _ _ => some 1
  signAccessToken := fun _ _ _ _ => "access"
  hashRefreshToken := id
  refreshTtlDays := 30

/-- A user with a password and nothing else. -/
def userDb : TimedDb where
  db := Db.empty.insert .user
    { institutionId := 1, email := "ama@efos", passwordHash := "cedi and pesewa",
      status := .active }
  clock := 0

/-- A login that asks for its device to be trusted. -/
def trustingLogin : LoginRequest where
  email := "ama@efos"
  password := "cedi and pesewa"
  deviceFingerprint := some "phone"
  trustDevice := true

/-- The user logs in, has the phone trusted, and then enrolls: the phone still spares her of the
second factor. -/
theorem login_skips_second_factor :
    ¬ ∀ (p : Platform) (calls : List AuthCall) (s : TimedDb) (request : LoginRequest)
        (raw : String),
      request.RespectsMfa p raw (AuthCall.after p calls s) (fun userId f =>
        s.db.VerifiedDevice userId f ∨ (userId, f) ∈ AuthCall.checks p calls s) := by
  intro h
  have hrespects := h plainPlatform
    [.login trustingLogin "first", .mfaSetup ⟨1, 1⟩ "123456", .mfaVerify ⟨1, 1⟩ "123456" []] userDb
    trustingLogin "second"
  apply not_respectsMfa _ hrespects
  decide +kernel

end NexusEfos
