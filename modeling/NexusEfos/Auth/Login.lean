/-
Logging in: `routes/auth.routes.ts` and `lib/security.ts`.

The state is the database together with the clock of the server, which `date` reads in a
statement of its own.  What the program calls of other libraries, and the settings of the server,
are the fields of a `Platform`.  A random value is an argument of the request that draws it.
-/
import NexusEfos.Dates
import NexusEfos.Prisma

namespace NexusEfos

/-! ## The clock -/

/-- The database and the clock of the server. -/
structure TimedDb where
  db : Db
  clock : DateTime

def TimedDb.setDb (db : Db) (s : TimedDb) : TimedDb := { s with db }

abbrev TimedHandler (α : Type) := Proc Access TimedDb Failure α

/-- Code that does not look at the clock. -/
def timeless {α : Type} (p : Handler α) : TimedHandler α := p.onPart TimedDb.db TimedDb.setDb

/-- `new Date()`. -/
def date : TimedHandler DateTime := Proc.exec {} fun s => (s.clock, s)

/-- The clock goes on. -/
def passTime (ms : ℕ) : TimedHandler Unit :=
  Proc.exec {} fun s => ((), { s with clock := s.clock + ms })

/-! ## The policy -/

def failedAttemptThreshold : ℕ := 5

def lockoutExpiryDate (start : DateTime) : DateTime := start + 30 * 60 * 1000

def deviceTrustExpiryDate (start : DateTime) : DateTime := start + 30 * msPerDay

/-- What the login uses of other libraries, and the settings of the server. -/
structure Platform where
  isEmail : String → Bool
  bcryptCompare : String → String → Bool
  /-- `decryptSecret`. -/
  decryptSecret : String → String
  /-- `verifyTotpCode`, at a moment. -/
  verifyTotpCode : String → String → DateTime → Bool
  /-- `code.trim().toUpperCase()`. -/
  normalizeCode : String → String
  signMfaPendingToken : Id → DateTime → String
  /-- `verifyMfaPendingToken`, at a moment. -/
  verifyMfaPendingToken : String → DateTime → Option Id
  signAccessToken : Id → Id → UserCategory → DateTime → String
  /-- `hashRefreshToken`. -/
  hashRefreshToken : String → String
  refreshTtlDays : ℤ

/-- `matchAndConsumeBackupCode`: the hash that matches, and those that remain. -/
def matchAndConsumeBackupCode (compare : String → Bool) : List String → Option (String × List String)
  | [] => none
  | h :: hs =>
    if compare h = true then some (h, hs)
    else (matchAndConsumeBackupCode compare hs).map fun (found, rest) => (found, h :: rest)

/-- `/^\d{6}$/.test(code)`. -/
def isTotpCode (code : String) : Bool :=
  code.toList.length = 6 && code.toList.all fun c => c.isDigit

/-- An optional text that is not empty. -/
def truthy (text : Option String) : Option String := text.filter fun t => t ≠ ""

/-! ## What the database knows -/

namespace Db

/-- The user holds an active role that asks for a second factor. -/
def RequiresMfa (s : Db) (now : DateTime) (userId : Id) : Prop :=
  ∃ x ∈ (s.table .userRole).values, x.userId = userId ∧ (∀ expiry ∈ x.expiresAt, now < expiry) ∧
    ∃ role ∈ s.find? .role x.roleId, role.requireMfa = true

instance (s : Db) (now : DateTime) (userId : Id) : Decidable (s.RequiresMfa now userId) :=
  inferInstanceAs (Decidable (∃ x ∈ (s.table .userRole).values, _))

/-- The device of a user with a fingerprint. -/
def deviceOf (s : Db) (userId : Id) (fingerprint : String) : Option (Id × UserDevice) :=
  (s.table .userDevice).entries.find? fun e => e.2.userId = userId ∧ e.2.fingerprint = fingerprint

/-- The second factor of a user. -/
def mfaOf (s : Db) (userId : Id) : Option (Id × UserMfa) :=
  (s.table .userMfa).entries.find? fun e => e.2.userId = userId

end Db

/-- A device that is trusted at a moment. -/
def UserDevice.TrustedAt (d : UserDevice) (now : DateTime) : Prop :=
  d.trusted = true ∧ ∃ expiry ∈ d.trustedUntil, now < expiry

instance (d : UserDevice) (now : DateTime) : Decidable (d.TrustedAt now) :=
  inferInstanceAs (Decidable (_ ∧ ∃ expiry ∈ d.trustedUntil, now < expiry))

/-- The account is locked at a moment. -/
def User.LockedAt (u : User) (now : DateTime) : Prop := ∃ expiry ∈ u.lockedUntil, now < expiry

instance (u : User) (now : DateTime) : Decidable (u.LockedAt now) :=
  inferInstanceAs (Decidable (∃ expiry ∈ u.lockedUntil, now < expiry))

/-! ## The parts of a login -/

def userHasRoleRequiringMfa (userId : Id) : TimedHandler Bool := do
  let now ← date
  timeless (query fun s => decide (s.RequiresMfa now userId))

/-- `isDeviceTrusted`, for a device that was found. -/
def deviceIsTrusted (userId : Id) (device : UserDevice) : TimedHandler Bool := do
  let now ← date
  if device.TrustedAt now then do
    let requires ← userHasRoleRequiringMfa userId
    return ! (requires && device.mfaVerifiedAt.isNone)
  else return false

def isDeviceTrusted (userId : Id) (fingerprint : Option String) : TimedHandler Bool :=
  match truthy fingerprint with
  | none => return false
  | some fingerprint => do
    let device ← timeless (query fun s => s.deviceOf userId fingerprint)
    match device with
    | none => return false
    | some device => deviceIsTrusted userId device.2

def recordLoginAttempt (userId : Id) (result : LoginResult) : TimedHandler Unit := do
  let _ ← timeless (create .userLoginHistory ⟨userId, result⟩)

/-- A comparison of a password or a code, for a user who was read before. -/
def compareSecret (userId : Id) (user : User) (matched : Bool) : TimedHandler Unit :=
  Proc.exec { auth := some (.compare userId user.failedLoginCount user.lockedUntil matched) }
    fun s => ((), s)

/-- It answers whether the account is locked now. -/
def registerFailedPassword (userId : Id) (user : User) : TimedHandler Bool := do
  let nextCount := user.failedLoginCount + 1
  let willLock := decide (failedAttemptThreshold ≤ nextCount)
  let now ← date
  let _ ← timeless (updateAs
    { auth := some (.recordFailure userId user.failedLoginCount user.lockedUntil) } .user userId
    fun u => { u with
      failedLoginCount := if willLock then 0 else nextCount
      lastFailedLoginAt := some now
      lockedUntil := if willLock then some (lockoutExpiryDate now) else user.lockedUntil })
  recordLoginAttempt userId (if willLock then .lockedOut else .failedPassword)
  return willLock

/-- What a completed login writes into the device that was used. -/
def deviceFields (now : DateTime) (trustDevice mfaWasVerifiedThisSession : Bool)
    (d : UserDevice) : UserDevice :=
  { d with
    lastSeenAt := now
    trusted := trustDevice || d.trusted
    trustedUntil := if trustDevice then some (deviceTrustExpiryDate now) else d.trustedUntil
    mfaVerifiedAt := if mfaWasVerifiedThisSession then some now else d.mfaVerifiedAt }

/-- `userDevice.upsert`. -/
def upsertDevice (userId : Id) (fingerprint : String) (fields : UserDevice → UserDevice)
    (now : DateTime) : Handler Unit :=
  Proc.exec {} fun s =>
    match s.deviceOf userId fingerprint with
    | some (id, _) => ((), s.modify .userDevice id fields)
    | none => ((), s.insert .userDevice (fields { userId, fingerprint, lastSeenAt := now }))

/-- The device that was used is seen, if the request names it. -/
def seeDevice (userId : Id) (deviceFingerprint : Option String)
    (trustDevice mfaWasVerifiedThisSession : Bool) : TimedHandler Unit :=
  match truthy deviceFingerprint with
  | none => return ()
  | some fingerprint => do
    let now ← date
    timeless (upsertDevice userId fingerprint
      (deviceFields now trustDevice mfaWasVerifiedThisSession) now)

/-- `refreshToken.create` of a login.  The database makes up the family. -/
def createRefreshToken (userId : Id) (tokenHash : String) (expiresAt : DateTime) : Handler Id :=
  Proc.exec {} fun s =>
    (s.nextId .refreshToken,
      s.insert .refreshToken
        { userId, tokenHash, expiresAt, familyId := s.nextId .refreshToken })

/-- What a completed login answers. -/
structure Session where
  accessToken : String
  refreshToken : String
  userId : Id
  mustChangePassword : Bool

/-- `completeSuccessfulLogin`, with the token `raw` that is drawn for the session. -/
def completeSuccessfulLogin (p : Platform) (userId : Id) (user : User) (raw : String)
    (deviceFingerprint : Option String) (trustDevice mfaWasVerifiedThisSession : Bool)
    (backupCode : Option String) : TimedHandler Session := do
  let now ← date
  let _ ← timeless (createRefreshToken userId (p.hashRefreshToken raw)
    (now + p.refreshTtlDays * msPerDay))
  let _ ← timeless (updateAs { auth := some (.complete userId backupCode) } .user userId
    fun u => { u with failedLoginCount := 0, lastFailedLoginAt := none, lockedUntil := none })
  seeDevice userId deviceFingerprint trustDevice mfaWasVerifiedThisSession
  let _ ← timeless (create .auditLog
    { institutionId := user.institutionId, userId := some userId, action := "auth.login",
      resource := "" })
  recordLoginAttempt userId .success
  let later ← date
  return {
    accessToken := p.signAccessToken userId user.institutionId user.category now
    refreshToken := raw
    userId
    mustChangePassword := user.mustChangePassword ||
      decide (∃ expiry ∈ user.passwordExpiresAt, expiry < later) }

/-! ## The endpoints -/

section Endpoints

variable (p : Platform)

structure LoginRequest where
  institutionId : Option Id := none
  email : String
  password : String
  deviceFingerprint : Option String := none
  trustDevice : Bool := false

inductive LoginAnswer
  | session (session : Session)
  | mfaRequired (mfaPendingToken : String)
  | mfaSetupRequired (mfaPendingToken : String)

def LoginRequest.matches (request : LoginRequest) (u : User) : Bool :=
  u.email = request.email && request.institutionId.all fun institutionId =>
    u.institutionId = institutionId

/-- The user whom a request names. -/
def LoginRequest.userOf (request : LoginRequest) (s : Db) : Option (Id × User) :=
  (s.table .user).entries.find? fun e => request.matches e.2

def lockedMessage (lockedUntil now : DateTime) : String :=
  "Account is locked. Try again in " ++ toString ((lockedUntil - now + 59999) / 60000) ++ " minute(s)."

def invalidCredentials (lockedNow : Bool) : Failure :=
  .http 401 (if lockedNow then
    "Invalid credentials. Too many failed attempts — account is now locked for 30 minutes."
    else "Invalid credentials")

def UserStatus.text : UserStatus → String
  | invited => "invited"
  | active => "active"
  | suspended => "suspended"
  | deactivated => "deactivated"

/-- A role asks for an enrolment that a trusted device does not spare. -/
def mustEnroll (trustedSkip : Bool) (userId : Id) : TimedHandler Bool :=
  if trustedSkip then return false else userHasRoleRequiringMfa userId

/-- The second half of `POST /login`, for a user whose password was right. -/
def finishLogin (request : LoginRequest) (raw : String) (userId : Id) (user : User) :
    TimedHandler LoginAnswer := do
  let trustedSkip ← isDeviceTrusted userId request.deviceFingerprint
  if ¬ trustedSkip ∧ user.mfaEnabled then do
    let now ← date
    return .mfaRequired (p.signMfaPendingToken userId now)
  else do
    let enroll ← mustEnroll trustedSkip userId
    if enroll then do
      let now ← date
      return .mfaSetupRequired (p.signMfaPendingToken userId now)
    else do
      let session ← completeSuccessfulLogin p userId user raw request.deviceFingerprint
        request.trustDevice false none
      return .session session

/-- `POST /login`. -/
def login (request : LoginRequest) (raw : String) : TimedHandler LoginAnswer := do
  Proc.require (p.isEmail request.email) .invalid
  let found ← timeless (query request.userOf)
  let (userId, user) ← Proc.orFail found (.http 401 "Invalid credentials")
  let now ← date
  if user.LockedAt now then do
    recordLoginAttempt userId .lockedOut
    let later ← date
    Proc.fail (.http 423 (lockedMessage (user.lockedUntil.getD 0) later))
  else do
    let valid := p.bcryptCompare request.password user.passwordHash
    compareSecret userId user valid
    if valid then do
      Proc.require (user.status = .active) (.http 403 ("Account is " ++ user.status.text))
      finishLogin p request raw userId user
    else do
      let lockedNow ← registerFailedPassword userId user
      Proc.fail (invalidCredentials lockedNow)

structure LoginMfaRequest where
  mfaPendingToken : String
  code : String
  deviceFingerprint : Option String := none
  trustDevice : Bool := false

/-- A user, with the second factor that has been verified. -/
def userWithMfa (s : Db) (userId : Id) : Option (User × UserMfa) :=
  (s.find? .user userId).bind fun user => (s.mfaOf userId).map fun mfa => (user, mfa.2)

/-- `userMfa.update`, by the user. -/
def updateMfa (lab : Access) (userId : Id) (data : UserMfa → UserMfa) : Handler Unit :=
  Proc.attempt lab fun s =>
    match s.mfaOf userId with
    | some (id, _) => (.ok (), s.modify .userMfa id data)
    | none => (.error recordNotFound, s)

/-- How a code is right: as a password of the moment, or as a backup code, with the hash and the
codes that remain. -/
inductive CodeMatch
  | totp
  | backup (code : String) (remaining : List String)

/-- The check of a code against a second factor, at a moment. -/
def matchCode (code : String) (mfa : UserMfa) (now : DateTime) : Option CodeMatch :=
  if isTotpCode code = true then
    if p.verifyTotpCode code (p.decryptSecret mfa.secretEncrypted) now then some .totp else none
  else
    (matchAndConsumeBackupCode (p.bcryptCompare (p.normalizeCode code)) mfa.backupCodesHashed).map
      fun (found, rest) => .backup found rest

/-- A backup code that was right is used up. -/
def consumeBackupCode (userId : Id) (mfa : UserMfa) : CodeMatch → TimedHandler (Option String)
  | .totp => return none
  | .backup code remaining => do
    timeless (updateMfa { auth := some (.consume userId mfa.backupCodesHashed code) } userId
      fun m => { m with backupCodesHashed := remaining })
    return some code

/-- `POST /login/mfa`. -/
def loginMfa (request : LoginMfaRequest) (raw : String) : TimedHandler Session := do
  Proc.require (6 ≤ jsLength request.code) .invalid
  let start ← date
  let userId ← Proc.orFail (p.verifyMfaPendingToken request.mfaPendingToken start)
    (.http 401 "MFA challenge expired or invalid. Please log in again.")
  let found ← timeless (query fun s => userWithMfa s userId)
  let (user, mfa) ← Proc.orFail (found.filter fun x => x.2.verifiedAt.isSome)
    (.http 400 "MFA is not properly configured on this account.")
  let now ← date
  Proc.require (¬ user.LockedAt now) (.http 423 "Account is locked.")
  let later ← date
  match matchCode p request.code mfa later with
  | some how => do
    compareSecret userId user true
    let backupCode ← consumeBackupCode userId mfa how
    completeSuccessfulLogin p userId user raw request.deviceFingerprint request.trustDevice true
      backupCode
  | none => do
    compareSecret userId user false
    let lockedNow ← registerFailedPassword userId user
    recordLoginAttempt userId .failedMfa
    Proc.fail (.http 401 (if lockedNow then
      "Incorrect code. Too many failed attempts — account is now locked for 30 minutes."
      else "Incorrect code"))

end Endpoints

end NexusEfos
