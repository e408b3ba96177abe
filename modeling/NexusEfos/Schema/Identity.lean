/-
The rows of users and of their logins.

The token, the second factor and the trusted devices of a user are rows of their own.  A
password, a backup code and a refresh token are stored as hashes, and the secret of the second
factor is stored encrypted.
-/
import NexusEfos.Money

namespace NexusEfos

inductive UserCategory
  | internal | external
  deriving DecidableEq

inductive UserStatus
  | invited | active | suspended | deactivated
  deriving DecidableEq

structure User where
  institutionId : Id
  fullName : String := ""
  email : String
  passwordHash : String
  category : UserCategory := .internal
  status : UserStatus := .invited
  mfaEnabled : Bool := false
  failedLoginCount : ℕ := 0
  lastFailedLoginAt : Option DateTime := none
  lockedUntil : Option DateTime := none
  passwordChangedAt : Option DateTime := none
  passwordExpiresAt : Option DateTime := none
  mustChangePassword : Bool := false

/-- A password that a user has changed. -/
structure UserPasswordHistory where
  userId : Id
  passwordHash : String
  createdAt : DateTime

structure UserMfa where
  userId : Id
  secretEncrypted : String
  backupCodesHashed : List String := []
  verifiedAt : Option DateTime := none

structure UserDevice where
  userId : Id
  fingerprint : String
  trusted : Bool := false
  trustedUntil : Option DateTime := none
  mfaVerifiedAt : Option DateTime := none
  lastSeenAt : DateTime

inductive LoginResult
  | success | failedPassword | failedMfa | lockedOut | failedOther
  deriving DecidableEq

structure UserLoginHistory where
  userId : Id
  result : LoginResult

structure UserRole where
  userId : Id
  roleId : Id
  branchId : Option Id := none
  isDelegated : Bool := false
  delegatedFromUserId : Option Id := none
  startsAt : DateTime
  expiresAt : Option DateTime := none

structure RefreshToken where
  userId : Id
  tokenHash : String
  expiresAt : DateTime
  revokedAt : Option DateTime := none
  familyId : Id
  replacedByTokenId : Option Id := none

end NexusEfos
