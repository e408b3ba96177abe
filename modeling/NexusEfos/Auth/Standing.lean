/-
Who may refresh a session, compared with who may log in.

Both endpoints look at the status of the account, at its lock, and at whether its password has to
be changed.  The login also says so when the password has expired; the refresh does not look at
that.
-/
import NexusEfos.Auth.Sessions

namespace NexusEfos

open Proc

/-- The password has expired at a moment. -/
def User.PasswordExpiredAt (u : User) (now : DateTime) : Prop :=
  ∃ expiry ∈ u.passwordExpiresAt, expiry < now

instance User.decidablePasswordExpiredAt (u : User) (now : DateTime) :
    Decidable (u.PasswordExpiredAt now) :=
  inferInstanceAs (Decidable (∃ expiry ∈ u.passwordExpiresAt, expiry < now))

/-- A run does not both fail and succeed. -/
theorem error_ne_ok {α : Type} {e : Failure} {a : α} {s t : TimedDb}
    (h : ((.error e, s) : Except Failure α × TimedDb) = (.ok a, t)) : False :=
  nomatch (Prod.mk.inj h).1

section Standing

variable {p : Platform} {request : LoginRequest} {raw newRaw token : String} {s : TimedDb}
  {userId id : Id} {user : User} {stored : RefreshToken}

/-! ## The login -/

/-- A login with the password of a user. -/
structure LoginRequest.CorrectPassword (request : LoginRequest) (p : Platform) (s : TimedDb)
    (userId : Id) (user : User) : Prop where
  email : p.isEmail request.email = true
  found : request.userOf s.db = some (userId, user)
  password : p.bcryptCompare request.password user.passwordHash = true

/-- No second factor is asked for. -/
def LoginRequest.NoSecondFactor (request : LoginRequest) (s : TimedDb) (userId : Id) (user : User) :
    Prop :=
  s.SkipsMfa userId request.deviceFingerprint ∨
    user.mfaEnabled = false ∧ ¬ s.db.RequiresMfa s.clock userId

instance LoginRequest.decidableNoSecondFactor (request : LoginRequest) (s : TimedDb) (userId : Id)
    (user : User) : Decidable (request.NoSecondFactor s userId user) :=
  inferInstanceAs (Decidable (_ ∨ _ ∧ _))

/-- The login is refused. -/
def LoginRequest.Refused (request : LoginRequest) (p : Platform) (raw : String) (s : TimedDb) :
    Prop :=
  ∃ e t, (login p request raw).run s = (.error e, t)

/-- The login is answered with a session in which the password has to be changed. -/
def LoginRequest.AsksForPassword (request : LoginRequest) (p : Platform) (raw : String)
    (s : TimedDb) : Prop :=
  ∃ session t, (login p request raw).run s = (.ok (.session session), t) ∧
    session.mustChangePassword = true

/-- No time passes. -/
def KeepsClock (s t : TimedDb) : Prop := t.clock = s.clock

theorem keepsClock_timeless {α : Type} (q : Handler α) : (timeless q).Every KeepsClock := by
  apply every_onPart
  exact fun _ _ => rfl

theorem clock_timeless {α : Type} (q : Handler α) (s : TimedDb) :
    ((timeless q).run s).2.clock = s.clock :=
  Every.run (A := KeepsClock) (fun _ => rfl) (fun h h' => Eq.trans h' h) (keepsClock_timeless q) s

theorem clock_seeDevice (userId : Id) (deviceFingerprint : Option String)
    (trustDevice verified : Bool) (s : TimedDb) :
    ((seeDevice userId deviceFingerprint trustDevice verified).run s).2.clock = s.clock := by
  unfold seeDevice
  cases truthy deviceFingerprint with
  | none => rfl
  | some f => exact clock_timeless _ s

/-- A session says that the password has to be changed, by its flag or by its age. -/
theorem completeSuccessfulLogin_mustChangePassword {deviceFingerprint : Option String}
    {trustDevice verified : Bool} {backupCode : Option String} {t : TimedDb} {session : Session}
    (h : (completeSuccessfulLogin p userId user raw deviceFingerprint trustDevice verified
      backupCode).run s = (.ok session, t)) :
    session.mustChangePassword = true ↔
      user.mustChangePassword = true ∨ user.PasswordExpiredAt s.clock := by
  obtain ⟨now, s₁, hnow, h⟩ := Proc.run_bind_eq_ok h
  obtain ⟨_, s₂, htoken, h⟩ := Proc.run_bind_eq_ok h
  obtain ⟨_, s₃, hreset, h⟩ := Proc.run_bind_eq_ok h
  obtain ⟨_, s₄, hdevice, h⟩ := Proc.run_bind_eq_ok h
  obtain ⟨_, s₅, haudit, h⟩ := Proc.run_bind_eq_ok h
  obtain ⟨_, s₆, hattempt, h⟩ := Proc.run_bind_eq_ok h
  obtain ⟨later, s₇, hlater, h⟩ := Proc.run_bind_eq_ok h
  have hclock : s₆.clock = s.clock := by
    have h₁ : s₁.clock = s.clock := by rw [← (Prod.mk.inj hnow).2]
    have h₂ := clock_timeless (createRefreshToken userId (p.hashRefreshToken raw)
      (now + p.refreshTtlDays * msPerDay)) s₁
    rw [htoken] at h₂
    have h₃ := congrArg (fun r => r.2.clock) hreset
    rw [clock_timeless] at h₃
    have h₄ := clock_seeDevice userId deviceFingerprint trustDevice verified s₃
    rw [hdevice] at h₄
    have h₅ := congrArg (fun r => r.2.clock) haudit
    rw [clock_timeless] at h₅
    have h₆ : s₆.clock = s₅.clock := by
      rw [← (Prod.mk.inj hattempt).2]
      rfl
    exact h₆.trans (h₅.symm.trans (h₄.trans (h₃.symm.trans (h₂.trans h₁))))
  have hlater' : later = s.clock := by
    rw [← hclock]
    exact (Except.ok.inj (Prod.mk.inj hlater).1).symm
  rw [← Except.ok.inj (Prod.mk.inj h).1, hlater']
  simp only [Bool.or_eq_true, decide_eq_true_eq]
  rfl

/-- Past the password, the login of a user who is not let in asks for the second factor. -/
theorem run_finishLogin_pending (p : Platform) (raw : String)
    (h : ¬ request.NoSecondFactor s userId user) :
    ∃ answer, (finishLogin p request raw userId user).run s = (.ok answer, s) ∧
      ∀ session, answer ≠ .session session := by
  obtain ⟨hskip, hfree⟩ := not_or.mp h
  unfold finishLogin
  rw [Proc.run_bind_ok (run_isDeviceTrusted s userId request.deviceFingerprint),
    decide_eq_false hskip]
  by_cases henabled : user.mfaEnabled = true
  · rw [if_pos ⟨by simp, henabled⟩]
    exact ⟨_, rfl, fun _ h => LoginAnswer.noConfusion h⟩
  · have hmust : s.db.RequiresMfa s.clock userId := by
      by_contra hno
      exact hfree ⟨by simpa using henabled, hno⟩
    have hrequires : (mustEnroll false userId).run s =
        (.ok (decide (s.db.RequiresMfa s.clock userId)), s) := rfl
    rw [if_neg (fun hboth => henabled hboth.2), Proc.run_bind_ok hrequires,
      if_pos (decide_eq_true hmust)]
    exact ⟨_, rfl, fun _ h => LoginAnswer.noConfusion h⟩

/-- The right password, up to the checks of the account. -/
theorem run_login_correct (h : request.CorrectPassword p s userId user) :
    (login p request raw).run s =
      if user.LockedAt s.clock then
        (.error (.http 423 (lockedMessage (user.lockedUntil.getD 0) s.clock)),
          s.setDb (s.db.insert .userLoginHistory ⟨userId, .lockedOut⟩))
      else if user.status = .active then (finishLogin p request raw userId user).run s
      else (.error (.http 403 ("Account is " ++ user.status.text)), s) := by
  unfold login
  rw [Proc.require_pos h.email]
  show (Proc.orFail (request.userOf s.db) _ >>= _).run s = _
  rw [h.found]
  show (if user.LockedAt s.clock then _ else _ : TimedHandler LoginAnswer).run s = _
  by_cases hlocked : user.LockedAt s.clock
  · rw [if_pos hlocked, if_pos hlocked, Proc.run_bind_ok (run_recordLoginAttempt _ _ _)]
    rfl
  · rw [if_neg hlocked, if_neg hlocked]
    show (if p.bcryptCompare request.password user.passwordHash = true then _ else _ :
      TimedHandler LoginAnswer).run s = _
    rw [if_pos h.password]
    by_cases hactive : user.status = .active
    · rw [Proc.require_pos hactive, if_pos hactive]
      rfl
    · rw [Proc.require_neg hactive, if_neg hactive]
      rfl

/-- Which right passwords are refused. -/
theorem refused_iff (h : request.CorrectPassword p s userId user) :
    request.Refused p raw s ↔ user.LockedAt s.clock ∨ user.status ≠ .active := by
  unfold LoginRequest.Refused
  rw [run_login_correct h]
  by_cases hlocked : user.LockedAt s.clock
  · rw [if_pos hlocked]
    exact iff_of_true ⟨_, _, rfl⟩ (.inl hlocked)
  · rw [if_neg hlocked]
    by_cases hactive : user.status = .active
    · rw [if_pos hactive]
      apply iff_of_false
      · rintro ⟨e, t, hrun⟩
        by_cases hfree : request.NoSecondFactor s userId user
        · obtain ⟨session, t', hsession, -⟩ := (login_session_iff p request raw s userId).mpr
            ⟨user, ⟨h.email, h.found, hlocked, h.password, hactive⟩, hfree⟩
          rw [run_login_correct h, if_neg hlocked, if_pos hactive, hrun] at hsession
          exact error_ne_ok hsession
        · obtain ⟨answer, hanswer, -⟩ := run_finishLogin_pending p raw hfree
          rw [hrun] at hanswer
          exact error_ne_ok hanswer
      · exact fun h => h.elim hlocked fun hinactive => hinactive hactive
    · rw [if_neg hactive]
      exact iff_of_true ⟨_, _, rfl⟩ (.inr hactive)

/-- Which right passwords are answered with a session in which the password has to be changed. -/
theorem asksForPassword_iff (h : request.CorrectPassword p s userId user) :
    request.AsksForPassword p raw s ↔
      (¬ user.LockedAt s.clock ∧ user.status = .active ∧ request.NoSecondFactor s userId user) ∧
        (user.mustChangePassword = true ∨ user.PasswordExpiredAt s.clock) := by
  constructor
  · rintro ⟨session, t, hrun, hchange⟩
    rw [run_login_correct h] at hrun
    by_cases hlocked : user.LockedAt s.clock
    · rw [if_pos hlocked] at hrun
      exact absurd hrun error_ne_ok
    · rw [if_neg hlocked] at hrun
      by_cases hactive : user.status = .active
      · rw [if_pos hactive] at hrun
        obtain ⟨hfree, hcomplete⟩ := run_finishLogin_session p hrun
        exact ⟨⟨hlocked, hactive, hfree⟩,
          (completeSuccessfulLogin_mustChangePassword hcomplete).mp hchange⟩
      · rw [if_neg hactive] at hrun
        exact absurd hrun error_ne_ok
  · rintro ⟨⟨hlocked, hactive, hfree⟩, hchange⟩
    obtain ⟨session, t, hrun, -⟩ := (login_session_iff p request raw s userId).mpr
      ⟨user, ⟨h.email, h.found, hlocked, h.password, hactive⟩, hfree⟩
    refine ⟨session, t, hrun, ?_⟩
    rw [run_login_correct h, if_neg hlocked, if_pos hactive] at hrun
    obtain ⟨-, hcomplete⟩ := run_finishLogin_session p hrun
    exact (completeSuccessfulLogin_mustChangePassword hcomplete).mpr hchange

/-! ## The refresh -/

/-- A refresh token of a user that is valid in itself: it is neither replaced, nor revoked, nor
expired. -/
structure ValidToken (p : Platform) (s : TimedDb) (token : String) (id : Id) (stored : RefreshToken)
    (userId : Id) : Prop where
  nonempty : token ≠ ""
  found : (s.db.table .refreshToken).entries.find?
    (fun e => e.2.tokenHash = p.hashRefreshToken token) = some (id, stored)
  owner : stored.userId = userId
  latest : stored.replacedByTokenId = none
  unrevoked : stored.revokedAt = none
  unexpired : ¬ stored.expiresAt < s.clock

/-- The refresh is answered with an access token. -/
def IssuesToken (p : Platform) (token newRaw : String) (s : TimedDb) : Prop :=
  ∃ session t, (refresh p (some token) newRaw).run s = (.ok session, t)

theorem run_rotateToken (p : Platform) (newRaw : String) (hrow : s.db.find? .refreshToken id = some stored) :
    ∃ t, (rotateToken p id stored newRaw).run s = (.ok (), t) := by
  unfold rotateToken
  have hcreate : ∀ (lab : Access) (row : RefreshToken),
      (timeless (createAs lab .refreshToken row)).run s =
        (.ok (s.db.nextId .refreshToken), s.setDb (s.db.insert .refreshToken row)) :=
    fun _ _ => rfl
  have hkept : ∀ row, (s.setDb (s.db.insert .refreshToken row)).db.find? .refreshToken id =
      some stored := fun row => OrderedMap.get?_create_of_some hrow row
  have hretire : ∀ (f : RefreshToken → RefreshToken) (t : TimedDb),
      t.db.find? .refreshToken id = some stored →
        (timeless (update .refreshToken id f)).run t =
          (.ok (f stored), t.setDb (t.db.modify .refreshToken id f)) := by
    intro f t ht
    simp [timeless, update, updateAs, Proc.attempt, ht]
  rw [Proc.run_bind_ok (hcreate _ _)]
  show ∃ t, (timeless (update .refreshToken id _) >>= _).run _ = (.ok (), t)
  rw [Proc.run_bind_ok (hretire _ _ (hkept _))]
  exact ⟨_, rfl⟩

/-- Which valid tokens are answered. -/
theorem issuesToken_iff (h : ValidToken p s token id stored userId)
    (huser : s.db.find? .user userId = some user) :
    IssuesToken p token newRaw s ↔
      user.status = .active ∧ ¬ user.LockedAt s.clock ∧ user.mustChangePassword = false := by
  have htoken : truthy (some token) = some token := by
    unfold truthy
    rw [Option.filter_some, if_pos (decide_eq_true h.nonempty)]
  have hfound : tokenWithUser s.db (p.hashRefreshToken token) = some (id, stored, user) := by
    unfold tokenWithUser
    rw [h.found, Option.bind_some, h.owner, huser]
    rfl
  have hrow : s.db.find? .refreshToken id = some stored :=
    OrderedMap.get?_eq_some.mpr (List.mem_of_find?_eq_some h.found)
  have hrun : (refresh p (some token) newRaw).run s = (refreshStored p id stored user newRaw).run s := by
    unfold refresh
    rw [htoken]
    show (Proc.orFail (tokenWithUser s.db (p.hashRefreshToken token)) _ >>= _).run s = _
    rw [hfound]
    show (if stored.replacedByTokenId.isSome = true then _ else _ : TimedHandler _).run s = _
    rw [h.latest, if_neg (by decide)]
  unfold IssuesToken
  rw [hrun, refreshStored]
  show (∃ session t, (Proc.require (stored.revokedAt = none ∧ ¬ stored.expiresAt < s.clock) _ >>=
    _).run s = (.ok session, t)) ↔ _
  rw [Proc.require_pos ⟨h.unrevoked, h.unexpired⟩]
  show (∃ session t, (Proc.require (user.status = .active) _ >>= _).run s = (.ok session, t)) ↔ _
  by_cases hactive : user.status = .active
  · rw [Proc.require_pos hactive]
    show (∃ session t, (Proc.require (¬ user.LockedAt s.clock) _ >>= _).run s = (.ok session, t)) ↔ _
    by_cases hlocked : user.LockedAt s.clock
    · rw [Proc.require_neg (not_not_intro hlocked)]
      exact iff_of_false (fun ⟨_, _, h⟩ => error_ne_ok h) fun h => h.2.1 hlocked
    · rw [Proc.require_pos hlocked]
      show (∃ session t, (Proc.require (user.mustChangePassword = false) _ >>= _).run s =
        (.ok session, t)) ↔ _
      by_cases hchange : user.mustChangePassword = false
      · rw [Proc.require_pos hchange]
        obtain ⟨t, hrotate⟩ := run_rotateToken p newRaw hrow
        apply iff_of_true _ ⟨hactive, hlocked, hchange⟩
        show ∃ session t, (rotateToken p id stored newRaw >>= _).run s = (.ok session, t)
        rw [Proc.run_bind_ok hrotate]
        exact ⟨_, _, rfl⟩
      · rw [Proc.require_neg hchange]
        exact iff_of_false (fun ⟨_, _, h⟩ => error_ne_ok h) fun h => hchange h.2.2
  · rw [Proc.require_neg hactive]
    exact iff_of_false (fun ⟨_, _, h⟩ => error_ne_ok h) fun h => hactive h.1

/-- A user whom the login refuses, or asks for a new password, gets no access token for a refresh
token, unless all that is wrong is that the password has expired, and the login would say so at
once. -/
theorem refresh_no_weaker_iff (p : Platform) (request : LoginRequest) (raw token newRaw : String)
    (s : TimedDb) (userId : Id) (user : User) (hlogin : request.CorrectPassword p s userId user)
    (id : Id) (stored : RefreshToken) (htoken : ValidToken p s token id stored userId) :
    (request.Refused p raw s ∨ request.AsksForPassword p raw s → ¬ IssuesToken p token newRaw s) ↔
      ¬ (user.PasswordExpiredAt s.clock ∧ user.status = .active ∧ ¬ user.LockedAt s.clock ∧
        user.mustChangePassword = false ∧ request.NoSecondFactor s userId user) := by
  rw [refused_iff hlogin, asksForPassword_iff hlogin,
    issuesToken_iff htoken (LoginRequest.find?_of_userOf hlogin.found)]
  constructor
  · rintro h ⟨hexpired, hactive, hlocked, hchange, hfree⟩
    exact h (.inr ⟨⟨hlocked, hactive, hfree⟩, .inr hexpired⟩) ⟨hactive, hlocked, hchange⟩
  · rintro h hstopped ⟨hactive, hlocked, hchange⟩
    rcases hstopped with (hlocked' | hinactive) | ⟨⟨-, -, hfree⟩, hflag | hexpired⟩
    · exact hlocked hlocked'
    · exact hinactive hactive
    · rw [hchange] at hflag
      exact absurd hflag (by decide)
    · exact h ⟨hexpired, hactive, hlocked, hchange, hfree⟩

end Standing

/-! ## A password that has expired -/

/-- A user whose password has expired, with a session. -/
def expiredDb : TimedDb where
  db := (Db.empty.insert .user
    { institutionId := 1, email := "ama@efos", passwordHash := "cedi and pesewa", status := .active,
      passwordExpiresAt := some 10 }).insert .refreshToken
    { userId := 1, tokenHash := "first", expiresAt := 1000, familyId := 1 }
  clock := 20

/-- The right password of the user. -/
def rightLogin : LoginRequest where
  email := "ama@efos"
  password := "cedi and pesewa"

/-- Before the password expires, both let the user in. -/
theorem refresh_no_weaker_iff_inTime :
    IssuesToken plainPlatform "first" "second" { expiredDb with clock := 5 } ∧
      ¬ (rightLogin.Refused plainPlatform "token" { expiredDb with clock := 5 } ∨
        rightLogin.AsksForPassword plainPlatform "token" { expiredDb with clock := 5 }) := by
  have hissues : IssuesToken plainPlatform "first" "second" { expiredDb with clock := 5 } :=
    ⟨_, _, rfl⟩
  refine ⟨hissues, fun hstopped => ?_⟩
  have hweaker := refresh_no_weaker_iff plainPlatform rightLogin "token" "first" "second"
    { expiredDb with clock := 5 } 1 _ ⟨rfl, rfl, rfl⟩ 1 _
    ⟨by decide, rfl, rfl, rfl, rfl, by decide⟩
  exact hweaker.mpr (by decide +kernel) hstopped hissues

/-- Afterwards the login asks for a new password, and the refresh issues an access token. -/
theorem refresh_weaker :
    rightLogin.AsksForPassword plainPlatform "token" expiredDb ∧
      IssuesToken plainPlatform "first" "second" expiredDb :=
  ⟨⟨_, _, rfl, by decide +kernel⟩, ⟨_, _, rfl⟩⟩

end NexusEfos
