/-
How often a password, or a code, can be guessed.

The failed logins of a user are counted in her row, and the backup codes that are left are a list
in the row of her second factor.  Both are read, changed in memory and written back, so requests
that overlap may count one failure instead of two, compare a password while the account is locked,
or bring back a code that was used.  Guessing is bounded in a run in which every comparison that
fails, every count and every list is written back to the row that was read.
-/
import NexusEfos.Auth.SecondFactor
import NexusEfos.Library.History

namespace NexusEfos

open Proc

/-! ## What the calls read and write -/

/-- The failures of a user that are counted, and the end of the lock. -/
def Db.attempts (s : Db) (userId : Id) : Option (ℕ × Option DateTime) :=
  (s.find? .user userId).map fun u => (u.failedLoginCount, u.lockedUntil)

/-- The backup codes of a user that are left. -/
def Db.backupCodes (s : Db) (userId : Id) : List String :=
  match s.mfaOf userId with
  | some (_, mfa) => mfa.backupCodesHashed
  | none => []

/-- The account is locked now. -/
def TimedDb.Locked (s : TimedDb) (userId : Id) : Prop :=
  ∃ a ∈ s.db.attempts userId, ∃ expiry ∈ a.2, s.clock < expiry

instance decidableLockedNow (s : TimedDb) (userId : Id) : Decidable (s.Locked userId) :=
  inferInstanceAs (Decidable (∃ a ∈ s.db.attempts userId, ∃ expiry ∈ a.2, s.clock < expiry))

/-- A comparison that fails, one that is counted, and a login that is completed. -/
inductive AttemptEvent
  | failed (userId : Id) (locked : Bool)
  | recorded (userId : Id) (locks : Bool)
  | completed (userId : Id) (backupCode : Option String)
  deriving DecidableEq

def attemptEvents (lab : Access) (s _t : TimedDb) : List AttemptEvent :=
  match lab.auth with
  | some (.compare userId _ _ false) => [.failed userId (decide (s.Locked userId))]
  | some (.recordFailure userId count _) =>
    [.recorded userId (decide (failedAttemptThreshold ≤ count + 1))]
  | some (.complete userId backupCode) => [.completed userId backupCode]
  | _ => []

namespace AttemptEvent

def fails (userId : Id) : AttemptEvent → Bool
  | failed id _ => id = userId
  | _ => false

def records (userId : Id) : AttemptEvent → Bool
  | recorded id _ => id = userId
  | _ => false

/-- The account becomes locked, or a login succeeds. -/
def closes (userId : Id) : AttemptEvent → Bool
  | failed _ _ => false
  | recorded id locks => id = userId && locks
  | completed id _ => id = userId

end AttemptEvent

/-- The comparisons that have failed since the account was locked or a login succeeded. -/
def streak (userId : Id) (h : List AttemptEvent) : ℕ :=
  h.foldl (fun n e => if e.closes userId then 0 else if e.fails userId then n + 1 else n) 0

section Streak

variable {userId : Id}

theorem streak_append_singleton (h : List AttemptEvent) (e : AttemptEvent) :
    streak userId (h ++ [e]) = if e.closes userId then 0
      else if e.fails userId then streak userId h + 1 else streak userId h := by
  rw [streak, List.foldl_append, List.foldl_cons, List.foldl_nil]
  rfl

/-- A stretch without an end adds its failures. -/
theorem streak_append {h stretch : List AttemptEvent}
    (hopen : ∀ e ∈ stretch, e.closes userId = false) :
    streak userId (h ++ stretch) = streak userId h + stretch.countP (·.fails userId) := by
  induction stretch using List.reverseRecOn with
  | nil => rw [List.append_nil, List.countP_nil, Nat.add_zero]
  | append_singleton stretch e ih =>
    have hclosed := hopen e (List.mem_append_right _ (List.mem_singleton_self e))
    have hbefore := ih fun e he => hopen e (List.mem_append_left _ he)
    rw [← List.append_assoc, streak_append_singleton, hclosed, hbefore, List.countP_append]
    by_cases hfails : e.fails userId = true
    · simp [hfails, Nat.add_assoc]
    · simp [hfails]

end Streak

/-! ## The protocol of the calls -/

/-- A statement that has nothing to do with the failures and the backup codes. -/
structure KeepsAttempts (lab : Access) (s t : TimedDb) : Prop where
  label : lab.auth = none
  clock : s.clock ≤ t.clock
  attempts : ∀ id, t.db.attempts id = s.db.attempts id
  codes : ∀ id, t.db.backupCodes id = s.db.backupCodes id

/-- The user as a failure leaves her that was counted. -/
def afterFailure (count : ℕ) (lockedUntil : Option DateTime) (now : DateTime) :
    ℕ × Option DateTime :=
  if failedAttemptThreshold ≤ count + 1 then (0, some (lockoutExpiryDate now))
  else (count + 1, lockedUntil)

/-- What a statement does, and the backup code with which its call is about to complete a login. -/
inductive AttemptStep (lab : Access) (s : TimedDb) (d : Option (Id × String)) (t : TimedDb) :
    Option (Id × String) → Prop
  | keep (h : KeepsAttempts lab s t) : AttemptStep lab s d t d
  | compare (userId : Id) (count : ℕ) (lockedUntil : Option DateTime) (matched : Bool)
      (hlab : lab.auth = some (.compare userId count lockedUntil matched))
      (hunlocked : ∀ expiry ∈ lockedUntil, ¬ s.clock < expiry) (hsame : t = s) :
      AttemptStep lab s d t d
  | record (userId : Id) (count : ℕ) (lockedUntil : Option DateTime) (now : DateTime)
      (hlab : lab.auth = some (.recordFailure userId count lockedUntil))
      (hattempts : ∀ id, t.db.attempts id =
        if id = userId then some (afterFailure count lockedUntil now) else s.db.attempts id)
      (hcodes : ∀ id, t.db.backupCodes id = s.db.backupCodes id) :
      AttemptStep lab s d t d
  | consume (userId : Id) (codes : List String) (code : String) (remaining : List String)
      (hd : d = none) (hlab : lab.auth = some (.consume userId codes code))
      (hcodes : codes.Perm (code :: remaining))
      (hattempts : ∀ id, t.db.attempts id = s.db.attempts id)
      (hnew : ∀ id, t.db.backupCodes id =
        if id = userId then remaining else s.db.backupCodes id) :
      AttemptStep lab s d t (some (userId, code))
  | miss (userId : Id) (codes : List String) (code : String)
      (hlab : lab.auth = some (.consume userId codes code)) (hsame : t = s) :
      AttemptStep lab s d t d
  | complete (userId : Id) (backupCode : Option String)
      (hlab : lab.auth = some (.complete userId backupCode))
      (hd : d = backupCode.map fun code => (userId, code))
      (hattempts : ∀ id, t.db.attempts id =
        if id = userId then some (0, none) else s.db.attempts id)
      (hcodes : ∀ id, t.db.backupCodes id = s.db.backupCodes id) :
      AttemptStep lab s d t none

/-- The clock goes on, and the users stay. -/
def UsersStay (s t : TimedDb) : Prop :=
  s.clock ≤ t.clock ∧ ∀ id, (s.db.attempts id).isSome = true → (t.db.attempts id).isSome = true

def attemptProtocol : Protocol Access TimedDb (Option (Id × String)) where
  rely := UsersStay
  guar := AttemptStep
  refl := fun s => ⟨le_refl s.clock, fun _ h => h⟩
  trans := fun h h' => ⟨h.1.trans h'.1, fun id hid => h'.2 id (h.2 id hid)⟩

theorem KeepsAttempts.usersStay {lab : Access} {s t : TimedDb} (h : KeepsAttempts lab s t) :
    UsersStay s t := by
  constructor
  · exact h.clock
  · intro id hid
    rwa [h.attempts id]

/-! ## Statements that have nothing to do with it -/

section Keeps

variable {α β : Type}

/-- Writes to other tables. -/
theorem keepsAttempts_of_agree {lab : Access} {s : TimedDb} {db : Db} (hlab : lab.auth = none)
    (h : s.db.Agree [.user, .userMfa] db) : KeepsAttempts lab s (s.setDb db) := by
  have huser : db.table .user = s.db.table .user := h .user (by decide)
  have hmfa : db.table .userMfa = s.db.table .userMfa := h .userMfa (by decide)
  constructor
  · exact hlab
  · exact le_refl s.clock
  · intro id
    show ((db.table .user).get? id).map _ = ((s.db.table .user).get? id).map _
    rw [huser]
  · intro id
    have hsame : db.mfaOf id = s.db.mfaOf id := by
      unfold Db.mfaOf
      rw [hmfa]
    show (match db.mfaOf id with | some (_, mfa) => mfa.backupCodesHashed | none => []) = _
    rw [hsame]
    rfl

theorem keepsAttempts_date : date.EveryStep KeepsAttempts :=
  ⟨fun s => keepsAttempts_of_agree rfl (.refl s.db), fun _ => trivial⟩

theorem keepsAttempts_query (f : Db → β) : (timeless (query f)).EveryStep KeepsAttempts :=
  ⟨fun s => keepsAttempts_of_agree rfl (.refl s.db), fun _ => trivial⟩

theorem keepsAttempts_create {m : Model} (hm : m ∉ [.user, .userMfa]) (row : Row m) :
    (timeless (create m row)).EveryStep KeepsAttempts :=
  ⟨fun s => keepsAttempts_of_agree rfl (.insert hm s.db row), fun _ => trivial⟩

theorem keepsAttempts_recordLoginAttempt (userId : Id) (result : LoginResult) :
    (recordLoginAttempt userId result).EveryStep KeepsAttempts :=
  (keepsAttempts_create (by decide) _).bind fun _ => trivial

theorem keepsAttempts_seeDevice (userId : Id) (deviceFingerprint : Option String)
    (trustDevice verified : Bool) :
    (seeDevice userId deviceFingerprint trustDevice verified).EveryStep KeepsAttempts := by
  unfold seeDevice
  split
  · trivial
  · apply keepsAttempts_date.bind
    intro now
    constructor
    · intro s
      apply keepsAttempts_of_agree rfl
      dsimp only
      split
      · exact .modify (by decide) s.db _ _
      · exact .insert (by decide) s.db _
    · exact fun _ => trivial

theorem keepsAttempts_userHasRoleRequiringMfa (userId : Id) :
    (userHasRoleRequiringMfa userId).EveryStep KeepsAttempts :=
  keepsAttempts_date.bind fun _ => keepsAttempts_query _

theorem keepsAttempts_isDeviceTrusted (userId : Id) (fingerprint : Option String) :
    (isDeviceTrusted userId fingerprint).EveryStep KeepsAttempts := by
  unfold isDeviceTrusted
  split
  · trivial
  · apply (keepsAttempts_query _).bind
    intro device
    split
    · trivial
    · apply keepsAttempts_date.bind
      intro now
      split
      · exact (keepsAttempts_userHasRoleRequiringMfa userId).bind fun _ => trivial
      · trivial

theorem keepsAttempts_mustEnroll (trustedSkip : Bool) (userId : Id) :
    (mustEnroll trustedSkip userId).EveryStep KeepsAttempts := by
  unfold mustEnroll
  split
  · trivial
  · exact keepsAttempts_userHasRoleRequiringMfa userId

end Keeps

/-! ## The calls -/

section Follows

variable {α β : Type} {s : TimedDb} {d : Option (Id × String)}

/-- The end of a call: no backup code waits for its login. -/
abbrev NothingConsumed (α : Type) (_s : TimedDb) (d : Option (Id × String))
    (_r : Except Failure α) : Prop := d = none

/-- The user is there. -/
def TimedDb.HasUser (s : TimedDb) (userId : Id) : Prop := (s.db.attempts userId).isSome = true

theorem TimedDb.HasUser.mono {t : TimedDb} {userId : Id} (h : s.HasUser userId)
    (hrely : UsersStay s t) : t.HasUser userId := hrely.2 userId h

theorem TimedDb.HasUser.row {userId : Id} (h : s.HasUser userId) :
    ∃ u, s.db.find? .user userId = some u := by
  rw [TimedDb.HasUser, Db.attempts, Option.isSome_map] at h
  exact Option.isSome_iff_exists.mp h

/-- A part of a call that has nothing to do with the failures and the codes. -/
theorem follows_keeping {q : TimedHandler β} (hq : q.EveryStep KeepsAttempts)
    {k : β → TimedHandler α}
    (hk : ∀ b t, UsersStay s t → (k b).Follows attemptProtocol (NothingConsumed α) t none) :
    (q >>= k).Follows attemptProtocol (NothingConsumed α) s none := by
  have hfirst : q.Follows attemptProtocol (fun t d' _ => UsersStay s t ∧ d' = none) s none :=
    .of_everyStep (fun _ _ _ _ h => ⟨h.usersStay, AttemptStep.keep h⟩) hq
  apply hfirst.bind
  · rintro t _ b ⟨hrely, rfl⟩
    exact hk b t hrely
  · exact fun _ _ _ h => h.2

theorem follows_kept {q : TimedHandler α} (hq : q.EveryStep KeepsAttempts) :
    q.Follows attemptProtocol (NothingConsumed α) s none := by
  have hfirst : q.Follows attemptProtocol (fun t d' _ => UsersStay s t ∧ d' = none) s none :=
    .of_everyStep (fun _ _ _ _ h => ⟨h.usersStay, AttemptStep.keep h⟩) hq
  exact hfirst.imp fun _ _ _ h => h.2

/-- The clock is read. -/
theorem follows_date {k : DateTime → TimedHandler α}
    (hk : ∀ t, UsersStay s t → (k t.clock).Follows attemptProtocol (NothingConsumed α) t none) :
    (date >>= k).Follows attemptProtocol (NothingConsumed α) s none := by
  intro t ht
  exact ⟨none, attemptProtocol.refl t, .keep (keepsAttempts_of_agree rfl (.refl t.db)), hk t ht⟩

/-- The update of the row of a user who is there. -/
theorem attempts_modify {userId : Id} {data : User → User} {after : ℕ × Option DateTime}
    (hdata : ∀ u, ((data u).failedLoginCount, (data u).lockedUntil) = after)
    (huser : s.HasUser userId) (id : Id) :
    (s.db.modify .user userId data).attempts id =
      if id = userId then some after else s.db.attempts id := by
  unfold Db.attempts
  rw [Db.find?_modify]
  by_cases hid : id = userId
  · obtain ⟨u, hu⟩ := huser.row
    rw [if_pos hid, if_pos hid, hid, hu, Option.map_some, Option.map_some, hdata]
  · rw [if_neg hid, if_neg hid]

theorem backupCodes_modify_user (s : Db) (userId : Id) (data : User → User) (id : Id) :
    (s.modify .user userId data).backupCodes id = s.backupCodes id := by
  have htable : (s.modify .user userId data).table .userMfa = s.table .userMfa :=
    Db.table_modify_of_ne (m := .user) (by decide) s userId data
  unfold Db.backupCodes Db.mfaOf
  rw [htable]

theorem usersStay_modify {userId : Id} {data : User → User} {after : ℕ × Option DateTime}
    (hdata : ∀ u, ((data u).failedLoginCount, (data u).lockedUntil) = after)
    (huser : s.HasUser userId) : UsersStay s (s.setDb (s.db.modify .user userId data)) := by
  constructor
  · exact le_refl s.clock
  · intro id hid
    show ((s.db.modify .user userId data).attempts id).isSome = true
    rw [attempts_modify hdata huser]
    split
    · rfl
    · exact hid

theorem registerFailedPassword_follows {userId : Id} {user : User} {k : Bool → TimedHandler α}
    (huser : s.HasUser userId)
    (hk : ∀ locked t, (k locked).Follows attemptProtocol (NothingConsumed α) t none) :
    (registerFailedPassword userId user >>= k).Follows attemptProtocol (NothingConsumed α) s
      none := by
  unfold registerFailedPassword
  rw [Proc.bind_assoc]
  apply follows_keeping keepsAttempts_date
  intro now t ht u hu
  have hthere := (huser.mono ht).mono hu
  obtain ⟨row, hrow⟩ := hthere.row
  have hdata : ∀ u : User,
      ((if decide (failedAttemptThreshold ≤ user.failedLoginCount + 1) = true then 0
          else user.failedLoginCount + 1),
        if decide (failedAttemptThreshold ≤ user.failedLoginCount + 1) = true then
          some (lockoutExpiryDate now) else user.lockedUntil) =
      afterFailure user.failedLoginCount user.lockedUntil now := by
    intro u
    unfold afterFailure
    by_cases hlocks : failedAttemptThreshold ≤ user.failedLoginCount + 1
    · simp only [hlocks, decide_true, if_true]
    · simp only [hlocks, decide_false, if_false, Bool.false_eq_true]
  dsimp only [updateAs, Proc.attempt]
  simp only [hrow]
  refine ⟨none, usersStay_modify hdata hthere,
    .record userId _ _ now rfl (attempts_modify hdata hthere)
      (backupCodes_modify_user u.db userId _), ?_⟩
  exact follows_keeping (keepsAttempts_recordLoginAttempt _ _) fun _ v _ => hk _ v

theorem completeSuccessfulLogin_follows {p : Platform} {userId : Id} {user : User} {raw : String}
    {deviceFingerprint : Option String} {trustDevice verified : Bool} {backupCode : Option String}
    (huser : s.HasUser userId) :
    (completeSuccessfulLogin p userId user raw deviceFingerprint trustDevice verified
      backupCode).Follows attemptProtocol (NothingConsumed Session) s
        (backupCode.map fun code => (userId, code)) := by
  -- the clock is read and the refresh token is created, with the code in hand
  intro t ht
  refine ⟨_, attemptProtocol.refl t, .keep (keepsAttempts_of_agree rfl (.refl t.db)), ?_⟩
  intro u hu
  have htoken : ∀ new : RefreshToken,
      KeepsAttempts {} u (u.setDb (u.db.insert .refreshToken new)) := fun new =>
    keepsAttempts_of_agree rfl (Db.Agree.insert (m := .refreshToken) (by decide) u.db new)
  refine ⟨_, (htoken _).usersStay, .keep (htoken _), ?_⟩
  intro v hv
  have hthere := (((huser.mono ht).mono hu).mono (htoken _).usersStay).mono hv
  obtain ⟨row, hrow⟩ := hthere.row
  dsimp only [updateAs, Proc.attempt]
  simp only [hrow]
  have hdata : ∀ u : User, ((0 : ℕ), (none : Option DateTime)) = (0, none) := fun _ => rfl
  refine ⟨none, usersStay_modify hdata hthere,
    .complete userId backupCode rfl rfl (attempts_modify hdata hthere)
      (backupCodes_modify_user v.db userId _), ?_⟩
  apply follows_keeping (keepsAttempts_seeDevice _ _ _ _)
  intro _ w _
  apply follows_keeping (keepsAttempts_create (by decide) _)
  intro _ w _
  apply follows_keeping (keepsAttempts_recordLoginAttempt _ _)
  intro _ w _
  exact follows_keeping keepsAttempts_date fun _ _ _ => rfl

/-- A comparison, after a check that the account is not locked. -/
theorem compareSecret_follows {userId : Id} {user : User} {matched : Bool} {now : DateTime}
    {k : Unit → TimedHandler α} (hunlocked : ¬ user.LockedAt now) (hnow : now ≤ s.clock)
    (hk : ∀ t, UsersStay s t → (k ()).Follows attemptProtocol (NothingConsumed α) t none) :
    (compareSecret userId user matched >>= k).Follows attemptProtocol (NothingConsumed α) s
      none := by
  intro t ht
  refine ⟨none, attemptProtocol.refl t, .compare userId _ _ matched rfl ?_ rfl, hk t ht⟩
  intro expiry hexpiry hlocked
  exact hunlocked ⟨expiry, hexpiry, lt_of_le_of_lt (hnow.trans ht.1) hlocked⟩

theorem finishLogin_follows {p : Platform} {request : LoginRequest} {raw : String} {userId : Id}
    {user : User} (huser : s.HasUser userId) :
    (finishLogin p request raw userId user).Follows attemptProtocol (NothingConsumed LoginAnswer) s
      none := by
  apply follows_keeping (keepsAttempts_isDeviceTrusted _ _)
  intro trustedSkip t ht
  split
  · exact follows_keeping keepsAttempts_date fun _ _ _ => rfl
  · apply follows_keeping (keepsAttempts_mustEnroll _ _)
    intro enroll u hu
    split
    · exact follows_keeping keepsAttempts_date fun _ _ _ => rfl
    · apply (completeSuccessfulLogin_follows ((huser.mono ht).mono hu)).bind
      · rintro v _ session rfl
        rfl
      · exact fun _ _ _ h => h

theorem login_follows (p : Platform) (request : LoginRequest) (raw : String) :
    (login p request raw).Follows attemptProtocol (NothingConsumed LoginAnswer) s none := by
  apply Follows.require ?_ fun _ => rfl
  intro _ t _
  -- the user is looked up
  refine ⟨none, attemptProtocol.refl t, .keep (keepsAttempts_of_agree rfl (.refl t.db)), ?_⟩
  apply Follows.orFail ?_ fun _ => rfl
  rintro ⟨userId, user⟩ hfound
  have huser : t.HasUser userId := by
    have hrow : t.db.find? .user userId = some user := LoginRequest.find?_of_userOf hfound
    show (Option.map _ (t.db.find? .user userId)).isSome = true
    rw [hrow]
    rfl
  apply follows_date
  intro u hu
  have hthere := huser.mono hu
  split
  · apply follows_keeping (keepsAttempts_recordLoginAttempt _ _)
    intro _ _ _
    exact follows_keeping keepsAttempts_date fun _ _ _ => rfl
  · next hunlocked =>
    apply compareSecret_follows hunlocked (le_refl u.clock)
    intro v hv
    split
    · apply Follows.require ?_ fun _ => rfl
      exact fun _ => finishLogin_follows (hthere.mono hv)
    · exact registerFailedPassword_follows (hthere.mono hv) fun _ _ => rfl

/-- A backup code that was found is one of the codes. -/
theorem matchAndConsumeBackupCode_perm {compare : String → Bool} {hashedCodes : List String}
    {found : String} {remaining : List String}
    (h : matchAndConsumeBackupCode compare hashedCodes = some (found, remaining)) :
    hashedCodes.Perm (found :: remaining) := by
  induction hashedCodes generalizing found remaining with
  | nil => exact absurd h nofun
  | cons c cs ih =>
    unfold matchAndConsumeBackupCode at h
    split at h
    · obtain ⟨rfl, rfl⟩ := Prod.mk.inj (Option.some.inj h)
      exact .refl _
    · obtain ⟨⟨found', rest⟩, hrest, heq⟩ := Option.map_eq_some_iff.mp h
      obtain ⟨rfl, rfl⟩ := Prod.mk.inj heq
      exact ((ih hrest).cons c).trans (.swap ..)

theorem matchCode_perm {p : Platform} {text : String} {mfa : UserMfa} {now : DateTime}
    {code : String} {remaining : List String}
    (h : matchCode p text mfa now = some (.backup code remaining)) :
    mfa.backupCodesHashed.Perm (code :: remaining) := by
  unfold matchCode at h
  split at h
  · split at h
    · exact absurd (Option.some.inj h) nofun
    · exact absurd h nofun
  · obtain ⟨⟨found, rest⟩, hfound, heq⟩ := Option.map_eq_some_iff.mp h
    injection heq with hcode hrest
    subst hcode hrest
    exact matchAndConsumeBackupCode_perm hfound

/-- The second factor that is found is a row of the user. -/
theorem mfaOf_eq_some {s : Db} {userId key : Id} {mfa : UserMfa}
    (h : s.mfaOf userId = some (key, mfa)) :
    s.find? .userMfa key = some mfa ∧ mfa.userId = userId := by
  have hmet := List.find?_some h
  rw [decide_eq_true_eq] at hmet
  exact ⟨OrderedMap.get?_eq_some.mpr (List.mem_of_find?_eq_some h), hmet⟩

/-- The change of a second factor does not change whose it is. -/
theorem mfaOf_modify (s : Db) (key : Id) {data : UserMfa → UserMfa}
    (hdata : ∀ m, (data m).userId = m.userId) (id : Id) :
    (s.modify .userMfa key data).mfaOf id =
      (s.mfaOf id).map fun e => (e.1, if e.1 = key then data e.2 else e.2) := by
  have htable : (s.modify .userMfa key data).table .userMfa =
      (s.table .userMfa).modify key data := Db.table_modify_self s .userMfa key data
  have hsame : ∀ e : Id × UserMfa,
      (if e.1 = key then data e.2 else e.2).userId = e.2.userId := by
    intro e
    split
    · exact hdata e.2
    · rfl
  unfold Db.mfaOf
  rw [htable]
  show ((s.table .userMfa).entries.map fun e =>
    (e.1, if e.1 = key then data e.2 else e.2)).find? _ = _
  rw [List.find?_map]
  congr 2
  funext e
  simp only [Function.comp, hsame]

/-- The second factor of a user is no other user's. -/
theorem backupCodes_modify {s : Db} {userId key : Id} {mfa : UserMfa} {data : UserMfa → UserMfa}
    (hdata : ∀ m, (data m).userId = m.userId) (hmfa : s.mfaOf userId = some (key, mfa)) (id : Id) :
    (s.modify .userMfa key data).backupCodes id =
      if id = userId then (data mfa).backupCodesHashed else s.backupCodes id := by
  unfold Db.backupCodes
  rw [mfaOf_modify s key hdata]
  obtain ⟨hrow, huser⟩ := mfaOf_eq_some hmfa
  by_cases hid : id = userId
  · rw [if_pos hid, hid, hmfa, Option.map_some]
    dsimp only
    rw [if_pos rfl]
  · rw [if_neg hid]
    cases hother : s.mfaOf id with
    | none => rfl
    | some e =>
      obtain ⟨hrow', huser'⟩ := mfaOf_eq_some hother
      have hkey : e.1 ≠ key := by
        intro heq
        rw [heq, hrow] at hrow'
        rw [← huser', ← Option.some.inj hrow', huser] at hid
        exact hid rfl
      rw [Option.map_some]
      dsimp only
      rw [if_neg hkey]

theorem attempts_modify_mfa (s : Db) (key : Id) (data : UserMfa → UserMfa) (id : Id) :
    (s.modify .userMfa key data).attempts id = s.attempts id := by
  unfold Db.attempts
  rw [Db.find?_modify_of_ne (m := .userMfa) (by decide)]

theorem consumeBackupCode_follows {userId : Id} {mfa : UserMfa} {how : CodeMatch}
    {k : Option String → TimedHandler α}
    (hperm : ∀ code remaining, how = .backup code remaining →
      mfa.backupCodesHashed.Perm (code :: remaining))
    (hk : ∀ backupCode t, UsersStay s t → (k backupCode).Follows attemptProtocol
      (NothingConsumed α) t (backupCode.map fun code => (userId, code))) :
    (consumeBackupCode userId mfa how >>= k).Follows attemptProtocol (NothingConsumed α) s
      none := by
  cases how with
  | totp => exact hk none s (attemptProtocol.refl s)
  | backup code remaining =>
    intro t ht
    cases hmfa : t.db.mfaOf userId with
    | none =>
      dsimp only [updateMfa, Proc.attempt]
      simp only [hmfa]
      exact ⟨none, attemptProtocol.refl t, .miss userId _ code rfl rfl, rfl⟩
    | some e =>
      have hattempts : ∀ id, (t.db.modify .userMfa e.1 fun m =>
          { m with backupCodesHashed := remaining }).attempts id = t.db.attempts id :=
        attempts_modify_mfa t.db e.1 _
      have hstay : UsersStay t (t.setDb (t.db.modify .userMfa e.1 fun m =>
          { m with backupCodesHashed := remaining })) := by
        constructor
        · exact le_refl t.clock
        · intro id hid
          exact (congrArg Option.isSome (hattempts id)).trans hid
      dsimp only [updateMfa, Proc.attempt]
      simp only [hmfa]
      refine ⟨some (userId, code), hstay, ?_, hk (some code) _ (attemptProtocol.trans ht hstay)⟩
      exact .consume userId _ code remaining rfl rfl (hperm code remaining rfl) hattempts
        (backupCodes_modify (fun _ => rfl) hmfa)

theorem loginMfa_follows (p : Platform) (request : LoginMfaRequest) (raw : String) :
    (loginMfa p request raw).Follows attemptProtocol (NothingConsumed Session) s none := by
  apply Follows.require ?_ fun _ => rfl
  intro _
  apply follows_keeping keepsAttempts_date
  intro start t _
  apply Follows.orFail ?_ fun _ => rfl
  intro userId _ u _
  -- the user is looked up
  refine ⟨none, attemptProtocol.refl u, .keep (keepsAttempts_of_agree rfl (.refl u.db)), ?_⟩
  apply Follows.orFail ?_ fun _ => rfl
  rintro ⟨user, mfa⟩ hfound
  have huser : u.HasUser userId := by
    obtain ⟨row, hrow, -⟩ := Option.bind_eq_some_iff.mp (Option.filter_eq_some_iff.mp hfound).1
    show (Option.map _ (u.db.find? .user userId)).isSome = true
    rw [hrow]
    rfl
  apply follows_date
  intro v hv
  apply Follows.require ?_ fun _ => rfl
  intro hunlocked
  apply follows_date
  intro w hw
  have hthere := (huser.mono hv).mono hw
  split
  · next how hmatch =>
    apply compareSecret_follows hunlocked hw.1
    intro x hx
    apply consumeBackupCode_follows
    · rintro code remaining rfl
      exact matchCode_perm hmatch
    · intro backupCode y hy
      exact completeSuccessfulLogin_follows ((hthere.mono hx).mono hy)
  · apply compareSecret_follows hunlocked hw.1
    intro x hx
    apply registerFailedPassword_follows (hthere.mono hx)
    intro lockedNow y
    exact follows_keeping (keepsAttempts_recordLoginAttempt _ _) fun _ _ _ => rfl

end Follows

/-! ## Runs -/

/-- A comparison that fails finds the row of the user as it was read and every failure before it
counted, a failure is counted in the row that was read, and a code is taken from the list that was
read. -/
def Access.InTurn (userId : Id) (h : List AttemptEvent) (lab : Access) (s : TimedDb) : Prop :=
  match lab.auth with
  | some (.compare id count lockedUntil false) =>
    id = userId → s.db.attempts id = some (count, lockedUntil) ∧
      h.countP (·.fails userId) = h.countP (·.records userId)
  | some (.recordFailure id count lockedUntil) =>
    id = userId → s.db.attempts id = some (count, lockedUntil)
  | some (.consume id codes _) => id = userId → s.db.backupCodes id = codes
  | _ => True

instance (userId : Id) (h : List AttemptEvent) (lab : Access) (s : TimedDb) :
    Decidable (lab.InTurn userId h s) := by
  unfold Access.InTurn
  split <;> infer_instance

/-- A login, the second step of one, and every call that has nothing to do with them. -/
inductive AttemptCall
  | login (p : Platform) (request : LoginRequest) (raw : String)
  | loginMfa (p : Platform) (request : LoginMfaRequest) (raw : String)
  | other (q : TimedHandler Unit) (h : q.EveryStep KeepsAttempts)

def AttemptCall.handler : AttemptCall → TimedHandler Unit
  | login p request raw => do let _ ← NexusEfos.login p request raw
  | loginMfa p request raw => do let _ ← NexusEfos.loginMfa p request raw
  | other q _ => q

theorem AttemptCall.follows (call : AttemptCall) (s : TimedDb) :
    call.handler.Follows attemptProtocol (NothingConsumed Unit) s none := by
  cases call with
  | login p request raw =>
    apply (login_follows p request raw).bind
    · rintro t _ b rfl
      rfl
    · exact fun _ _ _ h => h
  | loginMfa p request raw =>
    apply (loginMfa_follows p request raw).bind
    · rintro t _ b rfl
      rfl
    · exact fun _ _ _ h => h
  | other q h => exact follows_kept h

/-! ### Failures -/

/-- The failures that have not been counted, and the count, are all that there were since the
account was locked or a login succeeded. -/
structure Counted (userId : Id) (s : TimedDb) (h : List AttemptEvent) : Prop where
  count : ∀ a ∈ s.db.attempts userId, a.1 < failedAttemptThreshold ∧ streak userId h ≤
    a.1 + (h.countP (·.fails userId) - h.countP (·.records userId))
  bounded : ∀ g, g <+: h → streak userId g ≤ failedAttemptThreshold
  unlocked : .failed userId true ∉ h

namespace Counted

variable {userId : Id} {s t : TimedDb} {h : List AttemptEvent}

theorem of_attempts_eq (hs : Counted userId s h)
    (hsame : t.db.attempts userId = s.db.attempts userId) : Counted userId t (h ++ []) := by
  rw [List.append_nil]
  constructor
  · rw [hsame]
    exact hs.count
  · exact hs.bounded
  · exact hs.unlocked

/-- One event more. -/
theorem append (hs : Counted userId s h) {e : AttemptEvent} (hunlocked : e ≠ .failed userId true)
    (hbound : streak userId (h ++ [e]) ≤ failedAttemptThreshold)
    (hcount : ∀ a ∈ t.db.attempts userId, a.1 < failedAttemptThreshold ∧
      streak userId (h ++ [e]) ≤ a.1 + ((h ++ [e]).countP (·.fails userId) -
        (h ++ [e]).countP (·.records userId))) : Counted userId t (h ++ [e]) := by
  constructor
  · exact hcount
  · intro g hg
    rcases List.prefix_concat_iff.mp hg with rfl | hg
    · exact hbound
    · exact hs.bounded g hg
  · intro hmem
    rcases List.mem_append.mp hmem with hmem | hmem
    · exact hs.unlocked hmem
    · exact hunlocked (List.mem_singleton.mp hmem).symm

/-- An event of somebody else. -/
theorem append_of_ne (hs : Counted userId s h) {e : AttemptEvent}
    (hfails : e.fails userId = false) (hrecords : e.records userId = false)
    (hcloses : e.closes userId = false) (hunlocked : e ≠ .failed userId true)
    (hsame : t.db.attempts userId = s.db.attempts userId) : Counted userId t (h ++ [e]) := by
  have hstreak : streak userId (h ++ [e]) = streak userId h := by
    rw [streak_append_singleton, hcloses, hfails]
    rfl
  apply hs.append hunlocked
  · rw [hstreak]
    exact hs.bounded h (List.prefix_refl h)
  · intro a ha
    rw [hsame] at ha
    obtain ⟨hlt, hle⟩ := hs.count a ha
    rw [hstreak, List.countP_append, List.countP_append, List.countP_singleton,
      List.countP_singleton, hfails, hrecords]
    exact ⟨hlt, hle⟩

/-- The account is locked, or a login succeeds. -/
theorem append_of_closes (hs : Counted userId s h) {e : AttemptEvent}
    (hcloses : e.closes userId = true) (hunlocked : e ≠ .failed userId true)
    {lockedUntil : Option DateTime} (hnew : t.db.attempts userId = some (0, lockedUntil)) :
    Counted userId t (h ++ [e]) := by
  have hstreak : streak userId (h ++ [e]) = 0 := by
    rw [streak_append_singleton, hcloses]
    rfl
  apply hs.append hunlocked
  · rw [hstreak]
    exact Nat.zero_le _
  · intro a ha
    rw [hnew] at ha
    rw [hstreak, ← Option.some.inj ha]
    have hpos : 0 < failedAttemptThreshold := by decide
    exact ⟨hpos, Nat.zero_le _⟩

/-- A comparison that fails. -/
theorem append_failed (hs : Counted userId s h) {count : ℕ} {lockedUntil : Option DateTime}
    (hunlocked : ∀ expiry ∈ lockedUntil, ¬ s.clock < expiry)
    (hread : s.db.attempts userId = some (count, lockedUntil))
    (hcounted : h.countP (·.fails userId) = h.countP (·.records userId)) :
    Counted userId s (h ++ [.failed userId (decide (s.Locked userId))]) := by
  have hopen : ¬ s.Locked userId := by
    rintro ⟨a, ha, expiry, hexpiry, hlocked⟩
    rw [hread] at ha
    rw [← Option.some.inj ha] at hexpiry
    exact hunlocked expiry hexpiry hlocked
  have hfails : (AttemptEvent.failed userId (decide (s.Locked userId))).fails userId = true :=
    decide_eq_true rfl
  obtain ⟨hlt, hle⟩ := hs.count _ hread
  have hstreak : streak userId (h ++ [.failed userId (decide (s.Locked userId))]) =
      streak userId h + 1 := by
    rw [streak_append_singleton, hfails]
    rfl
  have hrecords : (AttemptEvent.failed userId (decide (s.Locked userId))).records userId = false :=
    rfl
  rw [hcounted, Nat.sub_self] at hle
  apply hs.append
  · rw [decide_eq_false hopen]
    exact fun heq => absurd (AttemptEvent.failed.inj heq).2 Bool.false_ne_true
  · rw [hstreak]
    omega
  · intro a ha
    rw [hread] at ha
    rw [← Option.some.inj ha, hstreak, List.countP_append, List.countP_append,
      List.countP_singleton, List.countP_singleton, hfails, hrecords, hcounted, if_pos rfl,
      if_neg Bool.false_ne_true]
    refine ⟨hlt, ?_⟩
    omega

/-- A failure that is counted. -/
theorem append_recorded (hs : Counted userId s h) {count : ℕ} {lockedUntil : Option DateTime}
    {now : DateTime} (hread : s.db.attempts userId = some (count, lockedUntil))
    (hnew : t.db.attempts userId = some (afterFailure count lockedUntil now)) :
    Counted userId t (h ++ [.recorded userId (decide (failedAttemptThreshold ≤ count + 1))]) := by
  unfold afterFailure at hnew
  by_cases hlocks : failedAttemptThreshold ≤ count + 1
  · rw [if_pos hlocks] at hnew
    refine hs.append_of_closes ?_ (fun heq => AttemptEvent.noConfusion heq) hnew
    rw [decide_eq_true hlocks]
    show (decide (userId = userId) && true) = true
    rw [decide_eq_true rfl]
    rfl
  · rw [if_neg hlocks] at hnew
    obtain ⟨hlt, hle⟩ := hs.count _ hread
    have hstreak : streak userId (h ++ [.recorded userId
        (decide (failedAttemptThreshold ≤ count + 1))]) = streak userId h := by
      have hcloses : (AttemptEvent.recorded userId
          (decide (failedAttemptThreshold ≤ count + 1))).closes userId = false := by
        rw [decide_eq_false hlocks]
        exact Bool.and_false _
      rw [streak_append_singleton, hcloses]
      rfl
    have hrecords : (AttemptEvent.recorded userId
        (decide (failedAttemptThreshold ≤ count + 1))).records userId = true := decide_eq_true rfl
    have hfails : (AttemptEvent.recorded userId
        (decide (failedAttemptThreshold ≤ count + 1))).fails userId = false := rfl
    apply hs.append fun heq => AttemptEvent.noConfusion heq
    · rw [hstreak]
      exact hs.bounded h (List.prefix_refl h)
    · intro a ha
      rw [hnew] at ha
      rw [← Option.some.inj ha, hstreak, List.countP_append, List.countP_append,
        List.countP_singleton, List.countP_singleton, hfails, hrecords, if_pos rfl,
        if_neg Bool.false_ne_true]
      dsimp only at hle ⊢
      omega

theorem step {lab : Access} {d d' : Option (Id × String)} (hs : Counted userId s h)
    (hguar : AttemptStep lab s d t d') (hlab : lab.InTurn userId h s) :
    Counted userId t (h ++ attemptEvents lab s t) := by
  cases hguar with
  | keep hkeep =>
    rw [attemptEvents, hkeep.label]
    exact hs.of_attempts_eq (hkeep.attempts userId)
  | compare id count lockedUntil matched hcompare hunlocked hsame =>
    subst hsame
    rw [attemptEvents, hcompare]
    rw [Access.InTurn, hcompare] at hlab
    cases matched with
    | true => exact hs.of_attempts_eq rfl
    | false =>
      by_cases hid : id = userId
      · obtain ⟨hread, hcounted⟩ := hlab hid
        subst hid
        exact hs.append_failed hunlocked hread hcounted
      · refine hs.append_of_ne (decide_eq_false hid) rfl rfl ?_ rfl
        exact fun heq => hid (AttemptEvent.failed.inj heq).1
  | record id count lockedUntil now hrecord hattempts hcodes =>
    rw [attemptEvents, hrecord]
    rw [Access.InTurn, hrecord] at hlab
    by_cases hid : id = userId
    · have hread := hlab hid
      have hnew := hattempts id
      rw [if_pos rfl] at hnew
      subst hid
      exact hs.append_recorded hread hnew
    · have hsame := hattempts userId
      rw [if_neg (Ne.symm hid)] at hsame
      have hrecords : (AttemptEvent.recorded id
          (decide (failedAttemptThreshold ≤ count + 1))).records userId = false :=
        decide_eq_false hid
      refine hs.append_of_ne rfl hrecords ?_ (fun heq => AttemptEvent.noConfusion heq) hsame
      show (decide (id = userId) && _) = false
      rw [decide_eq_false hid]
      rfl
  | consume id codes code remaining hd hconsume hcodes hattempts hnew =>
    rw [attemptEvents, hconsume]
    exact hs.of_attempts_eq (hattempts userId)
  | miss id codes code hconsume hsame =>
    rw [attemptEvents, hconsume, hsame]
    exact hs.of_attempts_eq rfl
  | complete id backupCode hcomplete hd hattempts hcodes =>
    rw [attemptEvents, hcomplete]
    by_cases hid : id = userId
    · have hnew := hattempts userId
      rw [if_pos hid.symm] at hnew
      exact hs.append_of_closes (decide_eq_true hid) (fun heq => AttemptEvent.noConfusion heq) hnew
    · have hsame := hattempts userId
      rw [if_neg (Ne.symm hid)] at hsame
      exact hs.append_of_ne rfl rfl (decide_eq_false hid)
        (fun heq => AttemptEvent.noConfusion heq) hsame

end Counted

/-! ### Backup codes -/

section Codes

variable {ι : Type} [DecidableEq ι] {userId : Id} {codes : List String} {s t : TimedDb}
  {d : ι → Option (Id × String)} {h : List AttemptEvent}

/-- The logins that a code has completed, those that it is about to complete, and the code in the
list of those that are left, are no more than there were of it. -/
def CodesLeft (userId : Id) (codes : List String) (s : TimedDb) (d : ι → Option (Id × String))
    (h : List AttemptEvent) : Prop :=
  ∀ (code : String) (callers : Finset ι),
    h.count (.completed userId (some code)) +
      (callers.filter fun i => d i = some (userId, code)).card +
      (s.db.backupCodes userId).count code ≤ codes.count code

namespace CodesLeft

omit [DecidableEq ι] in
theorem append (hs : CodesLeft userId codes s d h)
    (hsame : t.db.backupCodes userId = s.db.backupCodes userId) {events : List AttemptEvent}
    (hevents : ∀ code, AttemptEvent.completed userId (some code) ∉ events) :
    CodesLeft userId codes t d (h ++ events) := by
  intro code callers
  rw [List.count_append, List.count_eq_zero_of_not_mem (hevents code), hsame]
  exact hs code callers

/-- Whoever takes a code is one caller more of it. -/
theorem card_filter_update_le (d : ι → Option (Id × String)) (i : ι)
    (new : Option (Id × String)) (x : Id × String) (callers : Finset ι) :
    (callers.filter fun j => Function.update d i new j = some x).card ≤
      (callers.filter fun j => d j = some x).card + if new = some x then 1 else 0 := by
  have hkept : ∀ j, j ≠ i → Function.update d i new j = some x → d j = some x := by
    intro j hj hx
    rwa [Function.update_of_ne hj] at hx
  by_cases hnew : new = some x
  · rw [if_pos hnew]
    have hsub : (callers.filter fun j => Function.update d i new j = some x) ⊆
        insert i (callers.filter fun j => d j = some x) := by
      intro j hj
      obtain ⟨hcaller, hx⟩ := Finset.mem_filter.mp hj
      by_cases hji : j = i
      · exact Finset.mem_insert.mpr (.inl hji)
      · exact Finset.mem_insert_of_mem (Finset.mem_filter.mpr ⟨hcaller, hkept j hji hx⟩)
    exact (Finset.card_le_card hsub).trans (Finset.card_insert_le _ _)
  · rw [if_neg hnew, Nat.add_zero]
    apply Finset.card_le_card
    intro j hj
    obtain ⟨hcaller, hx⟩ := Finset.mem_filter.mp hj
    have hji : j ≠ i := by
      rintro rfl
      rw [Function.update_self] at hx
      exact hnew hx
    exact Finset.mem_filter.mpr ⟨hcaller, hkept j hji hx⟩

/-- Whoever is done with a code was one caller more of it. -/
theorem card_filter_done_le {d : ι → Option (Id × String)} {i : ι} {x : Id × String}
    (hd : d i = some x) (callers : Finset ι) :
    (callers.filter fun j => Function.update d i none j = some x).card + 1 ≤
      ((insert i callers).filter fun j => d j = some x).card := by
  have hdone : i ∉ callers.filter fun j => Function.update d i none j = some x := by
    intro hi
    have hx := (Finset.mem_filter.mp hi).2
    rw [Function.update_self] at hx
    exact absurd hx nofun
  rw [← Finset.card_insert_of_notMem hdone]
  apply Finset.card_le_card
  intro j hj
  rcases Finset.mem_insert.mp hj with rfl | hj
  · exact Finset.mem_filter.mpr ⟨Finset.mem_insert_self _ _, hd⟩
  · obtain ⟨hcaller, hx⟩ := Finset.mem_filter.mp hj
    have hji : j ≠ i := by
      rintro rfl
      exact hdone hj
    rw [Function.update_of_ne hji] at hx
    exact Finset.mem_filter.mpr ⟨Finset.mem_insert_of_mem hcaller, hx⟩

/-- A code is taken from the list. -/
theorem consume (hs : CodesLeft userId codes s d h) {i : ι} {id : Id} {code : String}
    {stored remaining : List String} (hperm : stored.Perm (code :: remaining))
    (hread : id = userId → s.db.backupCodes id = stored)
    (hnew : ∀ id', t.db.backupCodes id' =
      if id' = id then remaining else s.db.backupCodes id') :
    CodesLeft userId codes t (Function.update d i (some (id, code))) h := by
  intro code' callers
  have hcallers := card_filter_update_le d i (some (id, code)) (userId, code') callers
  have hbefore := hs code' callers
  rw [hnew]
  by_cases hid : userId = id
  · rw [if_pos hid]
    rw [hid, hread hid.symm, hperm.count_eq, List.count_cons] at hbefore
    rw [hid] at hcallers ⊢
    by_cases hcode : code = code'
    · rw [if_pos (by rw [hcode])] at hcallers
      rw [if_pos (by rw [hcode]; exact beq_self_eq_true code')] at hbefore
      omega
    · have hother : ¬ (some (id, code) = some (id, code')) := by
        intro heq
        exact hcode (Prod.mk.inj (Option.some.inj heq)).2
      rw [if_neg hother] at hcallers
      omega
  · rw [if_neg hid]
    have hother : ¬ (some (id, code) = some (userId, code')) := by
      intro heq
      exact hid (Prod.mk.inj (Option.some.inj heq)).1.symm
    rw [if_neg hother] at hcallers
    omega

/-- A login is completed. -/
theorem complete (hs : CodesLeft userId codes s d h) {i : ι} {id : Id} {backupCode : Option String}
    (hd : d i = backupCode.map fun code => (id, code))
    (hsame : t.db.backupCodes userId = s.db.backupCodes userId) :
    CodesLeft userId codes t (Function.update d i none) (h ++ [.completed id backupCode]) := by
  intro code callers
  rw [List.count_append, List.count_singleton, hsame]
  by_cases hthis : AttemptEvent.completed id backupCode = .completed userId (some code)
  · obtain ⟨rfl, rfl⟩ := AttemptEvent.completed.inj hthis
    have htaken : d i = some (id, code) := hd
    have hcallers := card_filter_done_le htaken callers
    have hbefore := hs code (insert i callers)
    rw [if_pos (beq_self_eq_true _)]
    omega
  · have hcallers := card_filter_update_le d i none (userId, code) callers
    have hbefore := hs code callers
    rw [if_neg nofun] at hcallers
    rw [if_neg fun heq => hthis (eq_of_beq heq)]
    omega

theorem step {lab : Access} {i : ι} {d' : Option (Id × String)} (hs : CodesLeft userId codes s d h)
    (hguar : AttemptStep lab s (d i) t d') (hlab : lab.InTurn userId h s) :
    CodesLeft userId codes t (Function.update d i d') (h ++ attemptEvents lab s t) := by
  cases hguar with
  | keep hkeep =>
    rw [Function.update_eq_self, attemptEvents, hkeep.label]
    exact hs.append (hkeep.codes userId) fun _ => List.not_mem_nil
  | compare id count lockedUntil matched hcompare hunlocked hsame =>
    rw [Function.update_eq_self, attemptEvents, hcompare, hsame]
    apply hs.append rfl
    intro code
    cases matched with
    | true => exact List.not_mem_nil
    | false => exact fun hmem => AttemptEvent.noConfusion (List.mem_singleton.mp hmem)
  | record id count lockedUntil now hrecord hattempts hcodes =>
    rw [Function.update_eq_self, attemptEvents, hrecord]
    apply hs.append (hcodes userId)
    exact fun code hmem => AttemptEvent.noConfusion (List.mem_singleton.mp hmem)
  | consume id stored code remaining hd hconsume hperm hattempts hnew =>
    rw [attemptEvents, hconsume, List.append_nil]
    rw [Access.InTurn, hconsume] at hlab
    exact hs.consume hperm hlab hnew
  | miss id stored code hconsume hsame =>
    rw [Function.update_eq_self, attemptEvents, hconsume, hsame]
    exact hs.append rfl fun _ => List.not_mem_nil
  | complete id backupCode hcomplete hd hattempts hcodes =>
    rw [attemptEvents, hcomplete]
    exact hs.complete hd (hcodes userId)

end CodesLeft

end Codes

/-! ### Every run -/

section Runs

variable {ι : Type} [DecidableEq ι]

def attemptPool (calls : ι → AttemptCall) (s : TimedDb) : Pool ι Access TimedDb Failure Unit :=
  ⟨fun i => (calls i).handler, s⟩

/-- How a user can be guessed at in a run.  Between two moments at which the account is locked or
a login succeeds a bounded number of comparisons fail, none fails while the account is locked, and
a backup code completes no more logins than there were codes of it. -/
structure BoundsGuessing (calls : ι → AttemptCall) (s : TimedDb) (sched : List ι) (userId : Id) :
    Prop where
  stretch : ∀ before stretch after,
    (attemptPool calls s).history attemptEvents sched = before ++ stretch ++ after →
      (∀ e ∈ stretch, e.closes userId = false) →
      stretch.countP (·.fails userId) ≤ failedAttemptThreshold
  unlocked : .failed userId true ∉ (attemptPool calls s).history attemptEvents sched
  backupCodes : ∀ code,
    ((attemptPool calls s).history attemptEvents sched).count (.completed userId (some code)) ≤
      (s.db.backupCodes userId).count code

/-- A run in which every comparison that fails, every count and every list of codes finds what was
read. -/
theorem guessing_bounded (calls : ι → AttemptCall) (s : TimedDb) (sched : List ι) (userId : Id)
    (hstart : ∀ a ∈ s.db.attempts userId, a.1 < failedAttemptThreshold)
    (hturns : (attemptPool calls s).AllowedAfter attemptEvents (Access.InTurn userId) [] sched) :
    BoundsGuessing calls s sched userId := by
  have hfollows : (attemptPool calls s).Follows attemptProtocol (fun d _ => d = none)
      fun _ => none := fun i => (calls i).follows s
  have hcounted : Counted userId s [] := by
    constructor
    · exact fun a ha => ⟨hstart a ha, Nat.zero_le _⟩
    · intro g hg
      rw [List.prefix_nil.mp hg]
      exact Nat.zero_le _
    · exact List.not_mem_nil
  have hcodes : CodesLeft userId (s.db.backupCodes userId) s (fun _ : ι => none) [] := by
    intro code callers
    have hnobody : (callers.filter fun _ => (none : Option (Id × String)) = some (userId, code)) =
        ∅ := Finset.filter_false_of_mem fun _ _ => nofun
    rw [hnobody, Finset.card_empty, List.count_nil]
    omega
  have hstep : ∀ (i : ι) (lab : Access) (t : TimedDb) (d : ι → Option (Id × String)) (t' : TimedDb)
      (d' : Option (Id × String)) (h : List AttemptEvent), AttemptStep lab t (d i) t' d' →
      UsersStay t t' → lab.InTurn userId h t →
      Counted userId t h ∧ CodesLeft userId (s.db.backupCodes userId) t d h →
      Counted userId t' (h ++ attemptEvents lab t t') ∧
        CodesLeft userId (s.db.backupCodes userId) t' (Function.update d i d')
          (h ++ attemptEvents lab t t') :=
    fun _ _ _ _ _ _ _ hguar _ hlab ht => ⟨ht.1.step hguar hlab, ht.2.step hguar hlab⟩
  obtain ⟨d, -, -, hrun, hleft⟩ := hfollows.run_debts hstep ⟨hcounted, hcodes⟩ hturns
  rw [List.nil_append] at hrun hleft
  constructor
  · intro before stretch after heq hopen
    have hpre : before ++ stretch <+: (attemptPool calls s).history attemptEvents sched :=
      ⟨after, heq.symm⟩
    have hbound := hrun.bounded _ hpre
    rw [streak_append hopen] at hbound
    omega
  · exact hrun.unlocked
  · intro code
    have hbefore := hleft code ∅
    omega

end Runs

/-! ### Guesses side by side -/

/-- A guess at the password of a user. -/
def wrongLogin : LoginRequest where
  email := "ama@efos"
  password := "cedi and cowrie"

/-- Six guesses. -/
def sixGuesses (_ : Fin 6) : AttemptCall := .login plainPlatform wrongLogin "token"

/-- Two of them, one after the other. -/
theorem guessing_bounded_sixGuesses :
    BoundsGuessing sixGuesses userDb [0, 0, 0, 0, 0, 0, 1, 1, 1, 1, 1, 1] 1 :=
  guessing_bounded sixGuesses userDb _ 1 (by decide +kernel) (by decide +kernel)

/-- All six side by side: no failure is counted before the last comparison. -/
theorem guessing_not_bounded :
    ¬ ∀ (calls : Fin 6 → AttemptCall) (s : TimedDb) (sched : List (Fin 6)) (userId : Id),
      (∀ a ∈ s.db.attempts userId, a.1 < failedAttemptThreshold) →
      BoundsGuessing calls s sched userId := by
  intro h
  have hrun := h sixGuesses userDb
    [0, 0, 0, 1, 1, 1, 2, 2, 2, 3, 3, 3, 4, 4, 4, 5, 5, 5] 1 (by decide +kernel)
  have hsix := hrun.stretch [] (List.replicate 6 (.failed 1 false)) [] (by decide +kernel)
    (by decide)
  exact absurd hsix (by decide)

end NexusEfos
