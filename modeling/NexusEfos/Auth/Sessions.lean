/-
Refreshing a session: `POST /refresh`.

A refresh token is replaced by a new one of its family, and a token that was replaced and comes
back makes the whole family void.  The token is looked up, its successor is created, and it is
revoked in three statements, so two requests with one token, or a request and the discovery of a
reuse, may overtake each other.  Nothing goes wrong in a run in which every successor is created
while the token that it replaces is the only one of its family that is not revoked.
-/
import NexusEfos.Auth.SecondFactor
import NexusEfos.Library.History

namespace NexusEfos

open Proc

/-! ## The endpoint -/

/-- A refresh token, found by its hash, and its user. -/
def tokenWithUser (s : Db) (tokenHash : String) : Option (Id × RefreshToken × User) :=
  ((s.table .refreshToken).entries.find? fun e => e.2.tokenHash = tokenHash).bind fun e =>
    (s.find? .user e.2.userId).map fun user => (e.1, e.2, user)

def refreshInvalid : Failure := .http 401 "Refresh token invalid or expired"

/-- `refreshToken.updateMany`, for the tokens of a family that are not revoked. -/
def revokeFamily (familyId : Id) (now : DateTime) : Handler Unit :=
  Proc.exec { auth := some (.detectReuse familyId) } fun s =>
    ((), s.modifyAll .refreshToken fun _ r =>
      if r.familyId = familyId ∧ r.revokedAt = none then { r with revokedAt := some now } else r)

structure RefreshedSession where
  accessToken : String
  refreshToken : String

/-- A token that was replaced has come back. -/
def rejectReuse (id : Id) (stored : RefreshToken) (user : User) :
    TimedHandler RefreshedSession := do
  let now ← date
  timeless (revokeFamily stored.familyId now)
  let _ ← timeless (create .auditLog
    { institutionId := user.institutionId, userId := some stored.userId,
      action := "auth.refresh_token_reuse_detected", resource := "refresh_token",
      resourceId := some id })
  Proc.fail refreshInvalid

/-- The token is replaced by its successor, with the token `newRaw` that is drawn for it. -/
def rotateToken (p : Platform) (id : Id) (stored : RefreshToken) (newRaw : String) :
    TimedHandler Unit := do
  let newToken ← timeless (createAs { auth := some (.rotate id) } .refreshToken
    { userId := stored.userId, tokenHash := p.hashRefreshToken newRaw,
      expiresAt := stored.expiresAt, familyId := stored.familyId })
  let now ← date
  let _ ← timeless (update .refreshToken id fun r =>
    { r with revokedAt := some now, replacedByTokenId := some newToken })

/-- The rest of `POST /refresh`, for a token that was not replaced. -/
def refreshStored (p : Platform) (id : Id) (stored : RefreshToken) (user : User)
    (newRaw : String) : TimedHandler RefreshedSession := do
  let now ← date
  Proc.require (stored.revokedAt = none ∧ ¬ stored.expiresAt < now) refreshInvalid
  Proc.require (user.status = .active) refreshInvalid
  let later ← date
  Proc.require (¬ user.LockedAt later) refreshInvalid
  Proc.require (user.mustChangePassword = false)
    (.http 401 "Password change required — please sign in again")
  rotateToken p id stored newRaw
  let last ← date
  return {
    accessToken := p.signAccessToken stored.userId user.institutionId user.category last
    refreshToken := newRaw }

/-- `POST /refresh`. -/
def refresh (p : Platform) (refreshToken : Option String) (newRaw : String) :
    TimedHandler RefreshedSession := do
  let token ← Proc.orFail (truthy refreshToken) (.http 400 "refreshToken required")
  let found ← timeless (query fun s => tokenWithUser s (p.hashRefreshToken token))
  let (id, stored, user) ← Proc.orFail found refreshInvalid
  if stored.replacedByTokenId.isSome then rejectReuse id stored user
  else refreshStored p id stored user newRaw

/-! ## What the statements do to the tokens -/

/-- What happens to a family of tokens: a token is replaced by another one, or a token that was
replaced comes back. -/
inductive RefreshEvent
  | rotated (tokenId newTokenId : Id)
  | reused (familyId : Id)
  deriving DecidableEq

/-- The event gives the token a successor. -/
def RefreshEvent.Replaces (id : Id) : RefreshEvent → Prop
  | rotated tokenId _ => tokenId = id
  | reused _ => False

instance (id : Id) : (e : RefreshEvent) → Decidable (e.Replaces id)
  | .rotated tokenId _ => inferInstanceAs (Decidable (tokenId = id))
  | .reused _ => inferInstanceAs (Decidable False)

def refreshEvents (lab : Access) (s _t : TimedDb) : List RefreshEvent :=
  match lab.auth with
  | some (.rotate tokenId) => [.rotated tokenId (s.db.nextId .refreshToken)]
  | some (.detectReuse familyId) => [.reused familyId]
  | _ => []

/-- A refresh token that is not revoked, of a family. -/
def Db.Unrevoked (s : Db) (familyId id : Id) : Prop :=
  ∃ r, s.find? .refreshToken id = some r ∧ r.familyId = familyId ∧ r.revokedAt = none

/-- The tokens of a database stay, in their families. -/
def KeepsFamilies (s t : TimedDb) : Prop :=
  s.db.KeepsRows .refreshToken (fun r r' => r'.familyId = r.familyId) t.db

/-- A statement that has nothing to do with the tokens. -/
def IgnoresTokens (lab : Access) (s t : TimedDb) : Prop :=
  lab.auth = none ∧ t.db.table .refreshToken = s.db.table .refreshToken

/-- What a statement does to the tokens, and to the replacement that its call has begun. -/
inductive TokenStep (lab : Access) (s : TimedDb) (d : Option (Id × Id)) (t : TimedDb) :
    Option (Id × Id) → Prop
  | ignore (h : IgnoresTokens lab s t) : TokenStep lab s d t d
  | create (id : Id) (stored new : RefreshToken) (hd : d = none)
      (hlab : lab.auth = some (.rotate id)) (hrow : s.db.find? .refreshToken id = some stored)
      (hfamily : new.familyId = stored.familyId) (hunrevoked : new.revokedAt = none)
      (hnew : t.db.table .refreshToken = (s.db.table .refreshToken).create new) :
      TokenStep lab s d t (some (id, s.db.nextId .refreshToken))
  | retire (id newToken : Id) (now : DateTime) (hd : d = some (id, newToken))
      (hlab : lab.auth = none)
      (hnew : t.db.table .refreshToken = (s.db.table .refreshToken).modify id fun r =>
        { r with revokedAt := some now, replacedByTokenId := some newToken }) :
      TokenStep lab s d t none
  | revoke (familyId : Id) (now : DateTime) (hlab : lab.auth = some (.detectReuse familyId))
      (hnew : t.db.table .refreshToken = (s.db.table .refreshToken).updateAll fun _ r =>
        if r.familyId = familyId ∧ r.revokedAt = none then { r with revokedAt := some now }
        else r) : TokenStep lab s d t d

/-- The protocol of the calls: the debt is the replacement that a call has begun. -/
def tokenProtocol : Protocol Access TimedDb (Option (Id × Id)) where
  rely := KeepsFamilies
  guar := TokenStep
  refl := fun _ => .of_table_eq (fun _ => rfl) rfl
  trans := fun h h' => h.trans (fun _ _ _ h h' => h'.trans h) h'

theorem IgnoresTokens.keepsFamilies {lab : Access} {s t : TimedDb} (h : IgnoresTokens lab s t) :
    KeepsFamilies s t := .of_table_eq (fun _ => rfl) h.2

theorem ignores_date : date.EveryStep IgnoresTokens :=
  ⟨fun _ => ⟨rfl, rfl⟩, fun _ => trivial⟩

theorem ignores_create {m : Model} (hm : m ≠ .refreshToken) (row : Row m) :
    (timeless (create m row)).EveryStep IgnoresTokens :=
  ⟨fun s => ⟨rfl, Db.table_insert_of_ne hm.symm s.db row⟩, fun _ => trivial⟩

theorem KeepsFamilies.isSome {s t : TimedDb} (hrely : KeepsFamilies s t) {id : Id}
    (hs : (s.db.find? .refreshToken id).isSome = true) :
    (t.db.find? .refreshToken id).isSome = true := by
  obtain ⟨r, hrow⟩ := Option.isSome_iff_exists.mp hs
  obtain ⟨r', hrow', -⟩ := hrely id r hrow
  rw [hrow']
  rfl

section Follows

variable {α β : Type} {s : TimedDb} {d : Option (Id × Id)}

/-- The end of a call: it has finished what it has begun. -/
abbrev NothingBegun (α : Type) (_s : TimedDb) (d : Option (Id × Id)) (_r : Except Failure α) : Prop :=
  d = none

/-- A part of a call that has nothing to do with the tokens. -/
theorem follows_ignoring {q : TimedHandler β} (hq : q.EveryStep IgnoresTokens)
    {k : β → TimedHandler α}
    (hk : ∀ b t, KeepsFamilies s t → (k b).Follows tokenProtocol (NothingBegun α) t none) :
    (q >>= k).Follows tokenProtocol (NothingBegun α) s none := by
  have hfirst : q.Follows tokenProtocol
      (fun t d' _ => KeepsFamilies s t ∧ d' = none) s none :=
    .of_everyStep (fun _ _ _ _ h => ⟨h.keepsFamilies, TokenStep.ignore h⟩) hq
  apply hfirst.bind
  · rintro t _ b ⟨hrely, rfl⟩
    exact hk b t hrely
  · exact fun _ _ _ h => h.2

theorem follows_require {c : Prop} [Decidable c] {e : Failure} {k : Unit → TimedHandler α}
    (hk : c → (k ()).Follows tokenProtocol (NothingBegun α) s none) :
    (Proc.require c e >>= k).Follows tokenProtocol (NothingBegun α) s none :=
  Follows.require hk fun _ => rfl

/-- The token of a key is of a family. -/
def TimedDb.OfFamily (s : TimedDb) (id familyId : Id) : Prop :=
  ∃ r, s.db.find? .refreshToken id = some r ∧ r.familyId = familyId

theorem TimedDb.OfFamily.mono {t : TimedDb} {id familyId : Id} (h : s.OfFamily id familyId)
    (hrely : KeepsFamilies s t) : t.OfFamily id familyId := by
  obtain ⟨r, hrow, hfamily⟩ := h
  obtain ⟨r', hrow', hsame⟩ := hrely id r hrow
  exact ⟨r', hrow', hsame.trans hfamily⟩

theorem rotateToken_follows {p : Platform} {id : Id} {stored : RefreshToken} {newRaw : String}
    (h : s.OfFamily id stored.familyId) :
    (rotateToken p id stored newRaw).Follows tokenProtocol (NothingBegun Unit) s none := by
  intro t ht
  obtain ⟨r, hrow, hfamily⟩ := h.mono ht
  have hkeeps : ∀ new : RefreshToken, KeepsFamilies t (t.setDb (t.db.insert .refreshToken new)) :=
    fun new => Db.KeepsRows.insert (m := .refreshToken)
      (R := fun r r' => r'.familyId = r.familyId) (fun _ => rfl) t.db new
  let new : RefreshToken := {
    userId := stored.userId
    tokenHash := p.hashRefreshToken newRaw
    expiresAt := stored.expiresAt
    familyId := stored.familyId }
  refine ⟨some (id, t.db.nextId .refreshToken), hkeeps new,
    .create id r new rfl rfl hrow hfamily.symm rfl (Db.table_insert_self t.db .refreshToken new), ?_⟩
  -- the successor is there, and the clock is read
  intro u hu
  refine ⟨_, tokenProtocol.refl u, .ignore ⟨rfl, rfl⟩, ?_⟩
  -- the token that was replaced is still there
  intro v hv
  obtain ⟨r', hrow', -⟩ := ((h.mono ht).mono (hkeeps new)).mono (tokenProtocol.trans hu hv)
  have hretired : ∀ f : RefreshToken → RefreshToken, (∀ r, (f r).familyId = r.familyId) →
      KeepsFamilies v (v.setDb (v.db.modify .refreshToken id f)) := fun f hf =>
    Db.KeepsRows.modify (m := .refreshToken) (R := fun r r' => r'.familyId = r.familyId)
      (fun _ => rfl) v.db id hf
  dsimp only [update, updateAs, Proc.attempt]
  simp only [hrow']
  exact ⟨none, hretired _ fun _ => rfl,
    .retire id _ _ rfl rfl (Db.table_modify_self v.db .refreshToken id _), rfl⟩

theorem rejectReuse_follows {id : Id} {stored : RefreshToken} {user : User} :
    (rejectReuse id stored user).Follows tokenProtocol (NothingBegun RefreshedSession) s none := by
  apply follows_ignoring ignores_date
  intro now t _ u _
  have hkeeps : KeepsFamilies u (u.setDb (u.db.modifyAll .refreshToken fun _ r =>
      if r.familyId = stored.familyId ∧ r.revokedAt = none then { r with revokedAt := some now }
      else r)) := by
    apply Db.KeepsRows.modifyAll (m := .refreshToken)
    intro _ r
    split <;> rfl
  refine ⟨none, hkeeps, .revoke stored.familyId now rfl (Db.table_modifyAll_self u.db
    .refreshToken _), ?_⟩
  exact follows_ignoring (ignores_create (by decide) _) fun _ _ _ => rfl

theorem refresh_follows (p : Platform) (token : Option String) (newRaw : String) :
    (refresh p token newRaw).Follows tokenProtocol (NothingBegun RefreshedSession) s none := by
  apply Follows.orFail ?_ fun _ => rfl
  intro token _ t _
  -- the token is looked up
  refine ⟨none, tokenProtocol.refl t, .ignore ⟨rfl, rfl⟩, ?_⟩
  apply Follows.orFail ?_ fun _ => rfl
  intro x hx
  have hfamily : t.OfFamily x.1 x.2.1.familyId := by
    obtain ⟨e, he, huser⟩ := Option.bind_eq_some_iff.mp hx
    obtain ⟨user, -, rfl⟩ := Option.map_eq_some_iff.mp huser
    exact ⟨e.2, OrderedMap.get?_eq_some.mpr (List.mem_of_find?_eq_some he), rfl⟩
  show (if x.2.1.replacedByTokenId.isSome = true then rejectReuse x.1 x.2.1 x.2.2
    else refreshStored p x.1 x.2.1 x.2.2 newRaw).Follows tokenProtocol _ t none
  split
  · exact rejectReuse_follows
  · apply follows_ignoring ignores_date
    intro now u hu
    apply follows_require
    intro _
    apply follows_require
    intro _
    apply follows_ignoring ignores_date
    intro later v hv
    apply follows_require
    intro _
    apply follows_require
    intro _
    apply (rotateToken_follows ((hfamily.mono hu).mono hv)).bind
    · rintro w _ _ rfl
      exact follows_ignoring ignores_date fun _ _ _ => rfl
    · exact fun _ _ _ h => h

end Follows

/-! ## The tokens that are not revoked -/

section Unrevoked

variable {s t : TimedDb} {lab : Access} {d d' : Option (Id × Id)}

theorem Db.Unrevoked.isSome {s : Db} {familyId id : Id} (h : s.Unrevoked familyId id) :
    (s.find? .refreshToken id).isSome = true := by
  obtain ⟨r, hrow, -, -⟩ := h
  rw [hrow]
  rfl

theorem unrevoked_of_ignores (h : IgnoresTokens lab s t) (familyId id : Id) :
    t.db.Unrevoked familyId id ↔ s.db.Unrevoked familyId id := by
  unfold Db.Unrevoked Db.find?
  rw [h.2]

theorem unrevoked_create {new : RefreshToken} (hunrevoked : new.revokedAt = none)
    (hnew : t.db.table .refreshToken = (s.db.table .refreshToken).create new) (familyId id : Id) :
    t.db.Unrevoked familyId id ↔ s.db.Unrevoked familyId id ∨
      id = s.db.nextId .refreshToken ∧ familyId = new.familyId := by
  have hfind : t.db.find? .refreshToken id =
      if id = s.db.nextId .refreshToken then some new else s.db.find? .refreshToken id := by
    rw [Db.find?, hnew, OrderedMap.get?_create]
    rfl
  unfold Db.Unrevoked
  rw [hfind]
  by_cases hid : id = s.db.nextId .refreshToken
  · have hnone : s.db.find? .refreshToken id = none := by
      rw [hid]
      exact OrderedMap.get?_nextKey _
    rw [if_pos hid, hnone]
    constructor
    · rintro ⟨r, hr, hfamily, -⟩
      rw [← Option.some.inj hr] at hfamily
      exact .inr ⟨hid, hfamily.symm⟩
    · rintro (⟨r, hr, -, -⟩ | ⟨-, hfamily⟩)
      · exact absurd hr (by simp)
      · exact ⟨new, rfl, hfamily.symm, hunrevoked⟩
  · rw [if_neg hid]
    constructor
    · exact .inl
    · rintro (h | ⟨h, -⟩)
      · exact h
      · exact absurd h hid

theorem unrevoked_retire {token : Id} {f : RefreshToken → RefreshToken}
    (hrevoked : ∀ r, (f r).revokedAt ≠ none)
    (hnew : t.db.table .refreshToken = (s.db.table .refreshToken).modify token f)
    (familyId id : Id) :
    t.db.Unrevoked familyId id ↔ s.db.Unrevoked familyId id ∧ id ≠ token := by
  unfold Db.Unrevoked Db.find?
  rw [hnew, OrderedMap.get?_modify]
  by_cases hid : id = token
  · rw [if_pos hid]
    constructor
    · rintro ⟨r, hr, -, hunrevoked⟩
      obtain ⟨old, -, rfl⟩ := Option.map_eq_some_iff.mp hr
      exact absurd hunrevoked (hrevoked old)
    · exact fun h => absurd hid h.2
  · rw [if_neg hid]
    exact ⟨fun h => ⟨h, hid⟩, fun h => h.1⟩

theorem unrevoked_revoke {family : Id} {now : DateTime}
    (hnew : t.db.table .refreshToken = (s.db.table .refreshToken).updateAll fun _ r =>
      if r.familyId = family ∧ r.revokedAt = none then { r with revokedAt := some now } else r)
    (familyId id : Id) :
    t.db.Unrevoked familyId id ↔ s.db.Unrevoked familyId id ∧ familyId ≠ family := by
  unfold Db.Unrevoked Db.find?
  rw [hnew, OrderedMap.get?_updateAll]
  constructor
  · rintro ⟨r, hr, hfamily, hunrevoked⟩
    obtain ⟨old, hold, rfl⟩ := Option.map_eq_some_iff.mp hr
    by_cases hmet : old.familyId = family ∧ old.revokedAt = none
    · rw [if_pos hmet] at hunrevoked
      exact absurd hunrevoked (Option.some_ne_none now)
    · rw [if_neg hmet] at hfamily hunrevoked
      constructor
      · exact ⟨old, hold, hfamily, hunrevoked⟩
      · rintro rfl
        exact hmet ⟨hfamily, hunrevoked⟩
  · rintro ⟨⟨r, hr, hfamily, hunrevoked⟩, hne⟩
    have hother : ¬ (r.familyId = family ∧ r.revokedAt = none) :=
      fun h => hne (hfamily.symm.trans h.1)
    refine ⟨r, ?_, hfamily, hunrevoked⟩
    rw [hr, Option.map_some, if_neg hother]

end Unrevoked

/-! ## Runs -/

/-- The token that a step replaces. -/
def AuthStep.rotated? : AuthStep → Option Id
  | .rotate id => some id
  | _ => none

/-- A successor is created for a token that is not revoked and has none yet. -/
def Access.RotatesOnce (h : List RefreshEvent) (lab : Access) (s : TimedDb) : Prop :=
  match lab.auth with
  | some (.rotate id) => (∃ r ∈ s.db.find? .refreshToken id, r.revokedAt = none) ∧
      ∀ e ∈ h, ¬ e.Replaces id
  | _ => True

/-- Only a rotation asks for anything. -/
theorem Access.rotatesOnce_iff (h : List RefreshEvent) (lab : Access) (s : TimedDb) :
    lab.RotatesOnce h s ↔ ∀ id ∈ lab.auth.bind AuthStep.rotated?,
      (∃ r ∈ s.db.find? .refreshToken id, r.revokedAt = none) ∧ ∀ e ∈ h, ¬ e.Replaces id := by
  unfold Access.RotatesOnce
  rcases lab.auth with _ | step
  · simp
  · cases step <;> simp [AuthStep.rotated?]

instance (h : List RefreshEvent) (lab : Access) (s : TimedDb) : Decidable (lab.RotatesOnce h s) :=
  decidable_of_iff' _ (Access.rotatesOnce_iff h lab s)

/-- A token that is neither revoked nor expired. -/
def TimedDb.Live (s : TimedDb) (familyId id : Id) : Prop :=
  ∃ r, s.db.find? .refreshToken id = some r ∧ r.familyId = familyId ∧ r.revokedAt = none ∧
    ¬ r.expiresAt < s.clock

theorem TimedDb.Live.unrevoked {s : TimedDb} {familyId id : Id} (h : s.Live familyId id) :
    s.db.Unrevoked familyId id := by
  obtain ⟨r, hrow, hfamily, hunrevoked, -⟩ := h
  exact ⟨r, hrow, hfamily, hunrevoked⟩

/-- A call that refreshes a session, and every call that has nothing to do with the tokens. -/
inductive RefreshCall
  | refresh (p : Platform) (token : Option String) (newRaw : String)
  | other (q : TimedHandler Unit) (h : q.EveryStep IgnoresTokens)

def RefreshCall.handler : RefreshCall → TimedHandler Unit
  | refresh p token newRaw => do let _ ← NexusEfos.refresh p token newRaw
  | other q _ => q

theorem RefreshCall.follows (call : RefreshCall) (s : TimedDb) :
    call.handler.Follows tokenProtocol (NothingBegun Unit) s none := by
  cases call with
  | refresh p token newRaw =>
    apply (refresh_follows p token newRaw).bind
    · rintro t _ b rfl
      rfl
    · exact fun _ _ _ h => h
  | other q h =>
    have hq : q.Follows tokenProtocol (fun t d _ => KeepsFamilies s t ∧ d = none) s none :=
      .of_everyStep (fun _ _ _ _ h => ⟨h.keepsFamilies, TokenStep.ignore h⟩) h
    exact hq.imp fun _ _ _ hend => hend.2

section Runs

variable {ι : Type}

/-- What holds of the tokens that are not revoked, of the replacements that have begun, and of
what has happened.  A family has at most one token that nobody is replacing. -/
structure Rotating (s : TimedDb) (d : ι → Option (Id × Id)) (h : List RefreshEvent) : Prop where
  begun : ∀ i old new, d i = some (old, new) → .rotated old new ∈ h
  last : ∀ family a b, s.db.Unrevoked family a → s.db.Unrevoked family b →
    (∀ e ∈ h, ¬ e.Replaces a) → (∀ e ∈ h, ¬ e.Replaces b) → a = b
  rotated : ∀ old new, .rotated old new ∈ h → (s.db.find? .refreshToken old).isSome = true ∧
    ∀ family, s.db.Unrevoked family old → ∃ i, d i = some (old, new)
  unique : ∀ old new new', .rotated old new ∈ h → .rotated old new' ∈ h → new = new'
  reused : ∀ family, .reused family ∈ h → ∀ id, ¬ s.db.Unrevoked family id

namespace Rotating

variable {s t : TimedDb} {d : ι → Option (Id × Id)} {h : List RefreshEvent}

/-- Tokens may be revoked, whole families at a time. -/
theorem revoked (hs : Rotating s d h) (hrely : KeepsFamilies s t) {kept : Id → Prop}
    (hlive : ∀ family id, t.db.Unrevoked family id ↔ s.db.Unrevoked family id ∧ kept family)
    {new : List RefreshEvent} (hnew : ∀ e ∈ new, ∃ family, e = .reused family ∧ ¬ kept family) :
    Rotating t d (h ++ new) := by
  have hrotated : ∀ {a b}, RefreshEvent.rotated a b ∈ h ++ new → RefreshEvent.rotated a b ∈ h := by
    intro a b hmem
    rcases List.mem_append.mp hmem with hold | hmem
    · exact hold
    · obtain ⟨_, heq, -⟩ := hnew _ hmem
      exact absurd heq nofun
  constructor
  · intro i old new hd
    exact List.mem_append_left _ (hs.begun i old new hd)
  · intro family a b ha hb hanone hbnone
    apply hs.last family a b ((hlive family a).mp ha).1 ((hlive family b).mp hb).1
    · exact fun e he => hanone e (List.mem_append_left _ he)
    · exact fun e he => hbnone e (List.mem_append_left _ he)
  · intro old new hmem
    obtain ⟨hsome, howed⟩ := hs.rotated old new (hrotated hmem)
    exact ⟨hrely.isSome hsome, fun family hold => howed family ((hlive family old).mp hold).1⟩
  · intro old new new' hmem hmem'
    exact hs.unique old new new' (hrotated hmem) (hrotated hmem')
  · intro family hmem id hid
    obtain ⟨hbefore, hkept⟩ := (hlive family id).mp hid
    rcases List.mem_append.mp hmem with hmem | hmem
    · exact hs.reused family hmem id hbefore
    · obtain ⟨_, heq, hdead⟩ := hnew _ hmem
      cases heq
      exact hdead hkept

variable [DecidableEq ι] {i : ι} {old new family : Id}

/-- The successor of a token that had none is created. -/
theorem created (hs : Rotating s d h) (hrely : KeepsFamilies s t) (hd : d i = none)
    (hold : s.db.Unrevoked family old) (hnone : ∀ e ∈ h, ¬ e.Replaces old)
    (hfresh : (s.db.find? .refreshToken new).isSome = false)
    (hlive : ∀ family' id, t.db.Unrevoked family' id ↔ s.db.Unrevoked family' id ∨
      id = new ∧ family' = family) :
    Rotating t (Function.update d i (some (old, new))) (h ++ [.rotated old new]) := by
  have hkept : ∀ {j a b}, d j = some (a, b) →
      Function.update d i (some (old, new)) j = some (a, b) := by
    intro j a b hj
    have hji : j ≠ i := by
      rintro rfl
      rw [hd] at hj
      exact absurd hj nofun
    rwa [Function.update_of_ne hji]
  have hnew : RefreshEvent.rotated old new ∈ h ++ [.rotated old new] :=
    List.mem_append_right _ (List.mem_singleton_self _)
  constructor
  · intro j a b hj
    by_cases hji : j = i
    · rw [hji, Function.update_self] at hj
      cases hj
      exact hnew
    · rw [Function.update_of_ne hji] at hj
      exact List.mem_append_left _ (hs.begun j a b hj)
  · intro family' a b ha hb hanone hbnone
    -- every other token of the family that is not revoked is being replaced
    have hisNew : ∀ id, t.db.Unrevoked family' id →
        (∀ e ∈ h ++ [.rotated old new], ¬ e.Replaces id) → family' = family → id = new := by
      rintro id hid hidnone rfl
      rcases (hlive _ id).mp hid with hid | ⟨heq, -⟩
      · have heq := hs.last _ id old hid hold
          (fun e he => hidnone e (List.mem_append_left _ he)) hnone
        exact absurd heq.symm (hidnone _ hnew)
      · exact heq
    by_cases hfamily : family' = family
    · rw [hisNew a ha hanone hfamily, hisNew b hb hbnone hfamily]
    · have hbefore : ∀ {id}, t.db.Unrevoked family' id → s.db.Unrevoked family' id := by
        intro id hid
        rcases (hlive _ id).mp hid with hid | ⟨-, heq⟩
        · exact hid
        · exact absurd heq hfamily
      apply hs.last family' a b (hbefore ha) (hbefore hb)
      · exact fun e he => hanone e (List.mem_append_left _ he)
      · exact fun e he => hbnone e (List.mem_append_left _ he)
  · intro a b hmem
    rcases List.mem_append.mp hmem with hmem | hmem
    · obtain ⟨hsome, howed⟩ := hs.rotated a b hmem
      refine ⟨hrely.isSome hsome, ?_⟩
      intro family' ha
      rcases (hlive _ a).mp ha with ha | ⟨heq, -⟩
      · obtain ⟨j, hj⟩ := howed family' ha
        exact ⟨j, hkept hj⟩
      · rw [heq, hfresh] at hsome
        exact absurd hsome Bool.false_ne_true
    · cases List.mem_singleton.mp hmem
      exact ⟨hrely.isSome hold.isSome, fun _ _ => ⟨i, Function.update_self ..⟩⟩
  · intro a b b' hmem hmem'
    rcases List.mem_append.mp hmem with hmem | hmem
    · rcases List.mem_append.mp hmem' with hmem' | hmem'
      · exact hs.unique a b b' hmem hmem'
      · cases List.mem_singleton.mp hmem'
        exact absurd rfl (hnone _ hmem)
    · cases List.mem_singleton.mp hmem
      rcases List.mem_append.mp hmem' with hmem' | hmem'
      · exact absurd rfl (hnone _ hmem')
      · cases List.mem_singleton.mp hmem'
        rfl
  · intro family' hmem id hid
    have hmem : RefreshEvent.reused family' ∈ h := by
      rcases List.mem_append.mp hmem with hmem | hmem
      · exact hmem
      · exact absurd (List.mem_singleton.mp hmem) nofun
    rcases (hlive _ id).mp hid with hid | ⟨-, rfl⟩
    · exact hs.reused family' hmem id hid
    · exact hs.reused _ hmem old hold

/-- The token that was replaced is revoked. -/
theorem retired (hs : Rotating s d h) (hrely : KeepsFamilies s t) (hd : d i = some (old, new))
    (hlive : ∀ family' id, t.db.Unrevoked family' id ↔ s.db.Unrevoked family' id ∧ id ≠ old) :
    Rotating t (Function.update d i none) h := by
  constructor
  · intro j a b hj
    by_cases hji : j = i
    · rw [hji, Function.update_self] at hj
      exact absurd hj nofun
    · rw [Function.update_of_ne hji] at hj
      exact hs.begun j a b hj
  · intro family' a b ha hb
    exact hs.last family' a b ((hlive _ a).mp ha).1 ((hlive _ b).mp hb).1
  · intro a b hmem
    obtain ⟨hsome, howed⟩ := hs.rotated a b hmem
    refine ⟨hrely.isSome hsome, ?_⟩
    intro family' ha
    obtain ⟨hbefore, hne⟩ := (hlive _ a).mp ha
    obtain ⟨j, hj⟩ := howed family' hbefore
    have hji : j ≠ i := by
      rintro rfl
      rw [hd] at hj
      cases hj
      exact hne rfl
    exact ⟨j, by rwa [Function.update_of_ne hji]⟩
  · exact hs.unique
  · intro family' hmem id hid
    exact hs.reused family' hmem id ((hlive _ id).mp hid).1

/-- One statement of a run. -/
theorem step {lab : Access} {d' : Option (Id × Id)} (hs : Rotating s d h)
    (hrely : KeepsFamilies s t) (hguar : TokenStep lab s (d i) t d') (hlab : lab.RotatesOnce h s) :
    Rotating t (Function.update d i d') (h ++ refreshEvents lab s t) := by
  cases hguar with
  | ignore hignore =>
    rw [Function.update_eq_self, refreshEvents, hignore.1]
    have hlive : ∀ family id, t.db.Unrevoked family id ↔ s.db.Unrevoked family id ∧ True := by
      intro family id
      rw [unrevoked_of_ignores hignore, and_true]
    exact hs.revoked hrely hlive fun e he => absurd he List.not_mem_nil
  | create id stored new hd hrotate hrow hfamily hunrevoked hnew =>
    rw [refreshEvents, hrotate]
    rw [Access.RotatesOnce, hrotate] at hlab
    obtain ⟨⟨r, hr, hrevoked⟩, hnone⟩ := hlab
    have hold : s.db.Unrevoked stored.familyId id := by
      rw [Option.mem_def, hrow] at hr
      cases hr
      exact ⟨stored, hrow, rfl, hrevoked⟩
    apply hs.created hrely hd hold hnone
    · exact congrArg Option.isSome (OrderedMap.get?_nextKey _)
    · intro family' id'
      rw [unrevoked_create hunrevoked hnew, hfamily]
  | retire id newToken now hd hnone hnew =>
    rw [refreshEvents, hnone, List.append_nil]
    apply hs.retired hrely hd
    exact unrevoked_retire (fun _ => Option.some_ne_none now) hnew
  | revoke family now hreuse hnew =>
    rw [Function.update_eq_self, refreshEvents, hreuse]
    apply hs.revoked hrely (unrevoked_revoke hnew)
    intro e he
    exact ⟨family, List.mem_singleton.mp he, fun hne => hne rfl⟩

omit [DecidableEq ι] in
/-- A token that has a successor is not revoked only as long as its call goes on. -/
theorem not_replaced (hs : Rotating s d h) (hd : ∀ i, d i = none) {id family : Id}
    (hid : s.db.Unrevoked family id) : ∀ e ∈ h, ¬ e.Replaces id := by
  intro e he hreplaces
  cases e with
  | rotated old new =>
    obtain rfl : old = id := hreplaces
    obtain ⟨i, hi⟩ := (hs.rotated old new he).2 family hid
    rw [hd i] at hi
    exact absurd hi nofun
  | reused family => exact hreplaces

end Rotating

variable [DecidableEq ι]

def refreshPool (calls : ι → RefreshCall) (s : TimedDb) :
    Pool ι Access TimedDb Failure Unit :=
  ⟨fun i => (calls i).handler, s⟩

/-- At most one token of every family is not revoked. -/
def Db.OneUnrevoked (s : Db) : Prop :=
  ∀ family a b, s.Unrevoked family a → s.Unrevoked family b → a = b

/-- What a run of calls does to the sessions: a token gets at most one successor, a family has at
most one live token while no call is in progress, and it has none after one of its tokens has been
found to be reused. -/
structure RotatesTokens (calls : ι → RefreshCall) (s : TimedDb) (sched : List ι) : Prop where
  successor : ∀ old new new',
    .rotated old new ∈ (refreshPool calls s).history refreshEvents sched →
    .rotated old new' ∈ (refreshPool calls s).history refreshEvents sched → new = new'
  oneLive : (∀ i ∈ sched, ∃ r, ((refreshPool calls s).run sched).threads i = .done r) →
    ∀ family a b, ((refreshPool calls s).run sched).state.Live family a →
      ((refreshPool calls s).run sched).state.Live family b → a = b
  reused : ∀ family, .reused family ∈ (refreshPool calls s).history refreshEvents sched →
    ∀ id, ¬ ((refreshPool calls s).run sched).state.Live family id

/-- A run in which every successor is created for a token that is not revoked and has none yet. -/
theorem refresh_rotates (calls : ι → RefreshCall) (s : TimedDb) (sched : List ι)
    (hstart : s.db.OneUnrevoked)
    (hrotates : (refreshPool calls s).AllowedAfter refreshEvents Access.RotatesOnce [] sched) :
    RotatesTokens calls s sched := by
  have hfollows : (refreshPool calls s).Follows tokenProtocol (fun d _ => d = none)
      fun _ => none := fun i => (calls i).follows s
  have hbegin : Rotating s (fun _ : ι => none) [] := by
    constructor
    · exact fun _ _ _ hd => absurd hd nofun
    · exact fun family a b ha hb _ _ => hstart family a b ha hb
    · exact fun _ _ hmem => absurd hmem List.not_mem_nil
    · exact fun _ _ _ hmem => absurd hmem List.not_mem_nil
    · exact fun _ hmem => absurd hmem List.not_mem_nil
  obtain ⟨d, hend, hidle, hrun⟩ := hfollows.run_debts
    (fun i lab t d t' d' h hguar hrely hlab ht => ht.step hrely hguar hlab) hbegin hrotates
  rw [List.nil_append] at hrun
  constructor
  · exact hrun.unique
  · intro hdone family a b ha hb
    have hnobody : ∀ i, d i = none := by
      intro i
      by_cases hi : i ∈ sched
      · obtain ⟨r, hr⟩ := hdone i hi
        have hi := hend i
        rw [hr] at hi
        exact hi
      · exact hidle i hi
    exact hrun.last family a b ha.unrevoked hb.unrevoked
      (hrun.not_replaced hnobody ha.unrevoked) (hrun.not_replaced hnobody hb.unrevoked)
  · exact fun family hmem id hid => hrun.reused family hmem id hid.unrevoked

end Runs

/-! ## Two requests with one token -/

/-- A user with a session. -/
def sessionDb : TimedDb where
  db := userDb.db.insert .refreshToken
    { userId := 1, tokenHash := "first", expiresAt := 1000, familyId := 1 }
  clock := 0

theorem sessionDb_oneUnrevoked : sessionDb.db.OneUnrevoked := by
  have hone : ∀ id r, sessionDb.db.find? .refreshToken id = some r → id = 1 := by
    intro id r h
    have hmem : (id, r) ∈ (sessionDb.db.table .refreshToken).entries :=
      OrderedMap.get?_eq_some.mp h
    exact congrArg Prod.fst (List.mem_singleton.mp hmem)
  rintro family a b ⟨r, hr, -, -⟩ ⟨r', hr', -, -⟩
  rw [hone a r hr, hone b r' hr']

/-- Two tabs of a browser refresh the session. -/
def twoRefreshes : Fin 2 → RefreshCall
  | 0 => .refresh plainPlatform (some "first") "second"
  | 1 => .refresh plainPlatform (some "first") "third"

/-- One after the other, the second request is a reuse. -/
theorem refresh_rotates_twoRefreshes :
    RotatesTokens twoRefreshes sessionDb [0, 0, 0, 0, 0, 0, 0, 1, 1, 1, 1] := by
  apply refresh_rotates twoRefreshes sessionDb _ sessionDb_oneUnrevoked
  decide +kernel

/-- Side by side, both are answered with a token of their own. -/
theorem refresh_rotates_twice :
    ¬ ∀ (calls : Fin 2 → RefreshCall) (s : TimedDb) (sched : List (Fin 2)),
      s.db.OneUnrevoked → RotatesTokens calls s sched := by
  intro h
  have hrun := h twoRefreshes sessionDb [0, 1, 0, 0, 0, 0, 0, 0, 1, 1, 1, 1, 1, 1]
    sessionDb_oneUnrevoked
  have htwo := hrun.successor 1 2 3 (by decide +kernel) (by decide +kernel)
  exact absurd htwo (by decide)

end NexusEfos
