/-
Changing a password: `POST /change-password` of `routes/auth.routes.ts`.

A change that is accepted moves the hash of the old password into the history, and the new password
is compared with the current hash and with the latest rows of the history.  Along a run of changes
these rows are the hashes of the passwords that were accepted before the current one
(`Db.Remembers`).
-/
import NexusEfos.Auth.SecondFactor
import NexusEfos.Handlers
import NexusEfos.Library.StableSort
import Mathlib.Data.List.Sort

namespace NexusEfos

/-! ## The policy -/

def passwordMinLength : ℕ := 12

def passwordMaxLength : ℕ := 128

def passwordHistoryDepth : ℕ := 5

def passwordExpiryDate (start : DateTime) : DateTime := start + 90 * msPerDay

/-- The error, if there is one. -/
def validatePasswordLength (password : String) : Option String :=
  if jsLength password < passwordMinLength then
    some ("Password must be at least " ++ toString passwordMinLength ++ " characters.")
  else if passwordMaxLength < jsLength password then
    some ("Password must be at most " ++ toString passwordMaxLength ++ " characters.")
  else none

/-- `isPasswordReused`, with the comparison of passwords and hashes. -/
def isPasswordReused (compare : String → String → Bool) (newPassword : String) :
    List String → Bool
  | [] => false
  | oldHash :: rest => compare newPassword oldHash || isPasswordReused compare newPassword rest

/-! ## The endpoint -/

/-- The passwords that a user has changed, the latest first. -/
def Db.passwordHistory (s : Db) (userId : Id) : List UserPasswordHistory :=
  ((s.table .userPasswordHistory).values.filter fun h => h.userId = userId).insertionSort
    fun a b => b.createdAt ≤ a.createdAt

/-- A call, with its time and the salt that is drawn for the new hash. -/
structure PasswordChange where
  now : DateTime
  currentPassword : String
  newPassword : String
  salt : String

section Endpoint

variable (p : Platform) (hash : String → String → String) (auth : Auth)

/-- The old hash is kept, and the new one takes its place. -/
def storePassword (now : DateTime) (oldHash newHash : String) : Handler Unit := do
  let _ ← create .userPasswordHistory
    { userId := auth.userId, passwordHash := oldHash, createdAt := now }
  let _ ← update .user auth.userId fun u =>
    { u with passwordHash := newHash, passwordChangedAt := some now,
             passwordExpiresAt := some (passwordExpiryDate now), mustChangePassword := false }

/-- `POST /change-password`, where `hash password salt` is the hash that is stored. -/
def changePassword (call : PasswordChange) : Handler Unit := do
  Proc.require (passwordMinLength ≤ jsLength call.newPassword) .invalid
  Proc.require ((validatePasswordLength call.newPassword).isNone = true)
    (.http 400 ((validatePasswordLength call.newPassword).getD ""))
  let found ← findUnique .user auth.userId
  let user ← Proc.orFail found (.http 404 "User not found")
  Proc.require (p.bcryptCompare call.currentPassword user.passwordHash = true)
    (.http 401 "Current password is incorrect")
  let sameAsCurrent := p.bcryptCompare call.newPassword user.passwordHash
  let recentHistory ← query fun s => (s.passwordHistory auth.userId).take passwordHistoryDepth
  let reused := sameAsCurrent || isPasswordReused p.bcryptCompare call.newPassword
    (recentHistory.map UserPasswordHistory.passwordHash)
  Proc.require (reused = false)
    (.http 400 ("New password can't match your current password or your last " ++
      toString passwordHistoryDepth ++ " passwords."))
  Proc.transaction {}
    (storePassword auth call.now user.passwordHash (hash call.newPassword call.salt))
  let _ ← create .auditLog
    { institutionId := user.institutionId, userId := some auth.userId,
      action := "auth.change_password", resource := "" }

end Endpoint

/-! ## What a change that is accepted has done -/

/-- The comparison finds exactly the password that a hash was made from. -/
def ExactComparison (p : Platform) (hash : String → String → String) : Prop :=
  ∀ candidate password salt, p.bcryptCompare candidate (hash password salt) = true ↔
    candidate = password

theorem isPasswordReused_eq_false {compare : String → String → Bool} {newPassword : String}
    {hashes : List String} (h : isPasswordReused compare newPassword hashes = false) :
    ∀ oldHash ∈ hashes, compare newPassword oldHash = false := by
  induction hashes with
  | nil => exact nofun
  | cons first rest ih =>
    rw [isPasswordReused, Bool.or_eq_false_iff] at h
    rw [List.forall_mem_cons]
    exact ⟨h.1, ih h.2⟩

section Accepted

variable {p : Platform} {hash : String → String → String} {auth : Auth} {call : PasswordChange}
  {s t : Db}

/-- The change is accepted for a user, and this is what it leaves. -/
structure Accepted (p : Platform) (hash : String → String → String) (auth : Auth)
    (call : PasswordChange) (s t : Db) (user : User) : Prop where
  found : s.find? .user auth.userId = some user
  current : p.bcryptCompare call.currentPassword user.passwordHash = true
  notCurrent : p.bcryptCompare call.newPassword user.passwordHash = false
  notRecent : ∀ h ∈ (s.passwordHistory auth.userId).take passwordHistoryDepth,
    p.bcryptCompare call.newPassword h.passwordHash = false
  user_after : ∃ user', t.find? .user auth.userId = some user' ∧
    user'.passwordHash = hash call.newPassword call.salt
  history_after : (t.table .userPasswordHistory).values =
    (s.table .userPasswordHistory).values ++
      [{ userId := auth.userId, passwordHash := user.passwordHash, createdAt := call.now }]

theorem run_storePassword {user : User} (hfound : s.find? .user auth.userId = some user)
    (now : DateTime) (oldHash newHash : String) :
    ∃ u, (storePassword auth now oldHash newHash).run s = (.ok (), u) ∧
      (∃ user', u.find? .user auth.userId = some user' ∧ user'.passwordHash = newHash) ∧
      (u.table .userPasswordHistory).values = (s.table .userPasswordHistory).values ++
        [{ userId := auth.userId, passwordHash := oldHash, createdAt := now }] := by
  have hstill : ∀ row, (s.insert .userPasswordHistory row).find? .user auth.userId = some user := by
    intro row
    rw [Db.find?_insert_of_ne (by decide), hfound]
  unfold storePassword
  rw [Proc.run_bind_ok (run_create ..)]
  have hupdate : ∀ (data : User → User) (row : UserPasswordHistory),
      (update .user auth.userId data).run (s.insert .userPasswordHistory row) =
        (.ok (data user), (s.insert .userPasswordHistory row).modify .user auth.userId data) := by
    intro data row
    rw [run_update, hstill]
  rw [Proc.run_bind_ok (hupdate _ _)]
  refine ⟨_, rfl, ?_, ?_⟩
  · rw [Db.find?_modify, if_pos rfl, hstill]
    exact ⟨_, rfl, rfl⟩
  · rw [Db.table_modify_of_ne (by decide), Db.table_insert_self, OrderedMap.values_create]

theorem accepted_of_run (h : (changePassword p hash auth call).run s = (.ok (), t)) :
    ∃ user, Accepted p hash auth call s t user := by
  obtain ⟨-, h⟩ := run_require_bind_eq_ok h
  obtain ⟨-, h⟩ := run_require_bind_eq_ok h
  have h := run_query_bind h
  obtain ⟨user, hfound, h⟩ := run_orFail_bind_eq_ok h
  obtain ⟨hcurrent, h⟩ := run_require_bind_eq_ok h
  have h := run_query_bind h
  obtain ⟨hreused, h⟩ := run_require_bind_eq_ok h
  rw [Bool.or_eq_false_iff] at hreused
  obtain ⟨u, hstore, ⟨user', huser, hhash⟩, hhistory⟩ := run_storePassword hfound call.now
    user.passwordHash (hash call.newPassword call.salt)
  obtain ⟨_, v, htransaction, h⟩ := Proc.run_bind_eq_ok h
  have hv := Proc.run_transaction_eq_ok htransaction
  rw [hstore] at hv
  cases hv
  cases h
  have hnotRecent := isPasswordReused_eq_false hreused.2
  rw [List.forall_mem_map] at hnotRecent
  refine ⟨user, hfound, hcurrent, hreused.1, hnotRecent, ⟨user', ?_, hhash⟩, ?_⟩
  · rw [Db.find?_insert_of_ne (by decide), huser]
  · rw [Db.table_insert_of_ne (by decide), hhistory]

/-- A change that is refused leaves everything as it was. -/
theorem unchanged_of_run {e : Failure}
    (h : (changePassword p hash auth call).run s = (.error e, t)) : t = s := by
  have hends : (changePassword p hash auth call).Ends (fun r t => ∀ e, r = .error e → t = s) s := by
    have hfailed : ∀ f e : Failure, (Except.error f : Except Failure Unit) = .error e → s = s :=
      fun _ _ _ => rfl
    apply Proc.Ends.require _ fun _ => hfailed _
    intro _
    apply Proc.Ends.require _ fun _ => hfailed _
    intro _
    apply ends_query
    apply Proc.Ends.orFail _ fun _ => hfailed _
    intro user _
    apply Proc.Ends.require _ fun _ => hfailed _
    intro _
    apply ends_query
    apply Proc.Ends.require _ fun _ => hfailed _
    intro _
    apply Proc.Ends.transaction _ hfailed
    intro _ u _
    apply ends_create
    exact fun _ h => nomatch h
  unfold Proc.Ends at hends
  rw [h] at hends
  exact hends e rfl

end Accepted

/-! ## A run of changes -/

section Runs

variable (p : Platform) (hash : String → String → String) (auth : Auth)

/-- The next call, after the passwords that were accepted so far, the latest first. -/
def changeNext (run : List String × Db) (call : PasswordChange) : List String × Db :=
  match (changePassword p hash auth call).run run.2 with
  | (.ok (), t) => (call.newPassword :: run.1, t)
  | (.error _, t) => (run.1, t)

/-- The passwords that the calls of a user had accepted, the latest first. -/
def changeAll (calls : List PasswordChange) (s : Db) : List String × Db :=
  calls.foldl (changeNext p hash auth) ([], s)

/-- The rows of a user's history, in the order of the table. -/
def Db.historyRows (s : Db) (userId : Id) : List UserPasswordHistory :=
  (s.table .userPasswordHistory).values.filter fun h => h.userId = userId

/-- The last password that was accepted is the current one, and those before it head the
history. -/
def Db.Remembers (s : Db) (userId : Id) : List String → Prop
  | [] => True
  | latest :: before =>
    (∃ user salt, s.find? .user userId = some user ∧ user.passwordHash = hash latest salt) ∧
      ∀ (i : ℕ) password, before[i]? = some password →
        ∃ row salt, (s.passwordHistory userId)[i]? = some row ∧
          row.passwordHash = hash password salt

end Runs

section Remembers

variable {p : Platform} {hash : String → String → String} {auth : Auth} {call : PasswordChange}
  {s t : Db} {user : User}

theorem Accepted.historyRows (h : Accepted p hash auth call s t user) :
    t.historyRows auth.userId = s.historyRows auth.userId ++
      [{ userId := auth.userId, passwordHash := user.passwordHash, createdAt := call.now }] := by
  unfold Db.historyRows
  rw [h.history_after, List.filter_append, List.filter_singleton]
  simp

/-- A row that is later than all the others heads the history. -/
theorem Accepted.passwordHistory (h : Accepted p hash auth call s t user)
    (hlast : ∀ row ∈ s.historyRows auth.userId, row.createdAt < call.now) :
    t.passwordHistory auth.userId =
      { userId := auth.userId, passwordHash := user.passwordHash, createdAt := call.now } ::
        s.passwordHistory auth.userId := by
  have hrows := h.historyRows
  unfold Db.historyRows at hrows hlast
  unfold Db.passwordHistory
  rw [hrows]
  apply insertionSort_concat
  intro row hrow
  exact not_le_of_gt (hlast row hrow)

theorem Accepted.remembers (h : Accepted p hash auth call s t user) {accepted : List String}
    (hs : s.Remembers hash auth.userId accepted)
    (hlast : ∀ row ∈ s.historyRows auth.userId, row.createdAt < call.now) :
    t.Remembers hash auth.userId (call.newPassword :: accepted) := by
  obtain ⟨user', huser, hhash⟩ := h.user_after
  refine ⟨⟨user', call.salt, huser, hhash⟩, ?_⟩
  rw [h.passwordHistory hlast]
  intro i password hi
  cases accepted with
  | nil => simp at hi
  | cons latest before =>
    obtain ⟨⟨current, salt, hcurrent, hlatest⟩, hbefore⟩ := hs
    cases i with
    | zero =>
      -- The newest row holds the hash that was current.
      rw [h.found, Option.some.injEq] at hcurrent
      rw [List.getElem?_cons_zero, Option.some.injEq] at hi
      exact ⟨_, salt, rfl, by rw [hcurrent, hlatest, hi]⟩
    | succ i =>
      rw [List.getElem?_cons_succ] at hi ⊢
      exact hbefore i password hi

theorem changeAll_concat (calls : List PasswordChange) (s : Db) :
    changeAll p hash auth (calls ++ [call]) s =
      changeNext p hash auth (changeAll p hash auth calls s) call := by
  unfold changeAll
  rw [List.foldl_concat]

variable (p hash auth call) in
theorem changeNext_cases (accepted : List String) (s : Db) :
    (∃ user, (changeNext p hash auth (accepted, s) call).1 = call.newPassword :: accepted ∧
      Accepted p hash auth call s (changeNext p hash auth (accepted, s) call).2 user) ∨
    changeNext p hash auth (accepted, s) call = (accepted, s) := by
  unfold changeNext
  cases hrun : (changePassword p hash auth call).run s with
  | mk r t =>
    cases r with
    | ok _ =>
      obtain ⟨user, haccepted⟩ := accepted_of_run hrun
      exact .inl ⟨user, rfl, haccepted⟩
    | error e =>
      right
      show (accepted, t) = (accepted, s)
      rw [unchanged_of_run hrun]

/-- A row of the history is as old as the run, or a call of the run has written it. -/
theorem row_of_changeAll (calls : List PasswordChange) (s : Db) :
    ∀ row ∈ (changeAll p hash auth calls s).2.historyRows auth.userId,
      row ∈ s.historyRows auth.userId ∨ ∃ call ∈ calls, row.createdAt = call.now := by
  induction calls using List.reverseRecOn with
  | nil => exact fun row hrow => .inl hrow
  | append_singleton calls call ih =>
    have hlater : ∀ row, (row ∈ s.historyRows auth.userId ∨ ∃ c ∈ calls, row.createdAt = c.now) →
        row ∈ s.historyRows auth.userId ∨ ∃ c ∈ calls ++ [call], row.createdAt = c.now := by
      rintro row (hold | ⟨c, hc, hrow⟩)
      · exact .inl hold
      · exact .inr ⟨c, List.mem_append_left _ hc, hrow⟩
    intro row hrow
    rw [changeAll_concat] at hrow
    obtain ⟨user, -, haccepted⟩ | hsame := changeNext_cases p hash auth call
      (changeAll p hash auth calls s).1 (changeAll p hash auth calls s).2
    · rw [haccepted.historyRows, List.mem_append, List.mem_singleton] at hrow
      obtain hrow | rfl := hrow
      · exact hlater row (ih row hrow)
      · exact .inr ⟨call, List.mem_append_right _ (List.mem_singleton_self call), rfl⟩
    · rw [hsame] at hrow
      exact hlater row (ih row hrow)

/-- Along a run in the order of the clock, whose rows have distinct times, the history remembers
what was accepted. -/
theorem remembers_changeAll (calls : List PasswordChange) (s : Db)
    (hordered : calls.Pairwise fun c d => c.now ≤ d.now)
    (hpast : ∀ row ∈ s.historyRows auth.userId, ∀ c ∈ calls, row.createdAt ≤ c.now)
    (hdistinct : (((changeAll p hash auth calls s).2.historyRows auth.userId).map
      UserPasswordHistory.createdAt).Nodup) :
    (changeAll p hash auth calls s).2.Remembers hash auth.userId
      (changeAll p hash auth calls s).1 := by
  induction calls using List.reverseRecOn with
  | nil => trivial
  | append_singleton calls call ih =>
    rw [List.pairwise_append] at hordered
    obtain ⟨hbefore, -, hcall⟩ := hordered
    have hpast' : ∀ row ∈ s.historyRows auth.userId, ∀ c ∈ calls, row.createdAt ≤ c.now :=
      fun row hrow c hc => hpast row hrow c (List.mem_append_left _ hc)
    rw [changeAll_concat] at hdistinct ⊢
    obtain ⟨user, haccepted, hafter⟩ | hsame := changeNext_cases p hash auth call
      (changeAll p hash auth calls s).1 (changeAll p hash auth calls s).2
    · rw [hafter.historyRows, List.map_append, List.nodup_append] at hdistinct
      obtain ⟨hdistinct, -, hnew⟩ := hdistinct
      rw [haccepted]
      apply hafter.remembers (ih hbefore hpast' hdistinct)
      intro row hrow
      have hne : row.createdAt ≠ call.now := by
        apply hnew _ (List.mem_map_of_mem hrow)
        exact List.mem_singleton_self _
      have hle : row.createdAt ≤ call.now := by
        obtain hold | ⟨c, hc, htime⟩ := row_of_changeAll calls s row hrow
        · exact hpast row hold call (List.mem_append_right _ (List.mem_singleton_self call))
        · rw [htime]
          exact hcall c hc call (List.mem_singleton_self call)
      exact lt_of_le_of_ne hle hne
    · rw [hsame] at hdistinct ⊢
      exact ih hbefore hpast' hdistinct

/-- What is accepted next is none of the passwords that the state remembers. -/
theorem Accepted.not_mem_take (hexact : ExactComparison p hash)
    (h : Accepted p hash auth call s t user) {accepted : List String}
    (hs : s.Remembers hash auth.userId accepted) :
    call.newPassword ∉ accepted.take (passwordHistoryDepth + 1) := by
  cases accepted with
  | nil => simp
  | cons latest before =>
    obtain ⟨⟨current, salt, hcurrent, hlatest⟩, hbefore⟩ := hs
    have hsame : ∀ {password row salt}, row = hash password salt →
        p.bcryptCompare call.newPassword row = false → call.newPassword ≠ password := by
      rintro password _ salt rfl hfalse heq
      rw [(hexact _ _ _).mpr heq] at hfalse
      cases hfalse
    rw [List.take_succ_cons, List.mem_cons, not_or]
    constructor
    · rw [h.found, Option.some.injEq] at hcurrent
      rw [← hcurrent] at hlatest
      exact hsame hlatest h.notCurrent
    · intro hmem
      obtain ⟨i, hi⟩ := List.mem_iff_getElem?.mp hmem
      rw [List.getElem?_take, Option.ite_none_right_eq_some] at hi
      obtain ⟨row, salt, hrow, hhash⟩ := hbefore i _ hi.2
      have hrecent : row ∈ (s.passwordHistory auth.userId).take passwordHistoryDepth := by
        apply List.mem_of_getElem?
        rw [List.getElem?_take, if_pos hi.1, hrow]
      exact hsame hhash (h.notRecent row hrecent) rfl

/-- Along every run of changes of a user, a password that is accepted next differs from the current
one and from the `passwordHistoryDepth` passwords that were accepted before it. -/
theorem password_history_enforced (hexact : ExactComparison p hash)
    (calls : List PasswordChange) (call : PasswordChange) (s u : Db)
    (hordered : (calls ++ [call]).Pairwise fun c d => c.now ≤ d.now)
    (hpast : ∀ row ∈ s.historyRows auth.userId, ∀ c ∈ calls ++ [call], row.createdAt ≤ c.now)
    (hdistinct : (((changeAll p hash auth calls s).2.historyRows auth.userId).map
      UserPasswordHistory.createdAt).Nodup)
    (haccepted : (changePassword p hash auth call).run (changeAll p hash auth calls s).2 =
      (.ok (), u)) :
    call.newPassword ≠ call.currentPassword ∧
      (∀ user password salt,
        (changeAll p hash auth calls s).2.find? .user auth.userId = some user →
          user.passwordHash = hash password salt → call.newPassword ≠ password) ∧
      call.newPassword ∉ (changeAll p hash auth calls s).1.take (passwordHistoryDepth + 1) := by
  obtain ⟨user, hafter⟩ := accepted_of_run haccepted
  rw [List.pairwise_append] at hordered
  have hremembers := remembers_changeAll calls s hordered.1
    (fun row hrow c hc => hpast row hrow c (List.mem_append_left _ hc)) hdistinct
  refine ⟨?_, ?_, hafter.not_mem_take hexact hremembers⟩
  · intro heq
    have hcurrent := hafter.current
    rw [← heq, hafter.notCurrent] at hcurrent
    cases hcurrent
  · rintro current password salt hfound hhash rfl
    rw [hafter.found, Option.some.injEq] at hfound
    have hsame := (hexact call.newPassword call.newPassword salt).mpr rfl
    rw [← hhash, ← hfound, hafter.notCurrent] at hsame
    cases hsame

/-- A hash that keeps the password as it is. -/
def plainHash (password _salt : String) : String := password

theorem exactComparison_plain : ExactComparison plainPlatform plainHash := by
  intro candidate password salt
  exact beq_iff_eq

/-- Six changes in a row. -/
def sixChanges : List PasswordChange :=
  [⟨1, "cedi and pesewa", "first password", ""⟩, ⟨2, "first password", "second password", ""⟩,
    ⟨3, "second password", "third password", ""⟩, ⟨4, "third password", "fourth password", ""⟩,
    ⟨5, "fourth password", "fifth password", ""⟩, ⟨6, "fifth password", "sixth password", ""⟩]

def seventhChange : PasswordChange := ⟨7, "sixth password", "cedi and pesewa", ""⟩

/-- The password from before the run may come back after six others. -/
theorem password_history_enforced_sixChanges :
    seventhChange.newPassword ≠ seventhChange.currentPassword ∧
      (∀ user password salt,
        (changeAll plainPlatform plainHash ⟨1, 1⟩ sixChanges userDb.db).2.find? .user 1 =
            some user →
          user.passwordHash = plainHash password salt → seventhChange.newPassword ≠ password) ∧
      seventhChange.newPassword ∉
        (changeAll plainPlatform plainHash ⟨1, 1⟩ sixChanges userDb.db).1.take
          (passwordHistoryDepth + 1) := by
  have hok : ((changePassword plainPlatform plainHash ⟨1, 1⟩ seventhChange).run
      (changeAll plainPlatform plainHash ⟨1, 1⟩ sixChanges userDb.db).2).1 = .ok () := by
    decide +kernel
  exact password_history_enforced exactComparison_plain sixChanges seventhChange userDb.db _
    (by decide +kernel) (by decide +kernel) (by decide +kernel) (Prod.ext hok rfl)

end Remembers

end NexusEfos
