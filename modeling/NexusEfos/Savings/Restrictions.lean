/-
Restrictions on savings accounts.

A deposit and a withdrawal ask for the active restrictions of the account before they move
its balance, and nothing else does: a fee, its waiver, a standing instruction, a collected
deposit, the reversal of a collection, and interest reach a frozen account
(`frozen_account_charged`).  A restriction binds a run whose other movements happen to
respect it (`restrictions_bind`).
-/
import NexusEfos.Savings.AccountSteps
import NexusEfos.Savings.GuardedPaths

namespace NexusEfos

open Proc

/-! ## What is restricted -/

namespace Db

/-- The rows `checkRestriction` looks at. -/
def activeRestrictions (s : Db) (a : Id) : List (Id × SavingsRestriction) :=
  (s.table .savingsRestriction).entries.filter fun e =>
    decide (e.2.accountId = a ∧ e.2.status = .active)

/-- `checkRestriction` forbids a movement of the account. -/
def Restricts (s : Db) (a : Id) (direction : RestrictionDirection) : Prop :=
  restrictionMessage direction (s.activeRestrictions a) ≠ none

instance (s : Db) (a : Id) (direction : RestrictionDirection) :
    Decidable (s.Restricts a direction) :=
  inferInstanceAs (Decidable (restrictionMessage direction (s.activeRestrictions a) ≠ none))

/-- The account has an active restriction of a type. -/
def HasActive (s : Db) (a : Id) (type : RestrictionType) : Prop :=
  ∃ r ∈ (s.table .savingsRestriction).values, r.accountId = a ∧ r.type = type ∧ r.status = .active

instance (s : Db) (a : Id) (type : RestrictionType) : Decidable (s.HasActive a type) :=
  inferInstanceAs (Decidable (∃ r ∈ (s.table .savingsRestriction).values,
    r.accountId = a ∧ r.type = type ∧ r.status = .active))

/-- While a restriction is active, the balance of its account does not move against it. -/
structure RestrictionsBind (s t : Db) : Prop where
  frozen : ∀ a, s.HasActive a .fullFreeze → t.balanceOf a = s.balanceOf a
  debits : ∀ a, s.HasActive a .debitRestriction → s.balanceOf a ≤ t.balanceOf a
  credits : ∀ a, s.HasActive a .creditRestriction → t.balanceOf a ≤ s.balanceOf a

end Db

/-- A restriction that forbids movements in a direction. -/
def RestrictionType.Forbids (type : RestrictionType) (direction : RestrictionDirection) : Prop :=
  type = .fullFreeze ∨ (direction = .debit ∧ type = .debitRestriction) ∨
    (direction = .credit ∧ type = .creditRestriction)

/-- There is a message if there is a restriction that forbids the movement. -/
theorem restrictionMessage_ne_none {direction : RestrictionDirection}
    {rows : List (Id × SavingsRestriction)} {e : Id × SavingsRestriction} (he : e ∈ rows)
    (hforbids : e.2.type.Forbids direction) : restrictionMessage direction rows ≠ none := by
  induction rows with
  | nil => exact absurd he List.not_mem_nil
  | cons first rest ih =>
    unfold restrictionMessage
    split
    · exact nofun
    · next hfreeze =>
      split
      · exact nofun
      · next hdebit =>
        split
        · exact nofun
        · next hcredit =>
          rcases List.mem_cons.mp he with rfl | hrest
          · rcases hforbids with h | h | h
            · exact absurd h hfreeze
            · exact absurd h hdebit
            · exact absurd h hcredit
          · exact ih hrest

namespace Db

variable {s t : Db} {a : Id} {direction : RestrictionDirection}

theorem HasActive.restricts {type : RestrictionType} (h : s.HasActive a type)
    (hforbids : type.Forbids direction) : s.Restricts a direction := by
  obtain ⟨r, hr, haccount, htype, hactive⟩ := h
  obtain ⟨e, he, rfl⟩ := List.mem_map.mp hr
  have hmem : e ∈ s.activeRestrictions a :=
    List.mem_filter.mpr ⟨he, decide_eq_true ⟨haccount, hactive⟩⟩
  apply restrictionMessage_ne_none hmem
  rw [htype]
  exact hforbids

theorem restricts_congr (h : s.Agree [.savingsRestriction] t) :
    t.Restricts a direction ↔ s.Restricts a direction := by
  unfold Restricts activeRestrictions
  rw [h _ (by decide)]

/-- No balance moves against what `checkRestriction` forbids. -/
structure Bound (s t : Db) : Prop where
  debits : ∀ a, s.Restricts a .debit → s.balanceOf a ≤ t.balanceOf a
  credits : ∀ a, s.Restricts a .credit → t.balanceOf a ≤ s.balanceOf a

theorem Bound.restrictionsBind (h : s.Bound t) : s.RestrictionsBind t := by
  constructor
  · intro a hactive
    have hfreeze : ∀ direction, s.Restricts a direction := fun direction =>
      hactive.restricts (.inl rfl)
    exact le_antisymm (h.credits a (hfreeze .credit)) (h.debits a (hfreeze .debit))
  · intro a hactive
    exact h.debits a (hactive.restricts (.inr (.inl ⟨rfl, rfl⟩)))
  · intro a hactive
    exact h.credits a (hactive.restricts (.inr (.inr ⟨rfl, rfl⟩)))

/-- Nothing moves. -/
theorem Bound.of_eq (h : ∀ a, t.balanceOf a = s.balanceOf a) : s.Bound t := by
  constructor
  · intro a _
    exact (h a).ge
  · intro a _
    exact (h a).le

theorem AccountsStand.balanceOf_eq (h : s.AccountsStand t) (a : Id) :
    t.balanceOf a = s.balanceOf a := by
  have hsame : s.balanceOf a = t.balanceOf a :=
    Db.RelateAccounts.balanceOf h rfl fun _ _ hstands => hstands.1.symm
  exact hsame.symm

theorem AccountsStand.bound (h : s.AccountsStand t) : s.Bound t := .of_eq h.balanceOf_eq

end Db

/-! ## The condition -/

/-- No active restriction forbids a movement of the account by an amount. -/
structure Db.AllowsMovement (s : Db) (a : Id) (x : ℚ) : Prop where
  debit : x < 0 → ¬ s.Restricts a .debit
  credit : 0 < x → ¬ s.Restricts a .credit

instance (s : Db) (a : Id) (x : ℚ) : Decidable (s.AllowsMovement a x) :=
  decidable_of_iff ((x < 0 → ¬ s.Restricts a .debit) ∧ (0 < x → ¬ s.Restricts a .credit))
    ⟨fun h => ⟨h.1, h.2⟩, fun h => ⟨h.1, h.2⟩⟩

/-- What a statement is to move, no active restriction of the accounts forbids. -/
structure Access.HeedsRestrictions (lab : Access) (s : Db) : Prop where
  overwrites : ∀ o ∈ lab.overwrites, s.AllowsMovement o.accountId (toNumber o.change)
  increments : ∀ i ∈ lab.increments, s.AllowsMovement i.1 i.2

instance (lab : Access) (s : Db) : Decidable (lab.HeedsRestrictions s) :=
  decidable_of_iff ((∀ o ∈ lab.overwrites, s.AllowsMovement o.accountId (toNumber o.change)) ∧
      ∀ i ∈ lab.increments, s.AllowsMovement i.1 i.2)
    ⟨fun h => ⟨h.1, h.2⟩, fun h => ⟨h.1, h.2⟩⟩

/-- The operations that call `checkRestriction`. -/
def SavingsOperation.checksRestriction : SavingsOperation → Bool
  | .deposit .. | .withdraw .. => true
  | _ => false

/-- A movement that is made without a check respects the restrictions all the same. -/
def SavingsCall.HeedsRestrictions : SavingsCall → Db → Prop
  | .move op, s =>
    op.checksRestriction = false → op.handler.Meets Access.HeedsRestrictions s
  | _, _ => True

instance : (call : SavingsCall) → (s : Db) → Decidable (call.HeedsRestrictions s)
  | .move op, s => inferInstanceAs (Decidable (op.checksRestriction = false →
      op.handler.Meets Access.HeedsRestrictions s))
  | .openAccount .., _ | .closeAccount .., _ | .reactivateAccount .., _
  | .requestRestriction .., _ | .requestRestrictionRemoval .., _ | .resolve _, _ | .other .., _ =>
    isTrue trivial

/-- So does every call of a run. -/
def HeedsRestrictions : List SavingsCall → Db → Prop
  | [], _ => True
  | call :: calls, s =>
    call.HeedsRestrictions s ∧ NexusEfos.HeedsRestrictions calls (call.handler.run s).2

instance decidableHeedsRestrictions :
    (calls : List SavingsCall) → (s : Db) → Decidable (HeedsRestrictions calls s)
  | [], _ => isTrue trivial
  | call :: calls, s =>
    have := decidableHeedsRestrictions calls (call.handler.run s).2
    inferInstanceAs (Decidable (call.HeedsRestrictions s ∧
      NexusEfos.HeedsRestrictions calls (call.handler.run s).2))

/-! ## The checked movements -/

section Checked

variable {s : Db} {a : Id}

theorem Access.heedsRestrictions_empty (s : Db) : Access.HeedsRestrictions {} s := ⟨nofun, nofun⟩

/-- Past the check no active restriction forbids the movement. -/
theorem meets_checkRestriction {α : Type} {direction : RestrictionDirection}
    {k : Unit → Handler α}
    (hk : ¬ s.Restricts a direction → (k ()).Meets Access.HeedsRestrictions s) :
    (checkRestriction a direction >>= fun message => refuse message >>= k).Meets
      Access.HeedsRestrictions s := by
  unfold checkRestriction
  rw [bind_assoc]
  apply meets_query (Access.heedsRestrictions_empty s)
  show ((refuse (restrictionMessage direction (s.activeRestrictions a)) >>= k).Meets _ s)
  cases hmessage : restrictionMessage direction (s.activeRestrictions a) with
  | some message => trivial
  | none => exact hk fun h => h hmessage

/-- The record at the end of a movement. -/
theorem meets_log {α : Type} (s : Db) (entry : AuditLog) (r : α) :
    (do
      let _ ← create .auditLog entry
      return r : Handler α).Meets Access.HeedsRestrictions s :=
  meets_create (Access.heedsRestrictions_empty s) fun _ _ => trivial

theorem deposit_heedsRestrictions (auth : Auth) (now : DateTime) (a : Id) (x : ℚ) (s : Db) :
    (deposit auth now a x).Meets Access.HeedsRestrictions s := by
  have hempty := Access.heedsRestrictions_empty s
  apply Meets.require
  intro hx
  apply meets_query hempty
  apply Meets.orFail
  intro account _
  apply meets_checkRestriction
  intro hfree
  apply meets_query hempty
  apply Meets.orFail
  intro accounts _
  apply meets_requirePostablePeriod hempty
  apply meets_findUniqueOrThrow hempty
  intro cash _
  apply meets_findUniqueOrThrow hempty
  intro liability _
  apply Meets.require
  intro _
  have hlabel : s.AllowsMovement a x := ⟨fun hneg => absurd hneg hx.not_gt, fun _ => hfree⟩
  refine Meets.bind ⟨⟨nofun, List.forall_mem_singleton.mpr hlabel⟩, trivial⟩ ?_
  intro result t _
  exact meets_log t _ result

theorem withdraw_heedsRestrictions (auth : Auth) (now : DateTime) (a : Id) (x : ℚ) (s : Db) :
    (withdraw auth now a x).Meets Access.HeedsRestrictions s := by
  have hempty := Access.heedsRestrictions_empty s
  apply Meets.require
  intro hx
  apply meets_query hempty
  apply Meets.orFail
  intro account _
  apply meets_checkRestriction
  intro hfree
  apply meets_query hempty
  apply Meets.orFail
  intro accounts _
  apply meets_requirePostablePeriod hempty
  apply meets_findUniqueOrThrow hempty
  intro cash _
  apply meets_findUniqueOrThrow hempty
  intro liability _
  apply Meets.require
  intro _
  have hneg : -x < 0 := neg_neg_of_pos hx
  have hlabel : s.AllowsMovement a (-x) := ⟨fun _ => hfree, fun hpos => absurd hpos hneg.not_gt⟩
  refine Meets.bind ⟨⟨nofun, List.forall_mem_singleton.mpr hlabel⟩, trivial⟩ ?_
  intro result t _
  exact meets_log t _ result

/-- The operations that check need no condition. -/
theorem SavingsOperation.heedsRestrictions {op : SavingsOperation}
    (h : op.checksRestriction = true) (s : Db) : op.handler.Meets Access.HeedsRestrictions s := by
  cases op with
  | deposit auth now a x =>
    exact (deposit_heedsRestrictions auth now a x s).bind fun _ _ _ => trivial
  | withdraw auth now a x =>
    exact (withdraw_heedsRestrictions auth now a x s).bind fun _ _ _ => trivial
  | _ => exact absurd h nofun

end Checked

/-! ## One call -/

/-- A balance does not fall by a positive amount added. -/
theorem le_increment {x : ℚ} (hx : 0 ≤ x) (c : Cents) : c ≤ increment c x := by
  have hle : toNumber c ≤ toNumber c + x := by linarith
  have hround := ofNumber_le_ofNumber hle
  rwa [ofNumber_toNumber] at hround

theorem increment_le {x : ℚ} (hx : x ≤ 0) (c : Cents) : increment c x ≤ c := by
  have hle : toNumber c + x ≤ toNumber c := by linarith
  have hround := ofNumber_le_ofNumber hle
  rwa [ofNumber_toNumber] at hround

/-- A statement that heeds the restrictions moves no balance against them. -/
theorem Access.Moves.bound {lab : Access} {s : Db} {a : Id} {acct acct' : SavingsAccount}
    (h : lab.Moves a acct acct') (hheeds : lab.HeedsRestrictions s) :
    (s.Restricts a .debit → acct.balance ≤ acct'.balance) ∧
      (s.Restricts a .credit → acct'.balance ≤ acct.balance) := by
  cases h with
  | same => exact ⟨fun _ => le_rfl, fun _ => le_rfl⟩
  | @overwritten o ho ha =>
    have hallows := hheeds.overwrites o ho
    rw [ha] at hallows
    have hbalance : (acct.setCents (acct.balance + o.change)).balance = acct.balance + o.change :=
      rfl
    rw [hbalance]
    constructor
    · intro hrestricts
      have hchange : 0 ≤ toNumber o.change := not_lt.mp fun hneg => hallows.debit hneg hrestricts
      have hcents : 0 ≤ o.change := toNumber_nonneg.mp hchange
      exact le_add_of_nonneg_right hcents
    · intro hrestricts
      have hchange : toNumber o.change ≤ toNumber 0 := by
        rw [toNumber_zero]
        exact not_lt.mp fun hpos => hallows.credit hpos hrestricts
      have hcents : o.change ≤ 0 := toNumber_le.mp hchange
      exact add_le_of_nonpos_right hcents
  | @deposited x hi hx =>
    constructor
    · intro _
      exact le_increment hx.le acct.balance
    · intro hrestricts
      exact absurd hrestricts ((hheeds.increments _ hi).credit hx)
  | @withdrew x hi hx _ =>
    have hneg : -x < 0 := neg_neg_of_pos hx
    constructor
    · intro hrestricts
      exact absurd hrestricts ((hheeds.increments _ hi).debit hneg)
    · intro _
      exact increment_le hneg.le acct.balance

/-- An operation whose statements heed the restrictions moves no balance against those that
are active when it starts. -/
theorem SavingsOperation.bound (op : SavingsOperation) {s : Db}
    (h : op.handler.Meets Access.HeedsRestrictions s) : s.Bound (op.handler.run s).2 := by
  -- The restrictions are the same at every statement.
  have hquiet : Quiet [.savingsRestriction] op.handler := op.quiet (by decide)
  have hkept : op.handler.Meets (fun _ t => s.Agree [.savingsRestriction] t) s :=
    Meets.of_every Db.Agree.refl Db.Agree.trans hquiet s
  apply op.run_accounts ?_ (Db.Bound.of_eq fun _ => rfl) (h.and hkept)
  intro lab t t' hlab hmoves hbound
  have hrestricts : ∀ a direction, s.Restricts a direction → t.Restricts a direction :=
    fun a direction => (Db.restricts_congr hlab.2).mpr
  constructor
  · intro a hdebit
    have hstep : t.balanceOf a ≤ t'.balanceOf a :=
      Db.RelateAccounts.balanceOf hmoves le_rfl fun _ _ hmove =>
        (hmove.bound hlab.1).1 (hrestricts a _ hdebit)
    exact (hbound.debits a hdebit).trans hstep
  · intro a hcredit
    have hstep : t'.balanceOf a ≤ t.balanceOf a :=
      Db.RelateAccounts.balanceOf (r := fun x y => y ≤ x) hmoves le_rfl fun _ _ hmove =>
        (hmove.bound hlab.1).2 (hrestricts a _ hcredit)
    exact hstep.trans (hbound.credits a hcredit)

/-- Every balance is as it was. -/
def Db.BalancesStand (s t : Db) : Prop := ∀ a, t.balanceOf a = s.balanceOf a

namespace Db.BalancesStand

variable {s t : Db} {α : Type} {p : Handler α}

theorem of_agree (h : s.Agree [.savingsAccount] t) : s.BalancesStand t :=
  Db.balanceOf_congr (h _ (by decide))

theorem of_quiet (hp : Quiet [.savingsAccount] p) : p.Every Db.BalancesStand :=
  Proc.Every.imp hp fun _ _ h => of_agree h

theorem bound (hp : p.Every Db.BalancesStand) (s : Db) : s.Bound (p.run s).2 := by
  have hend : s.BalancesStand (p.run s).2 :=
    hp.run (fun _ _ => rfl) (fun h h' a => (h' a).trans (h a)) s
  exact .of_eq hend

/-- A new account has nothing. -/
theorem insert {acct : SavingsAccount} (hzero : acct.balance = 0) (s : Db) :
    s.BalancesStand (s.insert .savingsAccount acct) := by
  intro a
  rw [Db.balanceOf, Db.find?_insert, Db.balanceOf]
  by_cases ha : a = s.nextId .savingsAccount
  · have hnone : s.find? .savingsAccount (s.nextId .savingsAccount) = none :=
      OrderedMap.get?_nextKey _
    rw [if_pos ha, ha, hnone]
    exact hzero
  · rw [if_neg ha]

theorem modify {f : SavingsAccount → SavingsAccount} (hf : ∀ acct, (f acct).balance = acct.balance)
    (s : Db) (id : Id) : s.BalancesStand (s.modify .savingsAccount id f) := by
  intro a
  have hrelate : s.RelateAccounts (fun _ x y => x.balance = y.balance)
      (s.modify .savingsAccount id f) := by
    apply Db.RelateAccounts.modify
    · exact fun _ _ => rfl
    · exact fun acct _ => (hf acct).symm
  have hsame : s.balanceOf a = (s.modify .savingsAccount id f).balanceOf a :=
    hrelate.balanceOf rfl fun _ _ h => h
  exact hsame.symm

theorem update {f : SavingsAccount → SavingsAccount} (hf : ∀ acct, (f acct).balance = acct.balance)
    (id : Id) : (NexusEfos.update .savingsAccount id f).Every Db.BalancesStand := by
  refine ⟨fun s => ?_, fun _ => trivial⟩
  cases hacct : s.find? .savingsAccount id with
  | some acct => simpa only [hacct] using modify hf s id
  | none => simpa only [hacct] using of_agree (.refl s)

theorem updateGuarded {f : SavingsAccount → SavingsAccount}
    (hf : ∀ acct, (f acct).balance = acct.balance) (id : Id) (q : SavingsAccount → Bool) :
    (NexusEfos.updateGuarded .savingsAccount id q f).Every Db.BalancesStand := by
  refine ⟨fun s => ?_, fun _ => trivial⟩
  cases hacct : s.find? .savingsAccount id with
  | none => simpa only [hacct] using of_agree (.refl s)
  | some acct =>
    by_cases hq : q acct = true
    · simpa only [hacct, hq, if_true] using modify hf s id
    · simpa only [hacct, hq, Bool.false_eq_true, if_false] using of_agree (.refl s)

end Db.BalancesStand

/-- No call moves a balance against a restriction, if its unchecked movements heed them. -/
theorem SavingsCall.bound (call : SavingsCall) {s : Db} (h : call.HeedsRestrictions s) :
    s.Bound (call.handler.run s).2 := by
  have hlog : ∀ entry, (do let _ ← create .auditLog entry : Handler Unit).Every
      Db.BalancesStand := fun entry =>
    Db.BalancesStand.of_quiet ((Quiet.create (by decide) _).bind fun _ => Quiet.pure ())
  cases call with
  | move op =>
    apply op.bound
    cases hchecks : op.checksRestriction with
    | true => exact op.heedsRestrictions hchecks s
    | false => exact h hchecks
  | openAccount js auth now accountNumber body =>
    have hopen := openAccount_every (fun _ _ => Db.BalancesStand.of_agree)
      (fun s _ hzero => Db.BalancesStand.insert hzero s) js auth now accountNumber body
    apply Db.BalancesStand.bound
    exact hopen.bind fun _ => trivial
  | closeAccount auth a =>
    apply Db.BalancesStand.bound
    refine (Db.BalancesStand.of_quiet (Quiet.query _)).bind fun found => ?_
    refine (Every.orFail _ _).bind fun account => (Every.require _ _).bind fun _ => ?_
    exact (Db.BalancesStand.update (by exact fun _ => rfl) a).bind fun _ => hlog _
  | reactivateAccount auth a =>
    apply Db.BalancesStand.bound
    refine (Db.BalancesStand.updateGuarded (by exact fun _ => rfl) a _).bind fun found => ?_
    exact (Every.require _ _).bind fun _ => hlog _
  | requestRestriction auth a type reason expiresAt =>
    apply Db.BalancesStand.bound
    refine Every.bind ?_ fun _ => trivial
    refine (Every.require _ _).bind fun _ => ?_
    refine (Db.BalancesStand.of_quiet (Quiet.query _)).bind fun found => ?_
    refine (Every.orFail _ _).bind fun account => ?_
    refine (Db.BalancesStand.of_quiet (Quiet.create (by decide) _)).bind fun restriction => ?_
    exact Db.BalancesStand.of_quiet ((Quiet.create (by decide) _).bind fun _ => Quiet.pure _)
  | requestRestrictionRemoval auth restrictionId reason =>
    apply Db.BalancesStand.bound
    refine (Db.BalancesStand.of_quiet (Quiet.query _)).bind fun found => ?_
    refine (Every.orFail _ _).bind fun restriction => (Every.require _ _).bind fun _ => ?_
    refine (Db.BalancesStand.of_quiet (Quiet.update (by decide) _ _)).bind fun _ => ?_
    exact Db.BalancesStand.of_quiet ((Quiet.create (by decide) _).bind fun _ => Quiet.pure _)
  | resolve call =>
    have hstand : s.AccountsStand (call.handler.run s).2 :=
      call.accountsStand.run Db.AccountsStand.refl Db.AccountsStand.trans s
    exact hstand.bound
  | other p quiet =>
    have hfewer : Quiet [.savingsAccount] p := Proc.Every.imp quiet fun _ _ h =>
      h.mono (by decide)
    exact Db.BalancesStand.bound (Db.BalancesStand.of_quiet hfewer) s

/-! ## Every run -/

/-- In a run whose unchecked movements heed the restrictions, every restriction binds every
call that starts while it is active. -/
theorem restrictions_bind (calls : List SavingsCall) (s : Db) (h : HeedsRestrictions calls s)
    (before after : List SavingsCall) (call : SavingsCall)
    (hcalls : calls = before ++ call :: after) :
    (runAll (before.map SavingsCall.handler) s).RestrictionsBind
      (runAll ((before ++ [call]).map SavingsCall.handler) s) := by
  rw [hcalls] at h
  clear hcalls
  induction before generalizing s with
  | nil => exact (call.bound h.1).restrictionsBind
  | cons first rest ih => exact ih _ h.2

/-- The teller's ledger with a fee of 5.00. -/
def chargingLedger : Db :=
  tellerLedger.insert .savingsFeeType { institutionId := 1, calculationMethod := .fixed, amount := 500 }

/-- The account of 100.00 is frozen by two users. -/
def freeze : List SavingsCall :=
  [.requestRestriction ⟨1, 1⟩ 1 .fullFreeze "court order" none,
    .resolve ⟨.approve, ⟨1, 2⟩, 3, 1, none, none⟩]

/-- A withdrawal from the frozen account is refused. -/
def frozenWithdrawal : SavingsCall := .move (.withdraw ⟨1, 1⟩ 4 1 30)

theorem restrictions_bind_frozenWithdrawal :
    (runAll (freeze.map SavingsCall.handler) chargingLedger).RestrictionsBind
      (runAll ((freeze ++ [frozenWithdrawal]).map SavingsCall.handler) chargingLedger) :=
  restrictions_bind (freeze ++ [frozenWithdrawal]) chargingLedger (by decide +kernel) freeze []
    frozenWithdrawal rfl

def frozenCharge : SavingsCall := .move (.chargeFee ⟨1, 1⟩ 4 1 1)

/-- A fee is charged on the frozen account. -/
theorem frozen_account_charged :
    ¬ ∀ (calls before after : List SavingsCall) (call : SavingsCall) (s : Db),
      calls = before ++ call :: after →
        (runAll (before.map SavingsCall.handler) s).RestrictionsBind
          (runAll ((before ++ [call]).map SavingsCall.handler) s) := by
  intro h
  have hbind := h (freeze ++ [frozenCharge]) freeze [] frozenCharge chargingLedger rfl
  have hfrozen := hbind.frozen 1 (by decide +kernel)
  revert hfrozen
  decide +kernel

end NexusEfos
