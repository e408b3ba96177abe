/-
Balances that stay above zero, and closed accounts that stay empty.

A withdrawal takes what is there.  A fee, the reversal of a collection and the reversal of
interest take an amount that was fixed before from whatever is left, and no movement looks
at the status of the account (`fee_overdraws`).  Where they take no more than there is, and
reach no account that is closed, no balance is ever negative and a closed account has
nothing on it (`accounts_stay_solvent`).
-/
import NexusEfos.Savings.AccountSteps
import NexusEfos.Savings.GuardedPaths

namespace NexusEfos

open Proc

/-! ## The invariant -/

/-- An account without debt, and with nothing on it if it is closed. -/
structure SavingsAccount.Solvent (acct : SavingsAccount) : Prop where
  nonneg : 0 ≤ acct.balance
  closed : acct.status = .closed → acct.balance = 0

instance (acct : SavingsAccount) : Decidable acct.Solvent :=
  decidable_of_iff (0 ≤ acct.balance ∧ (acct.status = .closed → acct.balance = 0))
    ⟨fun h => ⟨h.1, h.2⟩, fun h => ⟨h.1, h.2⟩⟩

namespace Db

/-- Every account is solvent. -/
def Solvent (s : Db) : Prop := ∀ acct ∈ (s.table .savingsAccount).values, acct.Solvent

instance (s : Db) : Decidable s.Solvent :=
  inferInstanceAs (Decidable (∀ acct ∈ (s.table .savingsAccount).values, acct.Solvent))

/-- The account is there and closed. -/
def Closed (s : Db) (a : Id) : Prop :=
  ∃ acct ∈ s.find? .savingsAccount a, acct.status = .closed

instance (s : Db) (a : Id) : Decidable (s.Closed a) :=
  inferInstanceAs (Decidable (∃ acct ∈ s.find? .savingsAccount a, acct.status = .closed))

variable {s t : Db}

theorem Solvent.find? (h : s.Solvent) {a : Id} {acct : SavingsAccount}
    (hacct : s.find? .savingsAccount a = some acct) : acct.Solvent :=
  h acct (OrderedMap.mem_values.mpr ⟨a, hacct⟩)

theorem Solvent.of_find? (h : ∀ a acct, s.find? .savingsAccount a = some acct → acct.Solvent) :
    s.Solvent := by
  intro acct hmem
  obtain ⟨a, hacct⟩ := OrderedMap.mem_values.mp hmem
  exact h a acct hacct

/-- A relation that keeps each account solvent keeps all of them. -/
theorem Solvent.relate {R : Id → SavingsAccount → SavingsAccount → Prop} (h : s.Solvent)
    (hrelate : s.RelateAccounts R t)
    (hR : ∀ a acct acct', s.find? .savingsAccount a = some acct → R a acct acct' →
      acct.Solvent → acct'.Solvent) : t.Solvent := by
  apply Solvent.of_find?
  intro a acct' hacct'
  obtain ⟨acct, hacct, hr⟩ := hrelate.before hacct'
  exact hR a acct acct' hacct hr (h.find? hacct)

theorem Solvent.of_agree (h : s.Solvent) (hagree : s.Agree [.savingsAccount] t) : t.Solvent := by
  intro acct hmem
  rw [hagree .savingsAccount (by decide)] at hmem
  exact h acct hmem

theorem Solvent.insert (h : s.Solvent) {acct : SavingsAccount} (hzero : acct.balance = 0) :
    (s.insert .savingsAccount acct).Solvent := by
  apply Solvent.of_find?
  intro a acct' hacct'
  rw [Db.find?_insert] at hacct'
  split at hacct'
  · obtain rfl := Option.some.inj hacct'
    exact ⟨hzero.ge, fun _ => hzero⟩
  · exact h.find? hacct'

theorem Solvent.modify (h : s.Solvent) {a : Id} {f : SavingsAccount → SavingsAccount}
    (hf : ∀ acct, s.find? .savingsAccount a = some acct → acct.Solvent → (f acct).Solvent) :
    (s.modify .savingsAccount a f).Solvent := by
  apply Solvent.of_find?
  intro a' acct' hacct'
  rw [Db.find?_modify] at hacct'
  split at hacct'
  · next ha =>
    subst ha
    cases hacct : s.find? .savingsAccount a' with
    | some acct =>
      rw [hacct] at hacct'
      obtain rfl := Option.some.inj hacct'
      exact hf acct hacct (h.find? hacct)
    | none =>
      rw [hacct] at hacct'
      exact absurd hacct' nofun
  · exact h.find? hacct'

end Db

/-! ## The condition -/

/-- What a statement overwrites covers the change, and it moves nothing on a closed
account. -/
structure Access.Covered (lab : Access) (s : Db) : Prop where
  covers : ∀ o ∈ lab.overwrites, 0 ≤ s.balanceOf o.accountId + o.change
  spares : ∀ o ∈ lab.overwrites, s.Closed o.accountId → o.change = 0
  deposits : ∀ i ∈ lab.increments, s.Closed i.1 → 0 < i.2 → ofNumber i.2 = 0

instance (lab : Access) (s : Db) : Decidable (lab.Covered s) :=
  decidable_of_iff ((∀ o ∈ lab.overwrites, 0 ≤ s.balanceOf o.accountId + o.change) ∧
      (∀ o ∈ lab.overwrites, s.Closed o.accountId → o.change = 0) ∧
      ∀ i ∈ lab.increments, s.Closed i.1 → 0 < i.2 → ofNumber i.2 = 0)
    ⟨fun h => ⟨h.1, h.2.1, h.2.2⟩, fun h => ⟨h.1, h.2, h.3⟩⟩

/-! ## One call -/

/-- A statement that is covered keeps an account solvent. -/
theorem Access.Moves.solvent {lab : Access} {s : Db} {a : Id} {acct acct' : SavingsAccount}
    (h : lab.Moves a acct acct') (hcovered : lab.Covered s)
    (hacct : s.find? .savingsAccount a = some acct) (hsolvent : acct.Solvent) : acct'.Solvent := by
  have hclosed : acct.status = .closed → s.Closed a := fun hstatus => ⟨acct, hacct, hstatus⟩
  cases h with
  | same => exact hsolvent
  | @overwritten o ho ha =>
    subst ha
    have hcovers := hcovered.covers o ho
    rw [Db.balanceOf_of_find? hacct] at hcovers
    constructor
    · exact hcovers
    · intro hstatus
      have hzero := hsolvent.closed hstatus
      have hchange := hcovered.spares o ho (hclosed hstatus)
      show acct.balance + o.change = 0
      rw [hzero, hchange]
      rfl
  | @deposited x hi hx =>
    have hnonneg : 0 ≤ toNumber acct.balance := toNumber_nonneg.mpr hsolvent.nonneg
    constructor
    · exact ofNumber_nonneg (by linarith)
    · intro hstatus
      have hzero := hsolvent.closed hstatus
      have hnothing := hcovered.deposits (a, x) hi (hclosed hstatus) hx
      show ofNumber (toNumber acct.balance + x) = 0
      rw [hzero, toNumber_zero, zero_add]
      exact hnothing
  | @withdrew x hi hx hfunds =>
    constructor
    · exact ofNumber_nonneg (by linarith)
    · intro hstatus
      -- Nothing can be taken from a closed account.
      rw [hsolvent.closed hstatus, toNumber_zero] at hfunds
      exact absurd hx hfunds.not_gt

theorem closeAccount_solvent (auth : Auth) (a : Id) {s : Db} (h : s.Solvent) :
    ((closeAccount auth a).run s).2.Solvent := by
  have hends : (closeAccount auth a).Ends (fun _ t => t.Solvent) s := by
    apply ends_query
    apply Ends.orFail ?_ fun _ => h
    intro account haccount
    apply Ends.require ?_ fun _ => h
    intro hzero
    apply ends_updateAs ?_ fun _ => h
    intro row hrow
    apply ends_create
    have hmodified : (s.modify .savingsAccount a fun r => { r with status := .closed }).Solvent := by
      apply h.modify
      intro acct hacct hsolvent
      -- The row is the one whose balance was looked at.
      rw [find?_of_filter haccount] at hacct
      obtain rfl := Option.some.inj hacct
      exact ⟨hsolvent.nonneg, fun _ => toNumber_eq_zero.mp hzero⟩
    exact hmodified.of_agree (Db.Agree.insert (by decide) _ _)
  exact hends

theorem reactivateAccount_solvent (auth : Auth) (a : Id) :
    (reactivateAccount auth a).Every fun s t => s.Solvent → t.Solvent := by
  refine Every.bind ⟨fun s h => ?_, fun _ => trivial⟩ fun found => ?_
  · have hmodified : (s.modify .savingsAccount a fun r => { r with status := .active }).Solvent := by
      apply h.modify
      intro acct _ hsolvent
      exact ⟨hsolvent.nonneg, nofun⟩
    dsimp only
    split
    · split
      · exact hmodified
      · exact h
    · exact h
  · refine (Every.require _ _).bind fun _ => ?_
    have hlog : ∀ entry, Quiet [.savingsAccount] (do let _ ← create .auditLog entry) := fun entry =>
      (Quiet.create (by decide) _).bind fun _ => Quiet.pure ()
    exact Proc.Every.imp (hlog _) fun _ _ hagree h => h.of_agree hagree

/-- A call that keeps the accounts as they stand keeps them solvent. -/
theorem Db.AccountsStand.solvent {s t : Db} (h : s.AccountsStand t) (hs : s.Solvent) :
    t.Solvent := by
  apply hs.relate h
  intro a acct acct' _ hstands hsolvent
  constructor
  · rw [hstands.1]
    exact hsolvent.nonneg
  · intro hstatus
    rw [hstands.2] at hstatus
    rw [hstands.1]
    exact hsolvent.closed hstatus

/-- A call whose statements are covered keeps the accounts solvent. -/
theorem SavingsCall.solvent (call : SavingsCall) {s : Db} (hs : s.Solvent)
    (h : call.handler.Meets Access.Covered s) : (call.handler.run s).2.Solvent := by
  have hkeeps : ∀ {p : Handler Unit}, p.Every (fun s t => s.Solvent → t.Solvent) →
      (p.run s).2.Solvent := fun hp =>
    hp.run (fun _ h => h) (fun h h' hs => h' (h hs)) s hs
  have hquiet : ∀ {p : Handler Unit}, Quiet [.savingsAccount] p → (p.run s).2.Solvent :=
    fun hp => hs.of_agree (hp.run s)
  cases call with
  | move op =>
    apply op.run_accounts ?_ hs h
    intro lab t t' hcovered hmoves ht
    exact ht.relate hmoves fun a acct acct' hacct hmove => hmove.solvent hcovered hacct
  | openAccount js auth now accountNumber body =>
    have hopen := openAccount_every (A := fun s t => s.Solvent → t.Solvent)
      (fun _ _ hagree h => h.of_agree hagree) (fun _ _ hzero h => h.insert hzero) js auth now
      accountNumber body
    exact hkeeps (hopen.bind fun _ => trivial)
  | closeAccount auth a => exact closeAccount_solvent auth a hs
  | reactivateAccount auth a => exact hkeeps (reactivateAccount_solvent auth a)
  | requestRestriction auth a type reason expiresAt =>
    apply hquiet
    refine Quiet.bind ?_ fun _ => Quiet.pure ()
    refine (Quiet.require _ _).bind fun _ => (Quiet.query _).bind fun found => ?_
    refine (Quiet.orFail _ _).bind fun account => ?_
    refine (Quiet.create (by decide) _).bind fun restriction => ?_
    exact (Quiet.create (by decide) _).bind fun _ => Quiet.pure _
  | requestRestrictionRemoval auth restrictionId reason =>
    apply hquiet
    refine (Quiet.query _).bind fun found => (Quiet.orFail _ _).bind fun restriction => ?_
    refine (Quiet.require _ _).bind fun _ => (Quiet.update (by decide) _ _).bind fun _ => ?_
    exact (Quiet.create (by decide) _).bind fun _ => Quiet.pure _
  | resolve call =>
    have hstand : s.AccountsStand (call.handler.run s).2 :=
      call.accountsStand.run Db.AccountsStand.refl Db.AccountsStand.trans s
    exact hstand.solvent hs
  | other p quiet =>
    have hfewer : Quiet [.savingsAccount] p := Proc.Every.imp quiet fun _ _ h =>
      h.mono (by decide)
    exact hquiet hfewer

/-! ## Every run -/

/-- A run that starts without money and takes no more from an account than there is, and
moves nothing on a closed one, leaves no balance below zero and closed accounts empty. -/
theorem accounts_stay_solvent (calls : List SavingsCall) (s : Db)
    (hzero : ∀ acct ∈ (s.table .savingsAccount).values, acct.balance = 0)
    (h : MeetsAll Access.Covered (calls.map SavingsCall.handler) s) :
    ∀ acct ∈ ((runAll (calls.map SavingsCall.handler) s).table .savingsAccount).values,
      0 ≤ acct.balance ∧ (acct.status = .closed → acct.balance = 0) := by
  have hstart : s.Solvent := fun acct hmem =>
    ⟨(hzero acct hmem).ge, fun _ => hzero acct hmem⟩
  suffices hend : (runAll (calls.map SavingsCall.handler) s).Solvent by
    intro acct hmem
    exact ⟨(hend acct hmem).nonneg, (hend acct hmem).closed⟩
  apply runAll_induction ?_ hstart h
  intro p hp t ht hmeets
  obtain ⟨call, -, rfl⟩ := List.mem_map.mp hp
  exact call.solvent ht hmeets

/-- The teller's ledger with an account of its own that holds nothing, and a fee of 5.00. -/
def freshLedger : Db :=
  (tellerLedger.modify .savingsAccount 1 fun a => { a with balance := 0, ledgerBalance := 0 }).insert
    .savingsFeeType { institutionId := 1, calculationMethod := .fixed, amount := 500 }

/-- A deposit, a fee, a withdrawal of the rest, and the account is closed. -/
def accountClosed : List SavingsCall :=
  [.move (.deposit ⟨1, 1⟩ 4 1 50), .move (.chargeFee ⟨1, 1⟩ 4 1 1), .move (.withdraw ⟨1, 1⟩ 4 1 45),
    .closeAccount ⟨1, 1⟩ 1]

theorem accounts_stay_solvent_accountClosed :
    let accounts := ((runAll (accountClosed.map SavingsCall.handler) freshLedger).table
      .savingsAccount).values
    accounts.map SavingsAccount.status = [.closed] ∧
      ∀ acct ∈ accounts, 0 ≤ acct.balance ∧ (acct.status = .closed → acct.balance = 0) :=
  ⟨by decide +kernel,
    accounts_stay_solvent accountClosed freshLedger (by decide +kernel) (by decide +kernel)⟩

/-- A fee is charged on the empty account. -/
theorem fee_overdraws :
    ¬ ∀ (calls : List SavingsCall) (s : Db),
      (∀ acct ∈ (s.table .savingsAccount).values, acct.balance = 0) →
        ∀ acct ∈ ((runAll (calls.map SavingsCall.handler) s).table .savingsAccount).values,
          0 ≤ acct.balance ∧ (acct.status = .closed → acct.balance = 0) := by
  intro h
  have hall := h [.move (.chargeFee ⟨1, 1⟩ 4 1 1)] freshLedger (by decide +kernel)
  revert hall
  decide +kernel

-- A deposit reaches an account that has been closed.
example : ((runAll ([SavingsCall.closeAccount ⟨1, 1⟩ 1, .move (.deposit ⟨1, 1⟩ 4 1 50)].map
    SavingsCall.handler) freshLedger).find? .savingsAccount 1).map
      (fun a => (a.balance, a.status)) = some (5000, .closed) := by decide +kernel

end NexusEfos
