/-
The guarded paths: deposits, withdrawals and collected deposits.

Whatever these do at the same time, no account falls below zero, every row
records the balance right after its commit, and the control accounts move with the
savings balances (`guardedPaths_safe`).  The checks that are made outside the
transaction are out of date when it commits; only the guard inside the
transaction of a withdrawal counts.
-/
import NexusEfos.Savings.Control
import NexusEfos.Savings.Operations
import Mathlib.Data.Fintype.Basic
import Mathlib.Tactic.FinCases

namespace NexusEfos

/-- The operations with relative updates. -/
inductive GuardedOperation
  | deposit (auth : Auth) (now : DateTime) (accountId : Id) (amount : ℚ)
  | withdraw (auth : Auth) (now : DateTime) (accountId : Id) (amount : ℚ)
  | collectDeposit (auth : Auth) (now : DateTime)
      (collectorId customerId accountId : Id) (amount : ℚ)

namespace GuardedOperation

def amount : GuardedOperation → ℚ
  | deposit _ _ _ x | withdraw _ _ _ x | collectDeposit _ _ _ _ _ x => x

/-- The code an operation runs. -/
def handler : GuardedOperation → Handler Unit
  | deposit auth now a x => discard (NexusEfos.deposit auth now a x)
  | withdraw auth now a x => discard (NexusEfos.withdraw auth now a x)
  | collectDeposit auth now collectorId customerId a x =>
    discard (recordCollection auth now ⟨.savingsDeposit, collectorId, customerId, a, x⟩)

/-- Whole cents are deposited and withdrawn and nothing else is done. -/
def allowed : BooksKind → Prop
  | .deposited x | .withdrew x => WholeCent x
  | .repaid _ | .overwrote => False

theorem keepsBooks (op : GuardedOperation) (hwhole : WholeCent op.amount) :
    KeepsBooks allowed op.handler := by
  cases op with
  | deposit auth now a x => exact KeepsBooks.discard (deposit_keepsBooks auth now a x hwhole)
  | withdraw auth now a x => exact KeepsBooks.discard (withdraw_keepsBooks auth now a x hwhole)
  | collectDeposit auth now collectorId customerId a x =>
    exact KeepsBooks.discard (recordCollection_keepsBooks auth now _ (fun _ => hwhole) nofun)

/-- Operations that run at the same time. -/
def pool {ι : Type} (ops : ι → GuardedOperation) (s : Db) : Pool ι Access Db Failure Unit :=
  ⟨fun i => (ops i).handler, s⟩

end GuardedOperation

/-! ## One statement -/

/-- Every account has equal balances, and none below zero. -/
def Db.AccountsSound (s : Db) : Prop :=
  ∀ acct ∈ (s.table .savingsAccount).values, acct.balance = acct.ledgerBalance ∧ 0 ≤ acct.balance

instance (s : Db) : Decidable s.AccountsSound :=
  inferInstanceAs (Decidable (∀ acct ∈ (s.table .savingsAccount).values,
    acct.balance = acct.ledgerBalance ∧ 0 ≤ acct.balance))

/-- A step that records at most one row.  The row holds the balance right after
the step, and a withdrawal takes no more than there is. -/
def CommitsOne (s s' : Db) : Prop :=
  (s'.rows = s.rows ∧ ∀ a, s'.balanceOf a = s.balanceOf a) ∨
    ∃ row, s'.rows = s.rows ++ [row] ∧ row.balanceAfter = s'.balanceOf row.accountId ∧
      (row.type = .withdrawal → row.amount ≤ s.balanceOf row.accountId) ∧
      ∀ a, s'.balanceOf a = s.balanceOf a + signedSum [row] a

theorem Db.AccountsSound.find? {s : Db} (h : s.AccountsSound) {a : Id} {acct : SavingsAccount}
    (hacct : s.find? .savingsAccount a = some acct) :
    acct.balance = acct.ledgerBalance ∧ 0 ≤ acct.balance :=
  h acct (OrderedMap.mem_values.mpr ⟨a, hacct⟩)

/-- A relative update that does not end below zero keeps the accounts sound. -/
theorem Db.AccountsSound.move {s s' : Db} (h : s.AccountsSound) {a : Id} {x : ℚ}
    {acct : SavingsAccount} (hacct : s.find? .savingsAccount a = some acct)
    (hx : 0 ≤ increment acct.balance x) {row : SavingsTransaction}
    {lines : List JournalLineInput} (hagree : (s.move a x row lines).Agree books s') :
    s'.AccountsSound := by
  intro r hr
  obtain ⟨k, hk⟩ := OrderedMap.mem_values.mp hr
  have hfound : s'.find? .savingsAccount k =
      if k = a then some (SavingsAccount.increment x acct) else s.find? .savingsAccount k := by
    rw [hagree.find? (by decide), Db.move, Db.find?_applyEffects_of_ne (by decide),
      Db.find?_insert_of_ne (by decide), Db.find?_modify]
    by_cases hka : k = a
    · rw [if_pos hka, if_pos hka, hka, hacct]
      rfl
    · rw [if_neg hka, if_neg hka]
  rw [Db.find?, hk] at hfound
  obtain ⟨hboth, -⟩ := h.find? hacct
  split at hfound
  · cases hfound
    refine ⟨?_, hx⟩
    show increment acct.balance x = increment acct.ledgerBalance x
    rw [hboth]
  · exact h.find? hfound.symm

theorem commitsOne_move {s s' : Db} {a : Id} {x : ℚ} {acct : SavingsAccount}
    {row : SavingsTransaction} {lines : List JournalLineInput}
    (hacct : s.find? .savingsAccount a = some acct) (hrow : row.accountId = a)
    (hafter : row.balanceAfter = increment acct.balance x)
    (hfunds : row.type = .withdrawal → row.amount ≤ acct.balance)
    (hround : increment acct.balance x = acct.balance + row.signed)
    (hagree : (s.move a x row lines).Agree books s') : CommitsOne s s' := by
  have hnow := Db.balanceOf_of_find? hacct
  have hbalance : ∀ a', s'.balanceOf a' =
      if a' = a then increment acct.balance x else s.balanceOf a' := by
    intro a'
    rw [Db.balanceOf_agree hagree, Db.balanceOf_move hacct]
  refine .inr ⟨row, ?_, ?_, fun htype => ?_, fun a' => ?_⟩
  · rw [Db.rows_congr (hagree _ (by decide)), Db.rows_move]
  · rw [hbalance, if_pos hrow, hafter]
  · rw [hrow, hnow]
    exact hfunds htype
  · rw [hbalance]
    by_cases ha : a' = a
    · subst ha
      simp [signedSum, hrow, hround, hnow]
    · simp [signedSum, hrow, ha, Ne.symm ha]

/-- What every statement of the guarded paths does to sound accounts. -/
theorem BooksStep.guarded {lab : Access} {s₀ s s' : Db} {d d' : Id → Cents}
    (h : BooksStep GuardedOperation.allowed lab s d s' d') (hsound : s.AccountsSound)
    (howned : s₀.MappingsOwned) (he : s₀.Evolves s) :
    s'.AccountsSound ∧ CommitsOne s s' ∧
      ∀ institutionId cash custody liability,
        SavingsControl s₀ institutionId cash custody liability →
          ControlMoves s s' institutionId cash custody liability := by
  cases h with
  | quiet hagree =>
    refine ⟨?_, .inl ⟨?_, Db.balanceOf_agree hagree⟩, fun i _ _ _ _ => .of_agree hagree i ..⟩
    · intro acct hacct
      rw [hagree .savingsAccount (by decide)] at hacct
      exact hsound acct hacct
    · exact Db.rows_congr (hagree _ (by decide))
  | @deposited a x acct money owed _ _ _ hwhole hl hx hacct hpair hagree =>
    obtain ⟨-, hnonneg⟩ := hsound.find? hacct
    have hsum : 0 ≤ toNumber acct.balance + x := by
      have h := toNumber_nonneg.mpr hnonneg
      linarith
    have hround := increment_of_nonneg hx.le hsum
    refine ⟨hsound.move hacct (ofNumber_nonneg hsum) hagree,
      commitsOne_move hacct rfl rfl (fun h => SavingsTxnType.noConfusion h) hround hagree, ?_⟩
    · intro i cash custody liability hcontrol
      exact .move hcontrol howned he hacct hpair
        (moveTogether_deposit money owed x)
        (increment_eq_add_round hsum) hagree
  | @withdrew a x acct money owed _ _ _ hwhole hl hx hacct hfunds hpair hagree =>
    have hsum : 0 ≤ toNumber acct.balance + -x := by linarith
    refine ⟨hsound.move hacct (ofNumber_nonneg hsum) hagree,
      commitsOne_move hacct rfl rfl (fun _ => ?_) ?_ hagree, ?_⟩
    · have hle := ofNumber_le_ofNumber hfunds
      rwa [ofNumber_toNumber] at hle
    · rw [increment_of_wholeCent hwhole.neg, ofNumber_neg]
      rfl
    · intro i cash custody liability hcontrol
      exact .move hcontrol howned he hacct hpair
        (moveTogether_withdrawal money owed x)
        (increment_eq_add_round hsum) hagree
  | repaid hkind => exact absurd hkind id
  | overwrote hkind => exact absurd hkind id

/-! ## Every interleaving -/

/-- What holds after every schedule of guarded paths. -/
structure GuardedInvariant (s t : Db) : Prop where
  evolves : s.Evolves t
  sound : t.AccountsSound
  rows : ∃ committed, t.rows = s.rows ++ committed ∧
    ∀ a, t.balanceOf a = s.balanceOf a + signedSum committed a
  control : ∀ institutionId cash custody liability,
    SavingsControl s institutionId cash custody liability →
      ControlMoves s t institutionId cash custody liability

theorem signedSum_append (rows rows' : List SavingsTransaction) (a : Id) :
    signedSum (rows ++ rows') a = signedSum rows a + signedSum rows' a := by
  rw [signedSum, List.map_append, List.sum_append]
  rfl

theorem GuardedInvariant.step {lab : Access} {s t t' : Db} {d d' : Id → Cents}
    (h : GuardedInvariant s t) (howned : s.MappingsOwned)
    (hguar : BooksStep GuardedOperation.allowed lab t d t' d') (hrely : t.Evolves t') :
    GuardedInvariant s t' ∧ CommitsOne t t' := by
  obtain ⟨hsound, hcommit, hcontrol⟩ := hguar.guarded h.sound howned h.evolves
  refine ⟨⟨h.evolves.trans hrely, hsound, ?_, fun i cash custody liability hc =>
    (h.control i cash custody liability hc).trans (hcontrol i cash custody liability hc)⟩, hcommit⟩
  obtain ⟨committed, hrows, hsum⟩ := h.rows
  rcases hcommit with ⟨hsame, hbalance⟩ | ⟨row, hnew, -, -, hbalance⟩
  · exact ⟨committed, hsame.trans hrows, fun a => (hbalance a).trans (hsum a)⟩
  · refine ⟨committed ++ [row], by rw [hnew, hrows, List.append_assoc], fun a => ?_⟩
    rw [hbalance, hsum, signedSum_append, add_assoc]

/-- After every schedule of whole-cent deposits, withdrawals and collected
deposits the accounts are sound, the balances are the initial ones plus the
committed rows, every further commit records the balance right after it and
overdraws nothing, and the control accounts have moved with the savings. -/
theorem guardedPaths_safe {ι : Type} [Fintype ι] [DecidableEq ι] (ops : ι → GuardedOperation)
    (hwhole : ∀ i, WholeCent (ops i).amount) (s : Db) (hsound : s.AccountsSound)
    (howned : s.MappingsOwned) (sched : List ι) :
    GuardedInvariant s ((GuardedOperation.pool ops s).run sched).state ∧
      ∀ i, CommitsOne ((GuardedOperation.pool ops s).run sched).state
        ((GuardedOperation.pool ops s).run (sched ++ [i])).state := by
  have hfollows : (GuardedOperation.pool ops s).Follows (booksProtocol GuardedOperation.allowed)
      (fun d _ => d = 0) fun _ => 0 := fun i => (ops i).keepsBooks (hwhole i) s
  have hstart : GuardedInvariant s s := by
    refine ⟨.refl s, hsound, ⟨[], (List.append_nil _).symm, fun a => ?_⟩,
      fun i cash custody liability _ => .refl s i cash custody liability⟩
    exact (add_zero _).symm
  obtain ⟨d, hd, hinv⟩ := Pool.run_follows (A := fun _ _ => True)
    (I := fun t _ => GuardedInvariant s t)
    (fun lab t d t' d' o _ hguar hrely h => (h.step howned hguar hrely).1) hfollows hstart
    (Pool.allowed_true _ sched)
  refine ⟨hinv, fun i => ?_⟩
  rw [Pool.run_append]
  rcases hd.step_cases i with hsame | ⟨lab, d', -, hguar, hrely, -⟩
  · rw [Pool.run_cons, Pool.run_nil, hsame]
    exact .inl ⟨rfl, fun _ => rfl⟩
  · exact (hinv.step howned hguar hrely).2

/-! ## A teller and a collector at work -/

/-- An institution with a complete mapping, an open period, a collector and an
account of 100.00. -/
def tellerLedger : Db :=
  (((((((((Db.empty.insert .gLAccount
    { institutionId := 1, code := "1000", name := "Cash", category := .asset }).insert .gLAccount
    { institutionId := 1, code := "1010", name := "Custody", category := .asset }).insert .gLAccount
    { institutionId := 1, code := "2000", name := "Deposits", category := .liability }).insert
      .savingsGLAccountMapping ⟨1, "Cash/Bank (Savings)", 1⟩).insert
      .savingsGLAccountMapping ⟨1, "Collector Cash Custody", 2⟩).insert
      .savingsGLAccountMapping ⟨1, "Customer Deposits Liability", 3⟩).insert
      .financialPeriod { institutionId := 1, startDate := 0, endDate := 10 }).insert
      .collector { institutionId := 1 }).insert
      .savingsAccount
        { institutionId := 1, customerId := 1, balance := 10000, ledgerBalance := 10000 })

/-- Two withdrawals of 80.00, of which only one can succeed, and a collected
deposit of 5.00. -/
def tellerOperations : Fin 3 → GuardedOperation
  | 0 | 1 => .withdraw ⟨1, 1⟩ 5 1 80
  | 2 => .collectDeposit ⟨1, 1⟩ 5 1 1 1 5

/-- The three operations in turns, statement by statement. -/
def tellerSchedule : List (Fin 3) := (List.replicate 10 [0, 1, 2]).flatten

theorem guardedPaths_safe_teller :
    GuardedInvariant tellerLedger
        ((GuardedOperation.pool tellerOperations tellerLedger).run tellerSchedule).state ∧
      ∀ i, CommitsOne
        ((GuardedOperation.pool tellerOperations tellerLedger).run tellerSchedule).state
        ((GuardedOperation.pool tellerOperations tellerLedger).run
          (tellerSchedule ++ [i])).state := by
  refine guardedPaths_safe tellerOperations (fun i => ?_) tellerLedger (by decide +kernel)
    (by decide +kernel) tellerSchedule
  have h80 : WholeCent 80 := ⟨8000, by norm_num [toNumber]⟩
  have h5 : WholeCent 5 := ⟨500, by norm_num [toNumber]⟩
  fin_cases i
  · exact h80
  · exact h80
  · exact h5

-- One withdrawal and the deposit have committed.
example :
    ((GuardedOperation.pool tellerOperations tellerLedger).run tellerSchedule).state.balanceOf 1 =
      2500 := by decide +kernel

end NexusEfos
