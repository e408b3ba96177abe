/-
The control account of an institution's savings.

Deposits and withdrawals post what they do to a balance.  Fees, waivers, interest,
standing instructions and the reversal of a collection do not.  The account in
which an institution owes its customers their savings therefore moves with the sum
of their balances as long as the movements that are not posted cancel out, as
they do in a transfer between two of its accounts (`liability_moves_with_savings`).
A fee is enough to break it (`liability_misses_fee`).
-/
import NexusEfos.Savings.GuardedPaths
import NexusEfos.Savings.Sequential

namespace NexusEfos

/-! ## The condition -/

/-- The balances of an institution that a statement overwrites. -/
def Access.overwritesOf (lab : Access) (s : Db) (institutionId : Id) : List Overwrite :=
  lab.overwrites.filter fun o => s.owner? o.accountId = some institutionId

/-- The movements of the institution's balances that a statement does not post
cancel out, and its deposits are no odd number of half cents into an account that
stays below zero. -/
structure Access.Posted (institutionId : Id) (lab : Access) (s : Db) : Prop where
  distinct : ((lab.overwritesOf s institutionId).map Overwrite.accountId).Nodup
  cancels : ((lab.overwritesOf s institutionId).map Overwrite.change).sum = 0
  rounds : ∀ i ∈ lab.increments, s.owner? i.1 = some institutionId → 0 < i.2 →
    ¬ IsHalfCent i.2 ∨ 0 ≤ toNumber (s.balanceOf i.1) + i.2

instance (institutionId : Id) (lab : Access) (s : Db) : Decidable (lab.Posted institutionId s) :=
  decidable_of_iff
    (((lab.overwritesOf s institutionId).map Overwrite.accountId).Nodup ∧
      ((lab.overwritesOf s institutionId).map Overwrite.change).sum = 0 ∧
      ∀ i ∈ lab.increments, s.owner? i.1 = some institutionId → 0 < i.2 →
        ¬ IsHalfCent i.2 ∨ 0 ≤ toNumber (s.balanceOf i.1) + i.2)
    ⟨fun h => ⟨h.1, h.2.1, h.2.2⟩, fun h => ⟨h.1, h.2, h.3⟩⟩

/-- The institution's loans are not posted to the account. -/
def LoansApart (s : Db) (institutionId liability : Id) : Prop :=
  ∀ purpose ∈ ["Cash/Bank (Disbursement)", "Collector Cash Custody", "Loan Receivable"],
    s.loanGLAccount? institutionId purpose ≠ some liability

instance (s : Db) (institutionId liability : Id) : Decidable (LoansApart s institutionId liability) :=
  inferInstanceAs (Decidable (∀ purpose ∈ ["Cash/Bank (Disbursement)", "Collector Cash Custody",
    "Loan Receivable"], s.loanGLAccount? institutionId purpose ≠ some liability))

/-! ## One statement -/

namespace Db

theorem owner?_of_find? {s : Db} {a : Id} {acct : SavingsAccount}
    (h : s.find? .savingsAccount a = some acct) : s.owner? a = some acct.institutionId := by
  rw [owner?, h]
  rfl

/-- The writes to accounts of an institution, and these alone, change its total. -/
theorem savingsTotal_overwrite {s : Db} {institutionId : Id} {os : List Overwrite}
    (hfound : ∀ o ∈ os, (s.find? .savingsAccount o.accountId).isSome)
    (hread : ∀ o ∈ os, s.owner? o.accountId = some institutionId → s.balanceOf o.accountId = o.read)
    (hdistinct : ((os.filter fun o => s.owner? o.accountId = some institutionId).map
      Overwrite.accountId).Nodup) :
    (s.overwrite os).savingsTotal institutionId = s.savingsTotal institutionId +
      ((os.filter fun o => s.owner? o.accountId = some institutionId).map Overwrite.change).sum := by
  induction os generalizing s with
  | nil => exact (add_zero _).symm
  | cons o os ih =>
    obtain ⟨acct, hacct⟩ := Option.isSome_iff_exists.mp (hfound o (List.mem_cons_self ..))
    have howner := owner?_of_find? hacct
    have hstays : s.Evolves (s.modify .savingsAccount o.accountId (SavingsAccount.setCents o.written)) :=
      Evolves.modify_savingsAccount (f := SavingsAccount.setCents o.written) (fun _ => rfl) s
        o.accountId
    have htotal := savingsTotal_modify hacct (f := SavingsAccount.setCents o.written)
      (fun _ => rfl) institutionId
    have hrest := @ih (s.modify .savingsAccount o.accountId (SavingsAccount.setCents o.written))
    simp only [hstays.owners] at hrest
    have hfound' : ∀ o' ∈ os, ((s.modify .savingsAccount o.accountId
        (SavingsAccount.setCents o.written)).find? .savingsAccount o'.accountId).isSome := by
      intro o' ho'
      have h := hfound o' (List.mem_cons_of_mem o ho')
      rw [find?_modify]
      split
      · rwa [Option.isSome_map]
      · exact h
    have hread' : (∀ o' ∈ os, s.owner? o'.accountId = some institutionId →
        o'.accountId ≠ o.accountId) → ∀ o' ∈ os, s.owner? o'.accountId = some institutionId →
          (s.modify .savingsAccount o.accountId (SavingsAccount.setCents o.written)).balanceOf
            o'.accountId = o'.read := by
      intro hne o' ho' hown
      rw [balanceOf_modify hacct, if_neg (hne o' ho' hown)]
      exact hread o' (List.mem_cons_of_mem o ho') hown
    by_cases hi : s.owner? o.accountId = some institutionId
    · have hfilter := List.filter_cons_of_pos (l := os)
        (p := fun o : Overwrite => s.owner? o.accountId = some institutionId) (decide_eq_true hi)
      rw [hfilter, List.map_cons, List.nodup_cons] at hdistinct
      have hne : ∀ o' ∈ os, s.owner? o'.accountId = some institutionId →
          o'.accountId ≠ o.accountId := by
        intro o' ho' hown heq
        apply hdistinct.1
        rw [← heq]
        exact List.mem_map_of_mem (List.mem_filter.mpr ⟨ho', decide_eq_true hown⟩)
      have hnow := hread o (List.mem_cons_self ..) hi
      rw [balanceOf_of_find? hacct] at hnow
      have hwritten : (SavingsAccount.setCents o.written acct).balance - acct.balance = o.change := by
        show o.read + o.change - acct.balance = o.change
        rw [hnow, add_sub_cancel_left]
      rw [howner] at hi
      rw [if_pos (Option.some.inj hi), hwritten] at htotal
      refine (hrest hfound' (hread' hne) hdistinct.2).trans ?_
      rw [htotal, hfilter, List.map_cons, List.sum_cons, add_assoc]
    · have hfilter := List.filter_cons_of_neg (l := os)
        (p := fun o : Overwrite => s.owner? o.accountId = some institutionId) (a := o) (by simpa using hi)
      rw [hfilter] at hdistinct ⊢
      have hne : ∀ o' ∈ os, s.owner? o'.accountId = some institutionId →
          o'.accountId ≠ o.accountId := by
        intro o' _ hown heq
        rw [heq] at hown
        exact hi hown
      have hother : acct.institutionId ≠ institutionId := by
        intro heq
        rw [heq] at howner
        exact hi howner
      rw [if_neg hother, add_zero] at htotal
      refine (hrest hfound' (hread' hne) hdistinct).trans ?_
      rw [htotal]

end Db

section Step

variable {allowed : BooksKind → Prop} {lab : Access} {s₀ s t : Db} {institutionId liability : Id}
  {d d' : Id → Cents}

/-- A deposit rounds as its journal does. -/
theorem Access.Posted.increment_eq (h : lab.Posted institutionId s) {a : Id} {x : ℚ}
    {acct : SavingsAccount} (hacct : s.find? .savingsAccount a = some acct)
    (hlab : (a, x) ∈ lab.increments) (hx : 0 < x) (hi : acct.institutionId = institutionId) :
    increment acct.balance x = acct.balance + round (x * 100) := by
  have howner := Db.owner?_of_find? hacct
  rw [hi] at howner
  have hrounds := h.rounds (a, x) hlab howner hx
  rw [Db.balanceOf_of_find? hacct] at hrounds
  rcases hrounds with hoff | hsum
  · have hcents : ofNumber x = round (x * 100) := roundHalfAway_of_nonneg (by positivity)
    rw [increment_of_not_isHalfCent hoff, hcents]
  · exact increment_eq_add_round hsum

/-- What a statement does to the account it does to the sum of the balances. -/
theorem BooksStep.liability_moves (h : BooksStep allowed lab s d t d')
    (hcontrol : DepositsControl s₀ institutionId liability) (howned : s₀.MappingsOwned)
    (hloans : LoansApart s₀ institutionId liability) (he : s₀.Evolves s)
    (hcurrent : allowed .overwrote → lab.Current s) (hposted : lab.Posted institutionId s) :
    t.glBalance liability - s.glBalance liability =
      t.savingsTotal institutionId - s.savingsTotal institutionId := by
  cases h with
  | quiet hagree =>
    rw [Db.glBalance_congr (hagree _ (by decide)),
      Db.savingsTotal_congr (hagree .savingsAccount (by decide)), sub_self, sub_self]
  | @deposited a x acct money owed _ _ _ _ hl hx hacct hpair hagree =>
    have hround : acct.institutionId = institutionId →
        increment acct.balance x = acct.balance + round (x * 100) := by
      apply hposted.increment_eq hacct _ hx
      rw [hl]
      exact List.mem_singleton.mpr rfl
    exact hcontrol.move howned he hacct hpair (moveTogether_deposit money owed x) hround hagree
  | @withdrew a x acct money owed _ _ _ _ hl hx hacct hfunds hpair hagree =>
    have hsum : 0 ≤ toNumber acct.balance + -x := by linarith
    exact hcontrol.move howned he hacct hpair (moveTogether_withdrawal money owed x)
      (fun _ => increment_eq_add_round hsum) hagree
  | @repaid loanId i recordedById x money receivable _ _ _ _ hpair hagree =>
    have hfound : (s.find? .gLAccount liability).isSome :=
      Db.isSome_of_category? ((he.chart liability).trans hcontrol.category_eq)
    have hsame : (s.repay loanId x recordedById).table .gLAccount = s.table .gLAccount :=
      Db.table_repay_of_ne (by decide) (by decide) s loanId x recordedById
    have happly : t.glBalance liability =
        s.glBalance liability + movementOf (doubleEntry money receivable x) liability := by
      rw [Db.glBalance_congr (hagree _ (by decide)), Db.glBalance_applyEffects,
        Db.glBalance_congr hsame]
      rw [Db.find?, hsame]
      exact hfound
    have htotal : t.savingsTotal institutionId = s.savingsTotal institutionId := by
      rw [Db.savingsTotal_congr (hagree .savingsAccount (by decide)),
        Db.savingsTotal_congr (Db.table_applyEffects (by decide) _ _),
        Db.savingsTotal_congr (Db.table_repay_of_ne (by decide) (by decide) s loanId x recordedById)]
    have hapart : liability ≠ money.1 ∧ liability ≠ receivable.1 := by
      have hpair₀ := hpair.of_evolves he.symm
      by_cases hi : i = institutionId
      · subst hi
        constructor
        · intro heq
          rcases hpair₀.money_mapped with hmoney | hmoney
          · exact hloans _ (by simp) (heq ▸ hmoney)
          · exact hloans _ (by simp) (heq ▸ hmoney)
        · intro heq
          exact hloans _ (by simp) (heq ▸ hpair₀.receivable_mapped)
      · exact hpair₀.ne_of_owner howned hi (howned.savings hcontrol.mapped)
    rw [happly, htotal, movementOf_other hapart.1 hapart.2, add_zero, sub_self, sub_self]
  | @overwrote _ os rows repayments _ _ _ hkind hl hfound hagree _ =>
    have hsame : t.table .gLAccount = s.table .gLAccount := by
      rw [hagree _ (by decide), Db.table_insertAll (by decide), Db.table_insertAll (by decide),
        Db.table_overwrite (by decide)]
    have hcurrent' := hcurrent hkind
    have hdistinct := hposted.distinct
    have hcancels := hposted.cancels
    unfold Access.Current at hcurrent'
    unfold Access.overwritesOf at hdistinct hcancels
    rw [hl] at hcurrent' hdistinct hcancels
    have htotal : (s.overwrite os).savingsTotal institutionId = s.savingsTotal institutionId := by
      have h := Db.savingsTotal_overwrite hfound (fun o ho _ => hcurrent' o ho) hdistinct
      rwa [hcancels, add_zero] at h
    rw [Db.glBalance_congr hsame, Db.savingsTotal_congr (hagree .savingsAccount (by decide)),
      Db.savingsTotal_congr (Db.table_insertAll (by decide) _ _),
      Db.savingsTotal_congr (Db.table_insertAll (by decide) _ _), htotal,
      sub_self, sub_self]

end Step

/-! ## Every sequential run -/

/-- After every sequential run of operations whose statements all meet the
condition, the account has moved by as much as the sum of the balances. -/
theorem liability_moves_with_savings (ops : List SavingsOperation) (s : Db)
    (institutionId liability : Id) (hcontrol : DepositsControl s institutionId liability)
    (howned : s.MappingsOwned) (hloans : LoansApart s institutionId liability)
    (hposted : Proc.MeetsAll (Access.Posted institutionId) (ops.map SavingsOperation.handler) s) :
    (Proc.runAll (ops.map SavingsOperation.handler) s).glBalance liability - s.glBalance liability =
      (Proc.runAll (ops.map SavingsOperation.handler) s).savingsTotal institutionId -
        s.savingsTotal institutionId := by
  let Moved (t : Db) : Prop := s.Evolves t ∧ t.glBalance liability - s.glBalance liability =
    t.savingsTotal institutionId - s.savingsTotal institutionId
  suffices h : Moved (Proc.runAll (ops.map SavingsOperation.handler) s) from h.2
  have hstart : Moved s := ⟨.refl s, by rw [sub_self, sub_self]⟩
  refine Proc.runAll_induction ?_ hstart hposted
  intro p hp t ht hmeets
  obtain ⟨op, -, rfl⟩ := List.mem_map.mp hp
  have hcurrent : op.handler.Meets (fun lab u => op.Does .overwrote → lab.Current u) t := by
    by_cases h : op.Does .overwrote
    · exact (SavingsOperation.current h t).imp fun _ _ hcur _ => hcur
    · exact (Proc.meets_true _ t).imp fun _ _ _ h' => absurd h' h
  have hstep : ∀ (lab : Access) (u : Db) (d : Id → Cents) (u' : Db) (d' o : Id → Cents),
      (lab.Posted institutionId u ∧ (op.Does .overwrote → lab.Current u)) →
        BooksStep op.Does lab u d u' d' → u.Evolves u' → Moved u → Moved u' := by
    intro lab u d u' d' o hlab hguar hrely hu
    have hmoves := hguar.liability_moves hcontrol howned hloans hu.1 hlab.2 hlab.1
    refine ⟨hu.1.trans hrely, ?_⟩
    have hbefore := hu.2
    linarith
  have hkeeps := op.keepsBooks (fun _ h => h) t
  obtain ⟨_, -, -, hend⟩ := hkeeps.run (I := fun u _ => Moved u) hstep (o := 0) ht
    (hmeets.and hcurrent)
  exact hend

/-! ## A run that is posted and one that is not -/

/-- The teller's ledger with a second account, a daily transfer of 25.00 between
the two and a fee of 5.00. -/
def controlLedger : Db :=
  ((tellerLedger.insert .savingsAccount
    { institutionId := 1, customerId := 2, balance := 4000, ledgerBalance := 4000 }).insert
      .standingInstruction
        { institutionId := 1, type := .internalTransfer, sourceAccountId := 1,
          destinationAccountId := some 2, amount := 2500, frequency := .daily,
          nextExecutionDate := 3, createdById := 1 }).insert
      .savingsFeeType { institutionId := 1, calculationMethod := .fixed, amount := 500 }

/-- A day on which everything is posted. -/
def postedDay : List SavingsOperation :=
  [.deposit ⟨1, 1⟩ 4 1 50, .withdraw ⟨1, 1⟩ 4 1 30, .runStandingInstructions 4,
    .recordCollection ⟨1, 1⟩ 5 ⟨.savingsDeposit, 1, 2, 2, 5⟩]

theorem liability_moves_with_savings_postedDay :
    (Proc.runAll (postedDay.map SavingsOperation.handler) controlLedger).glBalance 3 -
        controlLedger.glBalance 3 =
      (Proc.runAll (postedDay.map SavingsOperation.handler) controlLedger).savingsTotal 1 -
        controlLedger.savingsTotal 1 :=
  liability_moves_with_savings postedDay controlLedger 1 3 (by decide +kernel) (by decide +kernel)
    (by decide +kernel) (by decide +kernel)

/-- A fee takes 5.00 from the customer and leaves the account alone. -/
theorem liability_misses_fee :
    DepositsControl controlLedger 1 3 ∧ controlLedger.MappingsOwned ∧
      LoansApart controlLedger 1 3 ∧
      (Proc.runAll ([SavingsOperation.chargeFee ⟨1, 1⟩ 4 1 1].map SavingsOperation.handler)
        controlLedger).glBalance 3 - controlLedger.glBalance 3 = 0 ∧
      (Proc.runAll ([SavingsOperation.chargeFee ⟨1, 1⟩ 4 1 1].map SavingsOperation.handler)
        controlLedger).savingsTotal 1 - controlLedger.savingsTotal 1 = -500 := by
  decide +kernel

end NexusEfos
