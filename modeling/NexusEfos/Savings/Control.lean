/-
The control accounts of the savings of an institution.

Three ledger accounts stand behind an institution's savings: cash, the custody of
the collectors, and what is owed to the customers.  A mapping names accounts of its
own institution only, which its endpoint checks, so a movement of another
institution does not reach them.
-/
import NexusEfos.Savings.Balances

namespace NexusEfos

/-- Every mapping row names a ledger account of its own institution. -/
def Db.MappingsOwned (s : Db) : Prop :=
  ∀ row ∈ (s.table .savingsGLAccountMapping).values ++ (s.table .loanGLAccountMapping).values,
    (s.find? .gLAccount row.glAccountId).map (fun a => a.institutionId) = some row.institutionId

instance (s : Db) : Decidable s.MappingsOwned :=
  inferInstanceAs (Decidable (∀ row ∈ (s.table .savingsGLAccountMapping).values ++
    (s.table .loanGLAccountMapping).values,
    (s.find? .gLAccount row.glAccountId).map (fun a => a.institutionId) = some row.institutionId))

/-- The account in which an institution owes its customers their savings is a
liability account, and no account in which money is kept. -/
structure DepositsControl (s : Db) (institutionId liability : Id) : Prop where
  mapped : s.savingsGLAccount? institutionId "Customer Deposits Liability" = some liability
  category_eq : s.category? liability = some .liability
  cash_ne : s.savingsGLAccount? institutionId "Cash/Bank (Savings)" ≠ some liability
  custody_ne : s.savingsGLAccount? institutionId "Collector Cash Custody" ≠ some liability

instance (s : Db) (institutionId liability : Id) :
    Decidable (DepositsControl s institutionId liability) :=
  decidable_of_iff
    (s.savingsGLAccount? institutionId "Customer Deposits Liability" = some liability ∧
      s.category? liability = some .liability ∧
      s.savingsGLAccount? institutionId "Cash/Bank (Savings)" ≠ some liability ∧
      s.savingsGLAccount? institutionId "Collector Cash Custody" ≠ some liability)
    ⟨fun ⟨h₁, h₂, h₃, h₄⟩ => ⟨h₁, h₂, h₃, h₄⟩, fun ⟨h₁, h₂, h₃, h₄⟩ => ⟨h₁, h₂, h₃, h₄⟩⟩

/-- The savings mapping of an institution is complete: money is kept in asset
accounts and owed in a liability account. -/
structure SavingsControl (s : Db) (institutionId cash custody liability : Id) : Prop where
  cash_mapped : s.savingsGLAccount? institutionId "Cash/Bank (Savings)" = some cash
  custody_mapped : s.savingsGLAccount? institutionId "Collector Cash Custody" = some custody
  liability_mapped : s.savingsGLAccount? institutionId "Customer Deposits Liability" =
    some liability
  cash_asset : s.category? cash = some .asset
  custody_asset : s.category? custody = some .asset
  liability_liability : s.category? liability = some .liability

instance (s : Db) (institutionId cash custody liability : Id) :
    Decidable (SavingsControl s institutionId cash custody liability) :=
  decidable_of_iff
    (s.savingsGLAccount? institutionId "Cash/Bank (Savings)" = some cash ∧
      s.savingsGLAccount? institutionId "Collector Cash Custody" = some custody ∧
      s.savingsGLAccount? institutionId "Customer Deposits Liability" = some liability ∧
      s.category? cash = some .asset ∧ s.category? custody = some .asset ∧
      s.category? liability = some .liability)
    ⟨fun ⟨h₁, h₂, h₃, h₄, h₅, h₆⟩ => ⟨h₁, h₂, h₃, h₄, h₅, h₆⟩,
      fun ⟨h₁, h₂, h₃, h₄, h₅, h₆⟩ => ⟨h₁, h₂, h₃, h₄, h₅, h₆⟩⟩

/-- The institution of a ledger account. -/
def Db.glOwner? (s : Db) (g : Id) : Option Id :=
  (s.find? .gLAccount g).map fun a => a.institutionId

theorem mem_of_accountIdByPurpose {mappings : List (Id × GLAccountMapping)} {purpose : String}
    {g : Id} (h : accountIdByPurpose mappings purpose = some g) :
    ∃ m ∈ mappings, m.2.glAccountId = g := by
  obtain ⟨m, hm, hg⟩ := Option.map_eq_some_iff.mp h
  exact ⟨m, List.mem_reverse.mp (List.mem_of_find?_eq_some hm), hg⟩

namespace Db.MappingsOwned

variable {s : Db} {i g : Id} {purpose : String}

theorem savings (h : s.MappingsOwned) (hg : s.savingsGLAccount? i purpose = some g) :
    s.glOwner? g = some i := by
  obtain ⟨m, hm, rfl⟩ := mem_of_accountIdByPurpose hg
  obtain ⟨hmem, hi⟩ := List.mem_filter.mp hm
  have howner := h m.2 (List.mem_append_left _ (List.mem_map_of_mem hmem))
  rw [glOwner?, howner, of_decide_eq_true hi]

theorem loan (h : s.MappingsOwned) (hg : s.loanGLAccount? i purpose = some g) :
    s.glOwner? g = some i := by
  obtain ⟨m, hm, rfl⟩ := mem_of_accountIdByPurpose hg
  obtain ⟨hmem, hi⟩ := List.mem_filter.mp hm
  have howner := h m.2 (List.mem_append_right _ (List.mem_map_of_mem hmem))
  rw [glOwner?, howner, of_decide_eq_true hi]

end Db.MappingsOwned

/-- A movement of another institution is posted elsewhere. -/
theorem SavingsPair.ne_of_owner {s : Db} {i institutionId g : Id} {money owed : Id × GLAccount}
    (hpair : SavingsPair s i money owed) (howned : s.MappingsOwned) (hi : i ≠ institutionId)
    (hg : s.glOwner? g = some institutionId) : g ≠ money.1 ∧ g ≠ owed.1 := by
  have houtside : ∀ g', s.glOwner? g' = some i → g ≠ g' := by
    intro g' hg' heq
    rw [← heq, hg] at hg'
    exact hi (Option.some.inj hg').symm
  refine ⟨?_, houtside _ (howned.savings hpair.liability_mapped)⟩
  rcases hpair.money_mapped with hmoney | hmoney
  · exact houtside _ (howned.savings hmoney)
  · exact houtside _ (howned.savings hmoney)

/-- A repayment at another institution is posted elsewhere. -/
theorem LoanPair.ne_of_owner {s : Db} {i institutionId g : Id} {money receivable : Id × GLAccount}
    (hpair : LoanPair s i money receivable) (howned : s.MappingsOwned) (hi : i ≠ institutionId)
    (hg : s.glOwner? g = some institutionId) : g ≠ money.1 ∧ g ≠ receivable.1 := by
  have houtside : ∀ g', s.glOwner? g' = some i → g ≠ g' := by
    intro g' hg' heq
    rw [← heq, hg] at hg'
    exact hi (Option.some.inj hg').symm
  refine ⟨?_, houtside _ (howned.loan hpair.receivable_mapped)⟩
  rcases hpair.money_mapped with hmoney | hmoney
  · exact houtside _ (howned.loan hmoney)
  · exact houtside _ (howned.loan hmoney)

/-! ## The two lines of a movement -/

section Lines

variable {debited credited : Id × GLAccount}

theorem movementOf_debited (hne : debited.1 ≠ credited.1) (x : ℚ) :
    movementOf (doubleEntry debited credited x) debited.1 =
      match debited.2.category.side with
      | .debit => round (x * 100)
      | .credit => round (-x * 100) := by
  have hlines := movementOf_doubleEntry debited credited x debited.1
  rw [if_pos rfl, if_neg hne.symm, add_zero] at hlines
  exact hlines

theorem movementOf_credited (hne : debited.1 ≠ credited.1) (x : ℚ) :
    movementOf (doubleEntry debited credited x) credited.1 =
      match credited.2.category.side with
      | .debit => round (-x * 100)
      | .credit => round (x * 100) := by
  have hlines := movementOf_doubleEntry debited credited x credited.1
  rw [if_neg hne, if_pos rfl, zero_add] at hlines
  exact hlines

theorem movementOf_other {g : Id} (h : g ≠ debited.1) (h' : g ≠ credited.1) (x : ℚ) :
    movementOf (doubleEntry debited credited x) g = 0 := by
  rw [movementOf_doubleEntry, if_neg h.symm, if_neg h'.symm, add_zero]

end Lines

/-- The lines move what is kept and what is owed by the rounded amount, as far as
the two accounts have the categories they should have. -/
structure MoveTogether (money owed : Id × GLAccount) (lines : List JournalLineInput) (y : ℚ) :
    Prop where
  money_eq : money.2.category = .asset → money.1 ≠ owed.1 →
    movementOf lines money.1 = round (y * 100)
  owed_eq : owed.2.category = .liability → money.1 ≠ owed.1 →
    movementOf lines owed.1 = round (y * 100)
  other_eq : ∀ g, g ≠ money.1 → g ≠ owed.1 → movementOf lines g = 0

/-- A deposit. -/
theorem moveTogether_deposit (money owed : Id × GLAccount) (x : ℚ) :
    MoveTogether money owed (doubleEntry money owed x) x where
  money_eq := fun hasset hne => by
    rw [movementOf_debited hne, hasset]
    rfl
  owed_eq := fun hliability hne => by
    rw [movementOf_credited hne, hliability]
    rfl
  other_eq := fun _ hm ho => movementOf_other hm ho x

/-- A withdrawal. -/
theorem moveTogether_withdrawal (money owed : Id × GLAccount) (x : ℚ) :
    MoveTogether money owed (doubleEntry owed money x) (-x) where
  money_eq := fun hasset hne => by
    rw [movementOf_credited hne.symm, hasset]
    rfl
  owed_eq := fun hliability hne => by
    rw [movementOf_debited hne.symm, hliability]
    rfl
  other_eq := fun _ hm ho => movementOf_other ho hm x

/-! ## What is owed -/

namespace DepositsControl

variable {s t : Db} {institutionId liability : Id}

theorem of_evolves (h : DepositsControl s institutionId liability) (he : s.Evolves t) :
    DepositsControl t institutionId liability := by
  constructor
  · rw [he.savingsGLAccount?]
    exact h.mapped
  · rw [he.chart]
    exact h.category_eq
  · rw [he.savingsGLAccount?]
    exact h.cash_ne
  · rw [he.savingsGLAccount?]
    exact h.custody_ne

/-- The institution's own movements are posted to the account. -/
theorem pair_eq (h : DepositsControl s institutionId liability) {money owed : Id × GLAccount}
    (hpair : SavingsPair s institutionId money owed) :
    owed.1 = liability ∧ owed.2.category = .liability ∧ money.1 ≠ owed.1 := by
  have howed : owed.1 = liability := by
    have heq := hpair.liability_mapped
    rw [h.mapped] at heq
    exact (Option.some.inj heq).symm
  refine ⟨howed, ?_, ?_⟩
  · have hcategory := hpair.liability_category
    rw [howed, h.category_eq] at hcategory
    exact (Option.some.inj hcategory).symm
  · intro heq
    rw [howed] at heq
    rcases hpair.money_mapped with hmoney | hmoney
    · exact h.cash_ne (hmoney.trans (congrArg some heq))
    · exact h.custody_ne (hmoney.trans (congrArg some heq))

/-- A movement of savings moves what is owed by the change of the balance, if the
balance rounds as the journal does. -/
theorem move {s₀ : Db} (hcontrol : DepositsControl s₀ institutionId liability)
    (howned : s₀.MappingsOwned) (he : s₀.Evolves s) {a : Id} {y : ℚ} {acct : SavingsAccount}
    {money owed : Id × GLAccount} {row : SavingsTransaction} {lines : List JournalLineInput}
    (hacct : s.find? .savingsAccount a = some acct)
    (hpair : SavingsPair s acct.institutionId money owed) (hlines : MoveTogether money owed lines y)
    (hround : acct.institutionId = institutionId →
      increment acct.balance y = acct.balance + round (y * 100))
    (hagree : (s.move a y row lines).Agree books t) :
    t.glBalance liability - s.glBalance liability =
      t.savingsTotal institutionId - s.savingsTotal institutionId := by
  have hnow := hcontrol.of_evolves he
  have hgl : t.glBalance liability - s.glBalance liability = movementOf lines liability := by
    rw [Db.glBalance_congr (hagree _ (by decide)),
      Db.glBalance_move (Db.isSome_of_category? hnow.category_eq), add_sub_cancel_left]
  have htotal : t.savingsTotal institutionId - s.savingsTotal institutionId =
      if acct.institutionId = institutionId then increment acct.balance y - acct.balance else 0 := by
    rw [Db.savingsTotal_congr (hagree .savingsAccount (by decide)), Db.savingsTotal_move hacct,
      add_sub_cancel_left]
  rw [hgl, htotal]
  by_cases hi : acct.institutionId = institutionId
  · rw [hi] at hpair
    obtain ⟨howed, hliability, hne⟩ := hnow.pair_eq hpair
    rw [if_pos hi, hround hi, add_sub_cancel_left, ← howed, hlines.owed_eq hliability hne]
  · obtain ⟨hm, ho⟩ := (hpair.of_evolves he.symm).ne_of_owner howned hi
      (howned.savings hcontrol.mapped)
    rw [if_neg hi, hlines.other_eq liability hm ho]

end DepositsControl

/-! ## What is kept -/

namespace SavingsControl

variable {s t : Db} {institutionId cash custody liability : Id}

theorem of_evolves (h : SavingsControl s institutionId cash custody liability)
    (he : s.Evolves t) : SavingsControl t institutionId cash custody liability := by
  constructor
  · rw [he.savingsGLAccount?]
    exact h.cash_mapped
  · rw [he.savingsGLAccount?]
    exact h.custody_mapped
  · rw [he.savingsGLAccount?]
    exact h.liability_mapped
  · rw [he.chart]
    exact h.cash_asset
  · rw [he.chart]
    exact h.custody_asset
  · rw [he.chart]
    exact h.liability_liability

/-- The liability account is not one of the two accounts of money. -/
theorem deposits (h : SavingsControl s institutionId cash custody liability) :
    DepositsControl s institutionId liability := by
  have hne : ∀ g, s.category? g = some .asset → g ≠ liability := by
    intro g hg heq
    rw [heq, h.liability_liability] at hg
    exact absurd hg (by decide)
  refine ⟨h.liability_mapped, h.liability_liability, ?_, ?_⟩
  · rw [h.cash_mapped]
    exact fun heq => hne cash h.cash_asset (Option.some.inj heq)
  · rw [h.custody_mapped]
    exact fun heq => hne custody h.custody_asset (Option.some.inj heq)

/-- The institution's own movements take place in one of the accounts of money. -/
theorem money_eq (h : SavingsControl s institutionId cash custody liability)
    {money owed : Id × GLAccount} (hpair : SavingsPair s institutionId money owed) :
    money.1 ∈ ({cash, custody} : Finset Id) ∧ money.2.category = .asset := by
  rcases hpair.money_mapped with hmoney | hmoney
  · rw [h.cash_mapped] at hmoney
    have heq := (Option.some.inj hmoney).symm
    have hcategory := hpair.money_category
    rw [heq, h.cash_asset] at hcategory
    exact ⟨heq ▸ Finset.mem_insert_self .., (Option.some.inj hcategory).symm⟩
  · rw [h.custody_mapped] at hmoney
    have heq := (Option.some.inj hmoney).symm
    have hcategory := hpair.money_category
    rw [heq, h.custody_asset] at hcategory
    exact ⟨heq ▸ Finset.mem_insert_of_mem (Finset.mem_singleton_self _),
      (Option.some.inj hcategory).symm⟩

/-- The accounts of money are assets of the institution. -/
theorem of_mem (h : SavingsControl s institutionId cash custody liability)
    (howned : s.MappingsOwned) {g : Id} (hg : g ∈ ({cash, custody} : Finset Id)) :
    s.category? g = some .asset ∧ s.glOwner? g = some institutionId := by
  rcases Finset.mem_insert.mp hg with rfl | hg
  · exact ⟨h.cash_asset, howned.savings h.cash_mapped⟩
  · rw [Finset.mem_singleton.mp hg]
    exact ⟨h.custody_asset, howned.savings h.custody_mapped⟩

end SavingsControl

/-- What is owed and what is kept have moved by the change of the savings
balances. -/
structure ControlMoves (s t : Db) (institutionId cash custody liability : Id) : Prop where
  owed : t.glBalance liability - s.glBalance liability =
    t.savingsTotal institutionId - s.savingsTotal institutionId
  kept : ∑ g ∈ {cash, custody}, (t.glBalance g - s.glBalance g) =
    t.savingsTotal institutionId - s.savingsTotal institutionId

namespace ControlMoves

variable {s t u : Db} {institutionId cash custody liability : Id}

theorem refl (s : Db) (institutionId cash custody liability : Id) :
    ControlMoves s s institutionId cash custody liability := by
  constructor
  · rw [sub_self, sub_self]
  · rw [sub_self]
    exact Finset.sum_eq_zero fun g _ => sub_self _

theorem trans (h : ControlMoves s t institutionId cash custody liability)
    (h' : ControlMoves t u institutionId cash custody liability) :
    ControlMoves s u institutionId cash custody liability := by
  constructor
  · have h₁ := h.owed
    have h₂ := h'.owed
    linarith
  · have h₁ := h.kept
    have h₂ := h'.kept
    rw [Finset.sum_sub_distrib] at h₁ h₂ ⊢
    linarith

theorem of_agree (h : s.Agree books t) (institutionId cash custody liability : Id) :
    ControlMoves s t institutionId cash custody liability := by
  have hgl : ∀ g, t.glBalance g = s.glBalance g := Db.glBalance_congr (h _ (by decide))
  have htotal := Db.savingsTotal_congr (h .savingsAccount (by decide)) institutionId
  constructor
  · rw [hgl, htotal, sub_self, sub_self]
  · rw [htotal, sub_self]
    refine Finset.sum_eq_zero fun g _ => ?_
    rw [hgl, sub_self]

/-- A movement whose balance update rounds as its journal does. -/
theorem move {s₀ : Db} (hcontrol : SavingsControl s₀ institutionId cash custody liability)
    (howned : s₀.MappingsOwned) (he : s₀.Evolves s) {a : Id} {y : ℚ} {acct : SavingsAccount}
    {money owed : Id × GLAccount} {row : SavingsTransaction} {lines : List JournalLineInput}
    (hacct : s.find? .savingsAccount a = some acct)
    (hpair : SavingsPair s acct.institutionId money owed) (hlines : MoveTogether money owed lines y)
    (hround : increment acct.balance y = acct.balance + round (y * 100))
    (hagree : (s.move a y row lines).Agree books t) :
    ControlMoves s t institutionId cash custody liability := by
  refine ⟨hcontrol.deposits.move howned he hacct hpair hlines (fun _ => hround) hagree, ?_⟩
  have hnow := hcontrol.of_evolves he
  have htotal : t.savingsTotal institutionId - s.savingsTotal institutionId =
      if acct.institutionId = institutionId then round (y * 100) else 0 := by
    rw [Db.savingsTotal_congr (hagree .savingsAccount (by decide)), Db.savingsTotal_move hacct,
      add_sub_cancel_left, hround, add_sub_cancel_left]
  have hkept : ∑ g ∈ {cash, custody}, (t.glBalance g - s.glBalance g) =
      ∑ g ∈ {cash, custody}, movementOf lines g := by
    refine Finset.sum_congr rfl fun g hg => ?_
    have hasset : s.category? g = some .asset := by
      rw [he.chart]
      exact (hcontrol.of_mem howned hg).1
    rw [Db.glBalance_congr (hagree _ (by decide)),
      Db.glBalance_move (Db.isSome_of_category? hasset), add_sub_cancel_left]
  rw [hkept, htotal]
  by_cases hi : acct.institutionId = institutionId
  · rw [hi] at hpair
    obtain ⟨-, -, hne⟩ := hnow.deposits.pair_eq hpair
    obtain ⟨hmem, hasset⟩ := hnow.money_eq hpair
    have hsum : ∀ g ∈ ({cash, custody} : Finset Id),
        movementOf lines g = if money.1 = g then round (y * 100) else 0 := by
      intro g hg
      by_cases hg' : money.1 = g
      · rw [if_pos hg', ← hg', hlines.money_eq hasset hne]
      · rw [if_neg hg']
        refine hlines.other_eq g (Ne.symm hg') fun heq => ?_
        have hcategory : s.category? g = some .asset := by
          rw [he.chart]
          exact (hcontrol.of_mem howned hg).1
        rw [heq, (hnow.deposits.pair_eq hpair).1, hnow.liability_liability] at hcategory
        exact absurd hcategory (by decide)
    rw [Finset.sum_congr rfl hsum, Finset.sum_ite_eq, if_pos hmem, if_pos hi]
  · rw [if_neg hi]
    refine Finset.sum_eq_zero fun g hg => ?_
    obtain ⟨hm, ho⟩ := (hpair.of_evolves he.symm).ne_of_owner howned hi
      (hcontrol.of_mem howned hg).2
    exact hlines.other_eq g hm ho

end ControlMoves

end NexusEfos
