/-
Lost updates on savings balances.

The balance of an account moves by the signed sum of the rows that are committed,
in every interleaving in which no absolute write meets a balance other than the
one it was computed from (`balance_eq_add_rows`).  The condition is needed: of
two fee charges that read the same balance, one is lost (`feeRace_loses_update`).
-/
import NexusEfos.Savings.Balances
import NexusEfos.Savings.Operations

namespace NexusEfos

/-! ## The condition -/

/-- A statement finds every balance it overwrites as it was read, overwrites no
account twice, and adds no odd number of half cents, unless it is a deposit that
does not end below zero. -/
structure Access.Intact (lab : Access) (s : Db) : Prop where
  read_current : ∀ o ∈ lab.overwrites, s.balanceOf o.accountId = o.read
  distinct : (lab.overwrites.map Overwrite.accountId).Nodup
  rounds : ∀ i ∈ lab.increments,
    ¬ IsHalfCent i.2 ∨ 0 < i.2 ∧ 0 ≤ toNumber (s.balanceOf i.1) + i.2

instance (lab : Access) (s : Db) : Decidable (lab.Intact s) :=
  decidable_of_iff
    ((∀ o ∈ lab.overwrites, s.balanceOf o.accountId = o.read) ∧
      (lab.overwrites.map Overwrite.accountId).Nodup ∧
      ∀ i ∈ lab.increments,
        ¬ IsHalfCent i.2 ∨ 0 < i.2 ∧ 0 ≤ toNumber (s.balanceOf i.1) + i.2)
    ⟨fun h => ⟨h.1, h.2.1, h.2.2⟩, fun h => ⟨h.1, h.2, h.3⟩⟩

/-! ## One statement -/

/-- The rows grow by some and the balances move with them, up to what is owed. -/
def MovesWithRows (s : Db) (d : Id → Cents) (s' : Db) (d' : Id → Cents) : Prop :=
  ∃ new, s'.rows = s.rows ++ new ∧
    ∀ a, s'.balanceOf a + d' a = s.balanceOf a + d a + signedSum new a

theorem movesWithRows_move {s s' : Db} {a : Id} {x : ℚ} {acct : SavingsAccount}
    {row : SavingsTransaction} {lines : List JournalLineInput} (d : Id → Cents)
    (hacct : s.find? .savingsAccount a = some acct) (hrow : row.accountId = a)
    (hround : increment acct.balance x = acct.balance + row.signed)
    (hagree : (s.move a x row lines).Agree books s') : MovesWithRows s d s' d := by
  refine ⟨[row], ?_, fun a' => ?_⟩
  · rw [Db.rows_congr (hagree _ (by decide)), Db.rows_move]
  · have hnow := Db.balanceOf_of_find? hacct
    rw [Db.balanceOf_agree hagree, Db.balanceOf_move hacct, hround]
    by_cases ha : a' = a
    · subst ha
      rw [if_pos rfl, hnow]
      simp [signedSum, hrow]
      ring
    · simp [signedSum, ha, hrow, Ne.symm ha]

/-- A statement moves the balances by the rows it adds and by the change of what
its process owes. -/
theorem BooksStep.movesWithRows {allowed : BooksKind → Prop} {lab : Access} {s s' : Db}
    {d d' : Id → Cents} (h : BooksStep allowed lab s d s' d') (hlab : lab.Intact s) : MovesWithRows s d s' d' := by
  cases h with
  | quiet hagree =>
    refine ⟨[], ?_, fun a => ?_⟩
    · rw [Db.rows_congr (hagree _ (by decide)), List.append_nil]
    · rw [Db.balanceOf_agree hagree]
      simp [signedSum]
  | @deposited a x acct _ _ _ _ _ _ hl hx hacct _ hagree =>
    have hround : increment acct.balance x = acct.balance + ofNumber x := by
      have hmeets := hlab.rounds (a, x) (by rw [hl]; exact List.mem_singleton.mpr rfl)
      rcases hmeets with hoff | ⟨-, hsum⟩
      · exact increment_of_not_isHalfCent hoff _
      · rw [Db.balanceOf_of_find? hacct] at hsum
        exact increment_of_nonneg hx.le hsum
    exact movesWithRows_move d hacct rfl hround hagree
  | @withdrew a x acct _ _ _ _ _ _ hl hx hacct _ _ hagree =>
    have hround : increment acct.balance (-x) = acct.balance + -ofNumber x := by
      have hmeets := hlab.rounds (a, -x) (by rw [hl]; exact List.mem_singleton.mpr rfl)
      rcases hmeets with hoff | ⟨hpos, -⟩
      · rw [increment_of_not_isHalfCent hoff, ofNumber_neg]
      · have hneg : ¬ 0 < -x := by linarith
        exact absurd hpos hneg
    exact movesWithRows_move d hacct rfl hround hagree
  | repaid _ hl hx hpair hagree =>
    refine ⟨[], ?_, fun a => ?_⟩
    · rw [Db.rows_congr (hagree _ (by decide)), Db.rows_applyEffects, Db.rows_repay,
        List.append_nil]
    · rw [Db.balanceOf_agree hagree, Db.balanceOf_applyEffects, Db.balanceOf_repay]
      simp [signedSum]
  | @overwrote _ os new repayments _ _ _ _ hl hfound hagree hd =>
    refine ⟨new, ?_, fun a => ?_⟩
    · rw [Db.rows_congr (hagree _ (by decide)), Db.rows_insertAll_of_ne (by decide),
        Db.rows_insertAll, Db.rows_overwrite]
    · have hread : ∀ o ∈ os, s.balanceOf o.accountId = o.read := by
        intro o ho
        exact hlab.read_current o (by rw [hl]; exact ho)
      have hdistinct : (os.map Overwrite.accountId).Nodup := by
        have h := hlab.distinct
        rwa [hl] at h
      have howed := hd a
      rw [Db.balanceOf_agree hagree, Db.balanceOf_insertAll (by decide),
        Db.balanceOf_insertAll (by decide), Db.balanceOf_overwrite hfound hread hdistinct]
      linarith

/-! ## No lost update -/

/-- When all operations have ended, every balance has moved by the signed sum of
the rows they committed, if every statement met the condition. -/
theorem balance_eq_add_rows {ι : Type} [Fintype ι] [DecidableEq ι] (ops : ι → SavingsOperation)
    (s : Db) (sched : List ι)
    (hintact : (operationPool ops s).Allowed Access.Intact sched)
    (hfin : ((operationPool ops s).run sched).Finished) :
    ∃ committed, ((operationPool ops s).run sched).state.rows = s.rows ++ committed ∧
      ∀ a, ((operationPool ops s).run sched).state.balanceOf a =
        s.balanceOf a + signedSum committed a := by
  have hstep : ∀ (lab : Access) (t : Db) (d : Id → Cents) (t' : Db) (d' o : Id → Cents),
      lab.Intact t → BooksStep (fun _ => True) lab t d t' d' → t.Evolves t' →
        MovesWithRows s 0 t (o + d) → MovesWithRows s 0 t' (o + d') := by
    intro lab t d t' d' o hlab hguar _ hinv
    obtain ⟨new, hrows, hsum⟩ := hguar.movesWithRows hlab
    obtain ⟨old, hold, holdsum⟩ := hinv
    refine ⟨old ++ new, by rw [hrows, hold, List.append_assoc], fun a => ?_⟩
    have h₁ := hsum a
    have h₂ := holdsum a
    have happend : signedSum (old ++ new) a = signedSum old a + signedSum new a := by
      rw [signedSum, List.map_append, List.sum_append]
      rfl
    simp only [Pi.add_apply, Pi.zero_apply] at h₁ h₂ ⊢
    linarith
  have hstart : MovesWithRows s 0 (operationPool ops s).state (∑ _i : ι, (0 : Id → Cents)) := by
    refine ⟨[], (List.append_nil _).symm, fun a => ?_⟩
    rw [Finset.sum_const_zero]
    exact (add_zero _).symm
  obtain ⟨d, hd, committed, hrows, hsum⟩ :=
    Pool.run_follows hstep (operationPool_follows ops s) hstart hintact
  refine ⟨committed, hrows, fun a => ?_⟩
  have h := hsum a
  rw [hd.sum_eq_zero hfin] at h
  simpa using h

/-! ## Two fees at the same time -/

/-- An account of 100.00 and a fee of 5.00. -/
def feeLedger : Db :=
  (Db.empty.insert .savingsAccount
    { institutionId := 1, customerId := 1, balance := 10000, ledgerBalance := 10000 }).insert
      .savingsFeeType { institutionId := 1, calculationMethod := .fixed, amount := 500 }

/-- Two charges of the fee. -/
def feeRace (_ : Bool) : SavingsOperation := .chargeFee ⟨1, 1⟩ 4 1 1

/-- When the second charge reads after the first has written, nothing is lost. -/
theorem balance_eq_add_rows_feeRace :
    ∃ committed, ((operationPool feeRace feeLedger).run
        [false, false, false, true, true, true, true, true, false, false]).state.rows =
          feeLedger.rows ++ committed ∧
      ∀ a, ((operationPool feeRace feeLedger).run
        [false, false, false, true, true, true, true, true, false, false]).state.balanceOf a =
          feeLedger.balanceOf a + signedSum committed a := by
  refine balance_eq_add_rows feeRace feeLedger _ (by decide +kernel) fun i => ?_
  cases i with
  | false => exact ⟨_, rfl⟩
  | true => exact ⟨_, rfl⟩

/-- Both charges read the balance before either writes it: 10.00 of fees are
recorded and the balance falls by 5.00. -/
theorem feeRace_loses_update :
    ((operationPool feeRace feeLedger).run
      [false, false, true, true, false, false, false, true, true, true]).Finished ∧
    ((operationPool feeRace feeLedger).run
      [false, false, true, true, false, false, false, true, true, true]).state.balanceOf 1 = 9500 ∧
    feeLedger.balanceOf 1 + signedSum ((operationPool feeRace feeLedger).run
      [false, false, true, true, false, false, false, true, true, true]).state.rows 1 = 9000 := by
  refine ⟨fun i => ?_, by decide +kernel, by decide +kernel⟩
  cases i with
  | false => exact ⟨_, rfl⟩
  | true => exact ⟨_, rfl⟩

end NexusEfos
