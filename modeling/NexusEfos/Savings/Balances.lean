/-
Balances and rows after the statements of the books.
-/
import NexusEfos.Savings.Books

namespace NexusEfos

namespace Db

variable {s : Db} {a : Id}

/-! ## The tables a statement writes -/

theorem table_foldl_allocation {m : Model} (hm : m ≠ .loanInstallment)
    (us : List AllocationUpdate) (s : Db) :
    (us.foldl (fun s u => s.modify .loanInstallment u.id u.apply) s).table m = s.table m := by
  induction us generalizing s with
  | nil => rfl
  | cons u us ih => exact (ih _).trans (table_modify_of_ne hm s u.id u.apply)

/-- A repayment writes two tables. -/
theorem table_repay_of_ne {m : Model} (hm : m ≠ .loanRepayment) (hm' : m ≠ .loanInstallment)
    (s : Db) (loanId : Id) (x : ℚ) (recordedById : Id) :
    (s.repay loanId x recordedById).table m = s.table m :=
  (table_foldl_allocation hm' _ _).trans (table_insert_of_ne hm s _)

/-- A movement writes three tables. -/
theorem table_move {m : Model} (hm : m ≠ .savingsAccount) (hm' : m ≠ .savingsTransaction)
    (hm'' : m ≠ .gLAccount) (s : Db) (a : Id) (x : ℚ) (row : SavingsTransaction)
    (lines : List JournalLineInput) : (s.move a x row lines).table m = s.table m := by
  rw [move, table_applyEffects hm'', table_insert_of_ne hm', table_modify_of_ne hm]

theorem table_overwrite {m : Model} (hm : m ≠ .savingsAccount) (s : Db) (os : List Overwrite) :
    (s.overwrite os).table m = s.table m := by
  induction os generalizing s with
  | nil => rfl
  | cons o os ih => exact (ih _).trans (table_modify_of_ne hm s o.accountId _)

theorem table_insertAll {m m' : Model} (hm : m' ≠ m) (s : Db) (rows : List (Row m)) :
    (s.insertAll m rows).table m' = s.table m' := by
  induction rows generalizing s with
  | nil => rfl
  | cons row rows ih => exact (ih _).trans (table_insert_of_ne hm s row)

theorem values_insertAll {m : Model} (s : Db) (rows : List (Row m)) :
    ((s.insertAll m rows).table m).values = (s.table m).values ++ rows := by
  induction rows generalizing s with
  | nil => exact (List.append_nil _).symm
  | cons row rows ih =>
    refine (ih _).trans ?_
    rw [table_insert_self, OrderedMap.values_create, List.append_assoc]
    rfl

/-! ## Balances after the statements -/

theorem balanceOf_of_find? {acct : SavingsAccount} (h : s.find? .savingsAccount a = some acct) :
    s.balanceOf a = acct.balance := by
  rw [balanceOf, h]
  rfl

theorem balanceOf_congr {s' : Db} (h : s'.table .savingsAccount = s.table .savingsAccount)
    (a : Id) : s'.balanceOf a = s.balanceOf a := by
  unfold balanceOf find?
  rw [h]

theorem balanceOf_agree {s' : Db} (h : s.Agree books s') (a : Id) :
    s'.balanceOf a = s.balanceOf a := balanceOf_congr (h _ (by decide)) a

theorem balanceOf_applyEffects (s : Db) (lines : List JournalLineInput) (a : Id) :
    (s.applyEffects lines).balanceOf a = s.balanceOf a :=
  balanceOf_congr (table_applyEffects (by decide) s lines) a

theorem balanceOf_insert {m : Model} (hm : m ≠ .savingsAccount) (s : Db) (row : Row m) (a : Id) :
    (s.insert m row).balanceOf a = s.balanceOf a :=
  balanceOf_congr (table_insert_of_ne hm.symm s row) a

theorem balanceOf_insertAll {m : Model} (hm : m ≠ .savingsAccount) (s : Db) (rows : List (Row m))
    (a : Id) : (s.insertAll m rows).balanceOf a = s.balanceOf a :=
  balanceOf_congr (table_insertAll hm.symm s rows) a

theorem balanceOf_repay (s : Db) (loanId : Id) (x : ℚ) (recordedById a : Id) :
    (s.repay loanId x recordedById).balanceOf a = s.balanceOf a :=
  balanceOf_congr (table_repay_of_ne (by decide) (by decide) s loanId x recordedById) a

/-- One account is rewritten. -/
theorem balanceOf_modify {acct : SavingsAccount} (h : s.find? .savingsAccount a = some acct)
    (f : SavingsAccount → SavingsAccount) (a' : Id) :
    (s.modify .savingsAccount a f).balanceOf a' =
      if a' = a then (f acct).balance else s.balanceOf a' := by
  rw [balanceOf, find?_modify]
  by_cases ha : a' = a
  · subst ha
    rw [if_pos rfl, if_pos rfl, h]
    rfl
  · rw [if_neg ha, if_neg ha]
    rfl

theorem balanceOf_move {acct : SavingsAccount} (h : s.find? .savingsAccount a = some acct)
    (x : ℚ) (row : SavingsTransaction) (lines : List JournalLineInput) (a' : Id) :
    (s.move a x row lines).balanceOf a' =
      if a' = a then increment acct.balance x else s.balanceOf a' := by
  rw [move, balanceOf_applyEffects, balanceOf_insert (by decide), balanceOf_modify h]
  rfl

/-- Absolute writes to distinct accounts that still hold what was read change the
balances as they were meant to. -/
theorem balanceOf_overwrite {os : List Overwrite}
    (hfound : ∀ o ∈ os, (s.find? .savingsAccount o.accountId).isSome)
    (hread : ∀ o ∈ os, s.balanceOf o.accountId = o.read)
    (hdistinct : (os.map Overwrite.accountId).Nodup) (a : Id) :
    (s.overwrite os).balanceOf a = s.balanceOf a + intended os a := by
  induction os generalizing s with
  | nil => simp [overwrite, intended]
  | cons o os ih =>
    obtain ⟨acct, hacct⟩ := Option.isSome_iff_exists.mp (hfound o (List.mem_cons_self ..))
    rw [List.map_cons, List.nodup_cons] at hdistinct
    have hne : ∀ o' ∈ os, o'.accountId ≠ o.accountId := by
      intro o' ho' heq
      exact hdistinct.1 (heq ▸ List.mem_map_of_mem ho')
    have hrest := ih (s := s.modify .savingsAccount o.accountId (SavingsAccount.setCents o.written))
      (fun o' ho' => by
        rw [find?_modify, if_neg (hne o' ho')]
        exact hfound o' (List.mem_cons_of_mem o ho'))
      (fun o' ho' => by
        rw [balanceOf_modify hacct, if_neg (hne o' ho')]
        exact hread o' (List.mem_cons_of_mem o ho')) hdistinct.2
    have hnow := hread o (List.mem_cons_self ..)
    refine hrest.trans ?_
    rw [balanceOf_modify hacct]
    by_cases ha : a = o.accountId
    · subst ha
      rw [if_pos rfl, hnow]
      simp only [intended, List.map_cons, List.sum_cons, if_pos]
      show o.read + o.change + _ = _
      ring
    · rw [if_neg ha]
      simp [intended, Ne.symm ha]

/-! ## Rows after the statements -/

/-- The rows of all accounts. -/
def rows (s : Db) : List SavingsTransaction := (s.table .savingsTransaction).values

theorem rows_congr {s' : Db} (h : s'.table .savingsTransaction = s.table .savingsTransaction) :
    s'.rows = s.rows := congrArg OrderedMap.values h

theorem rows_insert (s : Db) (row : SavingsTransaction) :
    (s.insert .savingsTransaction row).rows = s.rows ++ [row] := by
  rw [rows, table_insert_self, OrderedMap.values_create]
  rfl

theorem rows_insertAll (s : Db) (new : List SavingsTransaction) :
    (s.insertAll .savingsTransaction new).rows = s.rows ++ new :=
  values_insertAll (m := .savingsTransaction) s new

theorem rows_insertAll_of_ne {m : Model} (hm : m ≠ .savingsTransaction) (s : Db)
    (new : List (Row m)) : (s.insertAll m new).rows = s.rows :=
  rows_congr (table_insertAll hm.symm s new)

theorem rows_applyEffects (s : Db) (lines : List JournalLineInput) :
    (s.applyEffects lines).rows = s.rows := rows_congr (table_applyEffects (by decide) s lines)

theorem rows_move (s : Db) (a : Id) (x : ℚ) (row : SavingsTransaction)
    (lines : List JournalLineInput) : (s.move a x row lines).rows = s.rows ++ [row] := by
  rw [move, rows_applyEffects, rows_insert, rows_congr (table_modify_of_ne (by decide) s a _)]

theorem rows_overwrite (s : Db) (os : List Overwrite) : (s.overwrite os).rows = s.rows :=
  rows_congr (table_overwrite (by decide) s os)

theorem rows_repay (s : Db) (loanId : Id) (x : ℚ) (recordedById : Id) :
    (s.repay loanId x recordedById).rows = s.rows := by
  refine rows_congr ?_
  rw [table_repay_of_ne (by decide) (by decide)]

/-! ## Totals and ledger balances after the statements -/

/-- The sum of the balances of an institution's savings accounts. -/
def savingsTotal (s : Db) (institutionId : Id) : Cents :=
  (s.table .savingsAccount).total fun _ a =>
    if a.institutionId = institutionId then a.balance else 0

theorem savingsTotal_congr {s' : Db} (h : s'.table .savingsAccount = s.table .savingsAccount)
    (i : Id) : s'.savingsTotal i = s.savingsTotal i := by
  unfold savingsTotal
  rw [h]

theorem savingsTotal_modify {acct : SavingsAccount} (h : s.find? .savingsAccount a = some acct)
    {f : SavingsAccount → SavingsAccount} (hf : ∀ r, (f r).institutionId = r.institutionId)
    (i : Id) : (s.modify .savingsAccount a f).savingsTotal i =
      s.savingsTotal i + if acct.institutionId = i then (f acct).balance - acct.balance else 0 := by
  rw [savingsTotal, table_modify_self, OrderedMap.total_modify_of_some h, hf]
  by_cases hi : acct.institutionId = i
  · rw [if_pos hi, if_pos hi, if_pos hi]
    rfl
  · rw [if_neg hi, if_neg hi, if_neg hi, sub_zero]
    rfl

theorem savingsTotal_move {acct : SavingsAccount} (h : s.find? .savingsAccount a = some acct)
    (x : ℚ) (row : SavingsTransaction) (lines : List JournalLineInput) (i : Id) :
    (s.move a x row lines).savingsTotal i =
      s.savingsTotal i +
        if acct.institutionId = i then increment acct.balance x - acct.balance else 0 := by
  rw [move, savingsTotal_congr (table_applyEffects (by decide) _ lines),
    savingsTotal_congr (table_insert_of_ne (m := .savingsTransaction) (by decide) _ row),
    savingsTotal_modify h (f := SavingsAccount.increment x) fun _ => rfl]
  rfl

theorem glBalance_move {g : Id} (h : (s.find? .gLAccount g).isSome) (a : Id) (x : ℚ)
    (row : SavingsTransaction) (lines : List JournalLineInput) :
    (s.move a x row lines).glBalance g = s.glBalance g + movementOf lines g := by
  have hsame : ((s.modify .savingsAccount a (SavingsAccount.increment x)).insert
      .savingsTransaction row).table .gLAccount = s.table .gLAccount := by
    rw [table_insert_of_ne (by decide), table_modify_of_ne (by decide)]
  have hfound : (((s.modify .savingsAccount a (SavingsAccount.increment x)).insert
      .savingsTransaction row).find? .gLAccount g).isSome := by
    rw [find?, hsame]
    exact h
  rw [move, glBalance_applyEffects hfound, glBalance_congr hsame]

end Db

/-! ## The two lines of a movement -/

/-- The effect of a line in cents, by the side of its category. -/
theorem JournalLineInput.effectCents_eq (line : JournalLineInput) :
    line.effectCents = match line.category.side with
      | .debit => round ((line.debit - line.credit) * 100)
      | .credit => round ((line.credit - line.debit) * 100) := by
  rw [JournalLineInput.effectCents, JournalLineInput.effect, balanceEffect_eq_round2]
  cases line.category.side with
  | debit => exact ofNumber_toNumber _
  | credit => exact ofNumber_toNumber _

/-- What a debit and a credit over one amount do to one account. -/
theorem movementOf_doubleEntry (debited credited : Id × GLAccount) (x : ℚ) (g : Id) :
    movementOf (doubleEntry debited credited x) g =
      (if debited.1 = g then
        match debited.2.category.side with
        | .debit => round (x * 100)
        | .credit => round (-x * 100)
      else 0) +
      if credited.1 = g then
        match credited.2.category.side with
        | .debit => round (-x * 100)
        | .credit => round (x * 100)
      else 0 := by
  simp only [movementOf, doubleEntry, List.map_cons, List.map_nil, List.sum_cons, List.sum_nil,
    add_zero, JournalLineInput.effectCents_eq, sub_zero, zero_sub]

end NexusEfos
