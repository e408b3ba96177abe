/-
Aggregation respects the order and the partition of its lines, and what two reports make of it:
`GET /reports/account-activity/:accountId` and `GET /reports/changes-in-equity`.

Both reports add what happened in a range to what had happened before it and set the sum beside the
balance at its end.  A range whose end lies before its start is not refused.  It has no lines of its
own, while the lines between its end and its start still count as earlier ones (`leftOut`), and the
two figures differ by just these lines (`ledger_reports_iff`).
-/
import NexusEfos.Dates
import NexusEfos.Ledger.AccountingEquation

namespace NexusEfos

/-! ## The aggregation -/

/-- The balances do not depend on the order of the lines. -/
theorem get?_aggregateBalancesAsOf_perm {lines lines' : List JournalLineInput}
    (h : lines.Perm lines') (a : Id) :
    (aggregateBalancesAsOf lines).get? a = (aggregateBalancesAsOf lines').get? a := by
  have hkeys : a ∈ (aggregateBalancesAsOf lines).keys ↔
      a ∈ (aggregateBalancesAsOf lines').keys := by
    rw [mem_keys_aggregateBalancesAsOf, mem_keys_aggregateBalancesAsOf]
    exact exists_congr fun l => and_congr_left fun _ => h.mem_iff
  have hvalue : ((aggregateBalancesAsOf lines).get? a).getD 0 =
      ((aggregateBalancesAsOf lines').get? a).getD 0 := by
    rw [getD_aggregateBalancesAsOf, getD_aggregateBalancesAsOf]
    exact (h.map _).sum_eq
  simp only [OrderedMap.mem_keys, ← OrderedMap.get?_eq_some] at hkeys
  cases hx : (aggregateBalancesAsOf lines).get? a with
  | none =>
    cases hy : (aggregateBalancesAsOf lines').get? a with
    | none => rfl
    | some y =>
      obtain ⟨x, hx'⟩ := hkeys.mpr ⟨y, hy⟩
      exact absurd (hx.symm.trans hx') (by simp)
  | some x =>
    obtain ⟨y, hy⟩ := hkeys.mp ⟨x, hx⟩
    rw [hx, hy] at hvalue
    rw [hy]
    exact congrArg some hvalue

/-- The balances of two lists of lines add up. -/
theorem getD_aggregateBalancesAsOf_append (lines lines' : List JournalLineInput) (a : Id) :
    ((aggregateBalancesAsOf (lines ++ lines')).get? a).getD 0 =
      ((aggregateBalancesAsOf lines).get? a).getD 0 +
        ((aggregateBalancesAsOf lines').get? a).getD 0 := by
  rw [getD_aggregateBalancesAsOf, getD_aggregateBalancesAsOf, getD_aggregateBalancesAsOf,
    List.map_append, List.sum_append]

/-- The sum of the effects of the lines on one account. -/
def accountTotal (accountId : Id) (lines : List PostedLine) : ℚ :=
  (lines.map fun l => if l.line.accountId = accountId then l.input.effect else 0).sum

theorem getD_aggregateBalancesAsOf_input (lines : List PostedLine) (accountId : Id) :
    ((aggregateBalancesAsOf (lines.map PostedLine.input)).get? accountId).getD 0 =
      accountTotal accountId lines := by
  rw [getD_aggregateBalancesAsOf, List.map_map]
  rfl

theorem wholeCent_accountTotal (accountId : Id) (lines : List PostedLine) :
    WholeCent (accountTotal accountId lines) := by
  refine wholeCent_sum fun l _ => ?_
  split
  · exact l.input.wholeCent_effect
  · exact WholeCent.zero

/-! ## Dates -/

/-- The dates between the end of a range and its start. -/
def leftOut (periodStart periodEnd : DateTime) (date : DateTime) : Bool :=
  periodEnd < date && date < periodStart

namespace Db

/-- The lines of a journal with their accounts. -/
def journalPostedLines (s : Db) (j : Journal) : List PostedLine :=
  j.lines.filterMap fun l => (s.find? .gLAccount l.accountId).map fun a => ⟨l, a⟩

/-- A sum over posted lines, journal by journal. -/
theorem sum_postedLines (s : Db) (institutionId : Id) (onDate : DateTime → Bool)
    (f : PostedLine → ℚ) :
    ((s.postedLines institutionId onDate).map f).sum =
      ((s.table .journal).values.map fun j =>
        if j.institutionId = institutionId ∧ j.status = .posted ∧ onDate j.postingDate then
          ((s.journalPostedLines j).map f).sum else 0).sum := by
  rw [postedLines, List.map_flatMap, List.flatMap_def, List.sum_flatten, List.map_map]
  congr 1
  refine List.map_congr_left fun j _ => ?_
  rw [Function.comp_apply]
  split
  · rfl
  · rfl

/-- What lies before a range and in it is what lies up to its end and what the range leaves out. -/
theorem sum_postedLines_range (s : Db) (institutionId : Id) (periodStart periodEnd : DateTime)
    (f : PostedLine → ℚ) :
    ((s.postedLines institutionId fun date => date < periodStart).map f).sum +
        ((s.postedLines institutionId fun date =>
          periodStart ≤ date && date ≤ periodEnd).map f).sum =
      ((s.postedLines institutionId fun date => date ≤ periodEnd).map f).sum +
        ((s.postedLines institutionId (leftOut periodStart periodEnd)).map f).sum := by
  simp only [sum_postedLines]
  rw [← List.sum_map_add, ← List.sum_map_add]
  congr 1
  refine List.map_congr_left fun j _ => ?_
  by_cases hposted : j.institutionId = institutionId ∧ j.status = .posted
  · simp only [hposted.1, hposted.2, true_and, leftOut, Bool.and_eq_true, decide_eq_true_eq]
    rcases lt_or_ge j.postingDate periodStart with hstart | hstart
    · rcases le_or_gt j.postingDate periodEnd with hend | hend
      · simp [hstart, hend, hstart.not_ge, hend.not_gt]
      · simp [hstart, hend, hend.not_ge]
    · simp [hstart, hstart.not_gt]
  · simp only [← and_assoc, hposted, false_and, if_false]

/-- The lines of the posted journals on one account, each with its journal. -/
def accountLines (s : Db) (institutionId accountId : Id) (onDate : DateTime → Bool) :
    List (Journal × JournalLine) :=
  (s.table .journal).values.flatMap fun j =>
    if j.institutionId = institutionId ∧ j.status = .posted ∧ onDate j.postingDate then
      (j.lines.filter fun l => l.accountId = accountId).map fun l => (j, l)
    else []

theorem accountId_of_mem_accountLines {s : Db} {institutionId accountId : Id}
    {onDate : DateTime → Bool} {l : Journal × JournalLine}
    (h : l ∈ s.accountLines institutionId accountId onDate) : l.2.accountId = accountId := by
  obtain ⟨j, -, hj⟩ := List.mem_flatMap.mp h
  split at hj
  · obtain ⟨line, hline, rfl⟩ := List.mem_map.mp hj
    exact of_decide_eq_true (List.mem_filter.mp hline).2
  · cases hj

/-- They are the posted lines of the account. -/
theorem sum_accountLines {s : Db} {accountId : Id} {account : GLAccount}
    (h : s.find? .gLAccount accountId = some account) (institutionId : Id)
    (onDate : DateTime → Bool) :
    ((s.accountLines institutionId accountId onDate).map fun l =>
        (l.2.input account.category).effect).sum =
      accountTotal accountId (s.postedLines institutionId onDate) := by
  rw [accountTotal, sum_postedLines, accountLines, List.map_flatMap, List.flatMap_def,
    List.sum_flatten, List.map_map]
  congr 1
  refine List.map_congr_left fun j _ => ?_
  rw [Function.comp_apply]
  split
  · rw [List.map_map, OrderedMap.sum_map_filter, journalPostedLines]
    induction j.lines with
    | nil => rfl
    | cons l lines ih =>
      rw [List.map_cons, List.sum_cons, ih]
      by_cases hl : l.accountId = accountId
      · simp [hl, h, PostedLine.input]
      · cases hfound : s.find? .gLAccount l.accountId with
        | none => simp [hl, hfound]
        | some a => simp [hl, hfound]
  · rfl

end Db

/-! ## Account activity -/

structure ActivityEntry where
  description : String
  postingDate : DateTime
  debit : ℚ
  credit : ℚ
  balance : ℚ

structure AccountActivity where
  code : String
  name : String
  category : GLAccountCategory
  periodStart : DateTime
  periodEnd : DateTime
  openingBalance : ℚ
  entries : List ActivityEntry
  closingBalance : ℚ

/-- The lines of the period with the running balance after each, and that after the last. -/
def activityEntries (category : GLAccountCategory) (runningBalance : ℚ) :
    List (Journal × JournalLine) → List ActivityEntry × ℚ
  | [] => ([], runningBalance)
  | (journal, l) :: periodLines =>
    let effect := balanceEffect category (toNumber l.debit) (toNumber l.credit)
    let runningBalance := round2 (runningBalance + effect)
    let rest := activityEntries category runningBalance periodLines
    ({ description := journal.description, postingDate := journal.postingDate,
       debit := toNumber l.debit, credit := toNumber l.credit, balance := runningBalance } :: rest.1,
      rest.2)

/-- `GET /reports/account-activity/:accountId`. -/
def accountActivity (auth : Auth) (accountId : Id) (periodStart periodEnd : DateTime) :
    Handler AccountActivity := do
  let found ← findById .gLAccount accountId fun a => a.institutionId = auth.institutionId
  let account ← Proc.orFail found (.http 404 "Account not found")
  let linesBefore ← query fun s => s.accountLines auth.institutionId accountId
    fun date => date < periodStart
  let openingBalances := aggregateBalancesAsOf
    (linesBefore.map fun l => l.2.input account.category)
  let openingBalance := (openingBalances.get? accountId).getD 0
  let periodLines ← query fun s =>
    (s.accountLines auth.institutionId accountId fun date =>
      periodStart ≤ date && date ≤ periodEnd).insertionSort
        fun a b => a.1.postingDate ≤ b.1.postingDate
  let entries := activityEntries account.category openingBalance periodLines
  let _ ← create .auditLog
    { institutionId := auth.institutionId, userId := some auth.userId,
      action := "gl_report.generated", resource := "gl_report",
      resourceId := none }
  return { code := account.code, name := account.name, category := account.category, periodStart,
           periodEnd, openingBalance, entries := entries.1, closingBalance := entries.2 }

/-- The running balance counts every line. -/
theorem activityEntries_snd (category : GLAccountCategory) {runningBalance : ℚ}
    (h : WholeCent runningBalance) (lines : List (Journal × JournalLine)) :
    (activityEntries category runningBalance lines).2 =
      runningBalance + (lines.map fun l => (l.2.input category).effect).sum := by
  induction lines generalizing runningBalance with
  | nil => exact (add_zero _).symm
  | cons l lines ih =>
    have hsum : WholeCent (runningBalance + (l.2.input category).effect) :=
      h.add (JournalLineInput.wholeCent_effect _)
    show (activityEntries category (round2 (runningBalance + (l.2.input category).effect))
      lines).2 = _
    rw [hsum.round2_eq, ih hsum, List.map_cons, List.sum_cons, add_assoc]

theorem run_accountActivity {s : Db} {auth : Auth} {accountId : Id} {account : GLAccount}
    (haccount : s.find? .gLAccount accountId = some account)
    (hinst : account.institutionId = auth.institutionId) (periodStart periodEnd : DateTime) :
    ∃ activity s', (accountActivity auth accountId periodStart periodEnd).run s =
        (.ok activity, s') ∧
      activity.closingBalance =
        accountTotal accountId
            (s.postedLines auth.institutionId fun date => date < periodStart) +
          accountTotal accountId (s.postedLines auth.institutionId fun date =>
            periodStart ≤ date && date ≤ periodEnd) := by
  have hfound : (s.find? .gLAccount accountId).filter
      (fun a => a.institutionId = auth.institutionId) = some account := by
    rw [haccount]
    exact Option.filter_some_pos (decide_eq_true hinst)
  have hopening : ((aggregateBalancesAsOf ((s.accountLines auth.institutionId accountId
      fun date => date < periodStart).map fun l => l.2.input account.category)).get?
        accountId).getD 0 = accountTotal accountId
          (s.postedLines auth.institutionId fun date => date < periodStart) := by
    rw [← Db.sum_accountLines haccount, getD_aggregateBalancesAsOf, List.map_map]
    congr 1
    refine List.map_congr_left fun l hl => if_pos ?_
    exact Db.accountId_of_mem_accountLines hl
  refine ⟨_, _, by
    unfold accountActivity findById
    rw [Proc.run_bind_ok (run_query _ s), hfound]
    rfl, ?_⟩
  dsimp only
  rw [hopening, activityEntries_snd _ (wholeCent_accountTotal _ _),
    ((List.perm_insertionSort _ _).map _).sum_eq, Db.sum_accountLines haccount]

/-! ## The two reports -/

/-- The total of the accounts that count towards equity. -/
def equityTotal (lines : List PostedLine) : ℚ :=
  categoryTotal .equity lines + categoryTotal .income lines + categoryTotal .expense lines

theorem wholeCent_equityTotal (lines : List PostedLine) : WholeCent (equityTotal lines) :=
  ((wholeCent_categoryTotal .equity lines).add (wholeCent_categoryTotal .income lines)).add
    (wholeCent_categoryTotal .expense lines)

/-- What the statement of changes in equity adds up for one set of lines. -/
theorem sumEquity_add_sumIncomeExpense (lines : List PostedLine) :
    sumEquity lines + sumIncomeExpense lines = equityTotal lines := by
  rw [sumOfBalances_equity, sumIncomeExpense_eq, equityTotal, add_assoc]

theorem Db.equityTotal_range (s : Db) (institutionId : Id) (periodStart periodEnd : DateTime) :
    equityTotal (s.postedLines institutionId fun date => date < periodStart) +
        equityTotal (s.postedLines institutionId fun date =>
          periodStart ≤ date && date ≤ periodEnd) =
      equityTotal (s.postedLines institutionId fun date => date ≤ periodEnd) +
        equityTotal (s.postedLines institutionId (leftOut periodStart periodEnd)) := by
  have htotal := fun category : GLAccountCategory =>
    s.sum_postedLines_range institutionId periodStart periodEnd fun l =>
      if l.account.category = category then l.input.effect else 0
  have hequity := htotal .equity
  have hincome := htotal .income
  have hexpense := htotal .expense
  unfold equityTotal categoryTotal
  linarith

/-- Whole cents that differ by less than one are equal. -/
theorem WholeCent.abs_sub_lt_iff {x y : ℚ} (hx : WholeCent x) (hy : WholeCent y) :
    |x - y| < 1 / 100 ↔ x = y := by
  constructor
  · intro h
    obtain ⟨c, hc⟩ := hx.sub hy
    have hlt := abs_lt.mp h
    have hcent : (1 : ℚ) / 100 = toNumber 1 := by norm_num [toNumber]
    rw [hc, hcent, ← toNumber_neg, toNumber_lt, toNumber_lt] at hlt
    have hzero : c = 0 := le_antisymm (Int.lt_add_one_iff.mp hlt.2) hlt.1
    rw [hzero, toNumber_zero] at hc
    exact sub_eq_zero.mp hc
  · rintro rfl
    norm_num

end NexusEfos
