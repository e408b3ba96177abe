/-
The financial statements of `generalLedger.routes.ts`.

Each report reads the posted lines of an institution and aggregates them anew.
All of them come down to five numbers, the totals of the lines by category
(`categoryTotal`): the sections of the balance sheet and of the income statement,
the dashboard, and the two sums of the statement of changes in equity are each
one of these totals or a combination of two.

The reports do not combine them in the same way.  The income statement and the
dashboard subtract the expenses from the income.  The balance sheet and the
statement of changes in equity add up the values of one map that holds income and
expense accounts together, each with the sign of its own side, and so add the
expenses.
-/
import NexusEfos.Ledger.GeneralLedger
import NexusEfos.Prisma
import Mathlib.Data.List.Sort
import Mathlib.Tactic.Ring

namespace NexusEfos

open DoubleEntry

/-! ## The posted lines -/

/-- A posted line with its account. -/
structure PostedLine where
  line : JournalLine
  account : GLAccount

/-- The lines of the posted journals of an institution whose posting date passes
a test, each with the account it refers to. -/
def Db.postedLines (s : Db) (institutionId : Id) (onDate : DateTime → Bool) : List PostedLine :=
  (s.table .journal).values.flatMap fun j =>
    if j.institutionId = institutionId ∧ j.status = .posted ∧ onDate j.postingDate then
      j.lines.filterMap fun l => (s.find? .gLAccount l.accountId).map fun a => ⟨l, a⟩
    else []

def getPostedLinesUpTo (institutionId : Id) (asOf : DateTime) : Handler (List PostedLine) :=
  query fun s => s.postedLines institutionId fun date => date ≤ asOf

def getPostedLinesForPeriod (institutionId : Id) (periodStart periodEnd : DateTime) :
    Handler (List PostedLine) :=
  query fun s => s.postedLines institutionId fun date => periodStart ≤ date && date ≤ periodEnd

/-- `{ accountId, category: l.account.category, debit: Number(l.debit), … }`. -/
def PostedLine.input (l : PostedLine) : JournalLineInput := l.line.input l.account.category

/-- The accounts of the lines, one entry each. -/
def accountsInvolved (lines : List PostedLine) : OrderedMap Id GLAccount :=
  OrderedMap.empty.accumulate (fun l => l.line.accountId) (fun _ l => l.account) lines

/-- Income and expense accounts. -/
def PostedLine.isIncomeExpense (l : PostedLine) : Bool :=
  decide (l.account.category = .income) || decide (l.account.category = .expense)

/-! ## The reports -/

structure ReportRow where
  code : String
  name : String
  balance : ℚ

/-- A section of a report: the accounts of one category with their balances, in
order of their codes.  `localeCompare` compares two codes. -/
def byCategory (localeCompare : String → String → ℤ) (accounts : OrderedMap Id GLAccount)
    (balances : OrderedMap Id ℚ) (category : GLAccountCategory) : List ReportRow :=
  ((accounts.entries.filter fun a => a.2.category = category).map fun a =>
      { code := a.2.code, name := a.2.name, balance := (balances.get? a.1).getD 0 :
        ReportRow }).insertionSort
    fun a b => localeCompare a.code b.code ≤ 0

/-- The sum of a section. -/
def sectionTotal (rows : List ReportRow) : ℚ := (rows.map ReportRow.balance).sum

/-- The sum of the values of the aggregation of some lines. -/
def sumOfBalances (lines : List PostedLine) : ℚ :=
  (aggregateBalancesAsOf (lines.map PostedLine.input)).values.sum

structure BalanceSheet where
  asOfDate : DateTime
  assets : List ReportRow
  liabilities : List ReportRow
  equity : List ReportRow
  totalAssets : ℚ
  totalLiabilities : ℚ
  totalEquity : ℚ
  netIncomeSinceInception : ℚ
  balanced : Bool

/-- `GET /reports/balance-sheet`. -/
def balanceSheet (localeCompare : String → String → ℤ) (institutionId : Id)
    (asOfDate : DateTime) : Handler BalanceSheet := do
  let lines ← getPostedLinesUpTo institutionId asOfDate
  let balances := aggregateBalancesAsOf (lines.map PostedLine.input)
  let accounts := accountsInvolved lines
  let assets := byCategory localeCompare accounts balances .asset
  let liabilities := byCategory localeCompare accounts balances .liability
  let equity := byCategory localeCompare accounts balances .equity
  let totalAssets := sectionTotal assets
  let totalLiabilities := sectionTotal liabilities
  let totalEquityExclIncome := sectionTotal equity
  let netIncomeSinceInception := sumOfBalances (lines.filter PostedLine.isIncomeExpense)
  let totalEquity := totalEquityExclIncome + netIncomeSinceInception
  return { asOfDate, assets, liabilities, equity, totalAssets, totalLiabilities, totalEquity,
           netIncomeSinceInception,
           balanced := |totalAssets - (totalLiabilities + totalEquity)| < 1 / 100 }

structure IncomeStatement where
  periodStart : DateTime
  periodEnd : DateTime
  income : List ReportRow
  expenses : List ReportRow
  totalIncome : ℚ
  totalExpenses : ℚ
  netIncome : ℚ

/-- `GET /reports/income-statement`. -/
def incomeStatement (localeCompare : String → String → ℤ) (institutionId : Id)
    (periodStart periodEnd : DateTime) : Handler IncomeStatement := do
  let lines ← getPostedLinesForPeriod institutionId periodStart periodEnd
  let ieLines := lines.filter PostedLine.isIncomeExpense
  let balances := aggregateBalancesForPeriod (ieLines.map PostedLine.input)
  let accounts := accountsInvolved ieLines
  let income := byCategory localeCompare accounts balances .income
  let expenses := byCategory localeCompare accounts balances .expense
  let totalIncome := sectionTotal income
  let totalExpenses := sectionTotal expenses
  return { periodStart, periodEnd, income, expenses, totalIncome, totalExpenses,
           netIncome := totalIncome - totalExpenses }

structure ChangesInEquity where
  periodStart : DateTime
  periodEnd : DateTime
  openingEquity : ℚ
  netIncomeForPeriod : ℚ
  equityMovement : ℚ
  closingEquity : ℚ
  reconciles : Bool

/-- The equity accounts, all aggregated as equity. -/
def sumEquity (lines : List PostedLine) : ℚ :=
  sumOfBalances (lines.filter fun l => l.account.category = .equity)

def sumIncomeExpense (lines : List PostedLine) : ℚ :=
  sumOfBalances (lines.filter PostedLine.isIncomeExpense)

/-- `GET /reports/changes-in-equity`.  The opening is taken one millisecond
before the period. -/
def changesInEquity (institutionId : Id) (periodStart periodEnd : DateTime) :
    Handler ChangesInEquity := do
  let linesAtStart ← getPostedLinesUpTo institutionId (periodStart - 1)
  let linesAtEnd ← getPostedLinesUpTo institutionId periodEnd
  let periodLines ← getPostedLinesForPeriod institutionId periodStart periodEnd
  let openingEquity := sumEquity linesAtStart + sumIncomeExpense linesAtStart
  let equityMovement := sumEquity periodLines
  let netIncomeForPeriod := sumIncomeExpense periodLines
  let closingEquityComputed := sumEquity linesAtEnd + sumIncomeExpense linesAtEnd
  let closingEquityExpected := openingEquity + equityMovement + netIncomeForPeriod
  return { periodStart, periodEnd, openingEquity, netIncomeForPeriod, equityMovement,
           closingEquity := closingEquityComputed,
           reconciles := |closingEquityComputed - closingEquityExpected| < 1 / 100 }

structure Dashboard where
  asOfDate : DateTime
  totalAssets : ℚ
  totalLiabilities : ℚ
  totalEquity : ℚ
  netIncomeSinceInception : ℚ
  pendingJournals : ℕ
  activeAccounts : ℕ
  openPeriods : ℕ

/-- The running total of the balances whose account has a category. -/
def dashboardTotal (accounts : OrderedMap Id GLAccount) (balances : OrderedMap Id ℚ)
    (category : GLAccountCategory) : ℚ :=
  balances.entries.foldl
    (fun sum b => if (accounts.get? b.1).map GLAccount.category = some category then sum + b.2
      else sum) 0

/-- `GET /reports/dashboard`. -/
def dashboard (auth : Auth) (today : DateTime) : Handler Dashboard := do
  let lines ← getPostedLinesUpTo auth.institutionId today
  let balances := aggregateBalancesAsOf (lines.map PostedLine.input)
  let accounts := accountsInvolved lines
  let totalAssets := dashboardTotal accounts balances .asset
  let totalLiabilities := dashboardTotal accounts balances .liability
  let totalEquity := dashboardTotal accounts balances .equity
  let totalIncome := dashboardTotal accounts balances .income
  let totalExpenses := dashboardTotal accounts balances .expense
  let pendingJournals ← count .journal fun _ j =>
    j.institutionId = auth.institutionId ∧ j.status = .pendingApproval
  let activeAccounts ← count .gLAccount fun _ a =>
    a.institutionId = auth.institutionId ∧ a.status = .active
  let openPeriods ← count .financialPeriod fun _ p =>
    p.institutionId = auth.institutionId ∧ p.status = .opened
  let _ ← create .auditLog
    { institutionId := auth.institutionId, userId := some auth.userId,
      action := "gl_report.generated", resource := "gl_report", resourceId := none }
  return { asOfDate := today, totalAssets := round2 totalAssets,
           totalLiabilities := round2 totalLiabilities,
           totalEquity := round2 (totalEquity + totalIncome - totalExpenses),
           netIncomeSinceInception := round2 (totalIncome - totalExpenses),
           pendingJournals, activeAccounts, openPeriods }

/-! ## The totals by category -/

/-- The sum of the effects of the lines on accounts of a category. -/
def categoryTotal (category : GLAccountCategory) (lines : List PostedLine) : ℚ :=
  (lines.map fun l => if l.account.category = category then l.input.effect else 0).sum

/-- The lines agree on what their accounts are. -/
def Consistent (lines : List PostedLine) : Prop :=
  ∃ chart : Id → Option GLAccount, ∀ l ∈ lines, chart l.line.accountId = some l.account

theorem Consistent.filter {lines : List PostedLine} (h : Consistent lines)
    (p : PostedLine → Bool) : Consistent (lines.filter p) := by
  obtain ⟨chart, hchart⟩ := h
  exact ⟨chart, fun l hl => hchart l (List.mem_filter.mp hl).1⟩

/-- A posted line comes with its account. -/
theorem account_of_mem_postedLines (s : Db) (institutionId : Id) (onDate : DateTime → Bool) :
    ∀ l ∈ s.postedLines institutionId onDate,
      s.find? .gLAccount l.line.accountId = some l.account := by
  intro l hl
  obtain ⟨j, -, hj⟩ := List.mem_flatMap.mp hl
  split at hj
  · obtain ⟨line, -, hline⟩ := List.mem_filterMap.mp hj
    obtain ⟨a, ha, rfl⟩ := Option.map_eq_some_iff.mp hline
    exact ha
  · cases hj

theorem consistent_postedLines (s : Db) (institutionId : Id) (onDate : DateTime → Bool) :
    Consistent (s.postedLines institutionId onDate) :=
  ⟨s.find? .gLAccount, account_of_mem_postedLines s institutionId onDate⟩

section Totals

variable {lines : List PostedLine}

theorem get?_accountsInvolved {chart : Id → Option GLAccount}
    (hchart : ∀ l ∈ lines, chart l.line.accountId = some l.account) {a : Id} {account : GLAccount}
    (h : (accountsInvolved lines).get? a = some account) : chart a = some account := by
  refine OrderedMap.get?_accumulate_induction (fun a account => chart a = some account) ?_ ?_ h
  · exact fun l hl _ _ => hchart l hl
  · simp

theorem mem_keys_accountsInvolved {a : Id} :
    a ∈ (accountsInvolved lines).keys ↔
      a ∈ (aggregateBalancesAsOf (lines.map PostedLine.input)).keys := by
  rw [mem_keys_aggregateBalancesAsOf, accountsInvolved, OrderedMap.mem_keys_accumulate]
  simp [OrderedMap.keys, OrderedMap.empty, PostedLine.input, JournalLine.input]

/-- A sum over the balances of the accounts of a category, by the chart. -/
theorem total_eq_categoryTotal {chart : Id → Option GLAccount}
    (hchart : ∀ l ∈ lines, chart l.line.accountId = some l.account)
    (category : GLAccountCategory) :
    ((aggregateBalancesAsOf (lines.map PostedLine.input)).total fun a b =>
        if (chart a).map GLAccount.category = some category then b else 0) =
      categoryTotal category lines := by
  rw [total_aggregateBalancesAsOf, List.map_map, categoryTotal]
  congr 1
  refine List.map_congr_left fun l hl => ?_
  have hl' : chart l.input.accountId = some l.account := hchart l hl
  simp only [Function.comp_apply, hl', Option.map_some, Option.some.injEq]

/-- A section of a report adds up to the total of its category. -/
theorem sectionTotal_byCategory (h : Consistent lines) (localeCompare : String → String → ℤ)
    (category : GLAccountCategory) :
    sectionTotal (byCategory localeCompare (accountsInvolved lines)
        (aggregateBalancesAsOf (lines.map PostedLine.input)) category) =
      categoryTotal category lines := by
  obtain ⟨chart, hchart⟩ := h
  have hperm := List.perm_insertionSort
    (fun a b : ReportRow => localeCompare a.code b.code ≤ 0)
    (((accountsInvolved lines).entries.filter fun a => a.2.category = category).map fun a =>
      { code := a.2.code, name := a.2.name, balance :=
          ((aggregateBalancesAsOf (lines.map PostedLine.input)).get? a.1).getD 0 : ReportRow })
  rw [sectionTotal, byCategory, (hperm.map ReportRow.balance).sum_eq, List.map_map,
    OrderedMap.sum_map_filter, ← total_eq_categoryTotal hchart, OrderedMap.total_eq_sum_keys,
    ← OrderedMap.sum_keys_congr _ fun a => mem_keys_accountsInvolved, OrderedMap.keys,
    List.map_map]
  congr 1
  refine List.map_congr_left fun e he => ?_
  have hget := get?_accountsInvolved hchart (OrderedMap.get?_eq_some.mpr he)
  simp only [Function.comp_apply, hget, Option.map_some, Option.some.injEq, decide_eq_true_eq]
  cases (aggregateBalancesAsOf (lines.map PostedLine.input)).get? e.1 <;> simp

/-- The values of an aggregation add up to the effects of all its lines. -/
theorem sumOfBalances_eq (lines : List PostedLine) :
    sumOfBalances lines = (lines.map fun l => l.input.effect).sum := by
  have h := @total_aggregateBalancesAsOf (lines.map PostedLine.input) (fun _ => True) _
  simpa [OrderedMap.total, sumOfBalances, OrderedMap.values, Function.comp_def] using h

theorem sumOfBalances_equity (lines : List PostedLine) :
    sumEquity lines = categoryTotal .equity lines := by
  rw [sumEquity, sumOfBalances_eq, OrderedMap.sum_map_filter, categoryTotal]
  simp only [decide_eq_true_eq]

/-- The map that holds income and expense accounts together adds them up. -/
theorem sumIncomeExpense_eq (lines : List PostedLine) :
    sumIncomeExpense lines = categoryTotal .income lines + categoryTotal .expense lines := by
  rw [sumIncomeExpense, sumOfBalances_eq, OrderedMap.sum_map_filter, categoryTotal, categoryTotal,
    ← List.sum_map_add]
  congr 1
  refine List.map_congr_left fun l _ => ?_
  cases h : l.account.category <;> simp [PostedLine.isIncomeExpense, h]

theorem dashboardTotal_eq (h : Consistent lines) (category : GLAccountCategory) :
    dashboardTotal (accountsInvolved lines)
        (aggregateBalancesAsOf (lines.map PostedLine.input)) category =
      categoryTotal category lines := by
  obtain ⟨chart, hchart⟩ := h
  rw [← total_eq_categoryTotal hchart, dashboardTotal, OrderedMap.foldl_add_ite, zero_add]
  show (aggregateBalancesAsOf (lines.map PostedLine.input)).total (fun a b =>
    if ((accountsInvolved lines).get? a).map GLAccount.category = some category then b else 0) = _
  refine OrderedMap.total_congr fun a b hab => ?_
  have hkey : a ∈ (accountsInvolved lines).keys :=
    mem_keys_accountsInvolved.mpr (OrderedMap.mem_keys.mpr ⟨b, hab⟩)
  obtain ⟨account, haccount⟩ := OrderedMap.mem_keys.mp hkey
  have hget := OrderedMap.get?_eq_some.mpr haccount
  rw [hget, get?_accountsInvolved hchart hget]

/-- The income and expense lines have the totals of all lines in both
categories. -/
theorem categoryTotal_filter_isIncomeExpense {category : GLAccountCategory}
    (hcategory : category = .income ∨ category = .expense) (lines : List PostedLine) :
    categoryTotal category (lines.filter PostedLine.isIncomeExpense) =
      categoryTotal category lines := by
  rw [categoryTotal, OrderedMap.sum_map_filter, categoryTotal]
  congr 1
  refine List.map_congr_left fun l _ => ?_
  by_cases h : l.account.category = category
  · rcases hcategory with rfl | rfl <;> simp [PostedLine.isIncomeExpense, h]
  · simp [h]

theorem wholeCent_categoryTotal (category : GLAccountCategory) (lines : List PostedLine) :
    WholeCent (categoryTotal category lines) := by
  refine wholeCent_sum fun l _ => ?_
  split
  · exact l.input.wholeCent_effect
  · exact WholeCent.zero

/-- The five totals, each with the sign of its side, add up to debits minus
credits. -/
theorem sum_categoryTotal (lines : List PostedLine) :
    categoryTotal .asset lines + categoryTotal .expense lines -
        (categoryTotal .liability lines + categoryTotal .equity lines +
          categoryTotal .income lines) =
      (lines.map fun l => toNumber (l.line.debit - l.line.credit)).sum := by
  induction lines with
  | nil => simp [categoryTotal]
  | cons l lines ih =>
    have heffect := JournalLineInput.effect_eq (l.line.isWholeCent_input l.account.category)
    have hnet : l.input.net = toNumber (l.line.debit - l.line.credit) := (toNumber_sub _ _).symm
    have hinput : l.input.effect = l.account.category.side.sign l.input.net := heffect
    simp only [categoryTotal, List.map_cons, List.sum_cons] at ih ⊢
    rw [← ih, ← hnet, hinput]
    cases l.account.category <;> simp [GLAccountCategory.side, Side.sign] <;> ring

end Totals

end NexusEfos
