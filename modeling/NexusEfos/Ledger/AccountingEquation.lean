/-
The accounting equation and the agreement of the reports.

Over a ledger of balanced journals the five category totals satisfy
assets + expenses = liabilities + equity + income.  The balance sheet folds
income plus expenses into equity where the equation needs income minus expenses,
so its own equation holds exactly when the expense accounts net to nothing up to
the date of the report (`balanceSheet_equation_iff`).  The same sum makes the
statement of changes in equity and the balance sheet disagree with the income
statement and the dashboard, again exactly when expenses have a net movement
(`reports_agree_iff`).
-/
import NexusEfos.Ledger.Reports

namespace NexusEfos

open DoubleEntry

/-! ## Ledgers -/

namespace Db

/-- Every line refers to an account, as the foreign key demands. -/
def LinesHaveAccounts (s : Db) : Prop :=
  ∀ j ∈ (s.table .journal).values, ∀ l ∈ j.lines, (s.find? .gLAccount l.accountId).isSome

/-- In every posted journal debits equal credits. -/
def PostedBalanced (s : Db) : Prop :=
  ∀ j ∈ (s.table .journal).values, j.status = .posted → Balanced (j.lines.map JournalLine.entry)

instance (s : Db) : Decidable s.LinesHaveAccounts :=
  inferInstanceAs (Decidable (∀ j ∈ (s.table .journal).values, ∀ l ∈ j.lines,
    (s.find? .gLAccount l.accountId).isSome))

instance {α : Type} (es : List (Entry α Cents)) : Decidable (Balanced es) :=
  inferInstanceAs (Decidable ((es.map Entry.debit).sum = (es.map Entry.credit).sum))

instance (s : Db) : Decidable s.PostedBalanced :=
  inferInstanceAs (Decidable (∀ j ∈ (s.table .journal).values, j.status = .posted →
    Balanced (j.lines.map JournalLine.entry)))

/-- The net movement, debits minus credits, of the expense accounts over the
posted lines whose date passes a test. -/
def netExpense (s : Db) (institutionId : Id) (onDate : DateTime → Bool) : Cents :=
  ((s.postedLines institutionId onDate).map fun l =>
    if l.account.category = .expense then l.line.debit - l.line.credit else 0).sum

theorem categoryTotal_expense (s : Db) (institutionId : Id) (onDate : DateTime → Bool) :
    categoryTotal .expense (s.postedLines institutionId onDate) =
      toNumber (s.netExpense institutionId onDate) := by
  rw [netExpense, ← sum_toNumber, categoryTotal]
  congr 1
  refine List.map_congr_left fun l _ => ?_
  by_cases h : l.account.category = .expense
  · have heffect := JournalLineInput.effect_eq (l.line.isWholeCent_input l.account.category)
    have hinput : l.input.effect = l.account.category.side.sign l.input.net := heffect
    rw [if_pos h, if_pos h, hinput, h, toNumber_sub]
    rfl
  · rw [if_neg h, if_neg h, toNumber_zero]

/-- The posted lines of a balanced ledger balance as a whole. -/
theorem sum_net_postedLines {s : Db} (hfk : s.LinesHaveAccounts) (hbal : s.PostedBalanced)
    (institutionId : Id) (onDate : DateTime → Bool) :
    ((s.postedLines institutionId onDate).map fun l => l.line.debit - l.line.credit).sum = 0 := by
  rw [postedLines, List.map_flatMap, List.flatMap_def, List.sum_flatten, List.map_map]
  refine List.sum_eq_zero fun x hx => ?_
  obtain ⟨j, hj, rfl⟩ := List.mem_map.mp hx
  rw [Function.comp_apply]
  split
  · next hposted =>
    have hlines : (j.lines.filterMap fun l =>
        (s.find? .gLAccount l.accountId).map fun a => (⟨l, a⟩ : PostedLine)).map
          (fun l => l.line.debit - l.line.credit) = j.lines.map fun l => l.debit - l.credit := by
      have hsome : ∀ l ∈ j.lines, ((s.find? .gLAccount l.accountId).map fun a =>
          (⟨l, a⟩ : PostedLine)).map (fun l => l.line.debit - l.line.credit) =
            some (l.debit - l.credit) := by
        intro l hl
        obtain ⟨a, ha⟩ := Option.isSome_iff_exists.mp (hfk j hj l hl)
        rw [ha]
        rfl
      rw [List.map_filterMap, List.filterMap_congr hsome, List.filterMap_eq_map']
    rw [hlines]
    have hzero := (hbal j hj hposted.2.1).sum_eq_zero
    rwa [List.map_map] at hzero
  · rfl

end Db

/-- Assets plus expenses equal liabilities plus equity plus income. -/
theorem categoryTotal_equation {s : Db} (hfk : s.LinesHaveAccounts) (hbal : s.PostedBalanced)
    (institutionId : Id) (onDate : DateTime → Bool) :
    categoryTotal .asset (s.postedLines institutionId onDate) +
        categoryTotal .expense (s.postedLines institutionId onDate) =
      categoryTotal .liability (s.postedLines institutionId onDate) +
        categoryTotal .equity (s.postedLines institutionId onDate) +
        categoryTotal .income (s.postedLines institutionId onDate) := by
  have h := sum_categoryTotal (s.postedLines institutionId onDate)
  rw [sum_toNumber, Db.sum_net_postedLines hfk hbal, toNumber_zero] at h
  linarith

/-! ## The balance sheet -/

/-- The balance sheet's equation holds exactly when the expenses up to its date
net to nothing. -/
theorem balanceSheet_equation_iff {s : Db} (hfk : s.LinesHaveAccounts) (hbal : s.PostedBalanced)
    (localeCompare : String → String → ℤ) (institutionId : Id) (asOfDate : DateTime) :
    ∃ report, (balanceSheet localeCompare institutionId asOfDate).run s = (.ok report, s) ∧
      (report.totalAssets = report.totalLiabilities + report.totalEquity ↔
        s.netExpense institutionId (fun date => date ≤ asOfDate) = 0) := by
  refine ⟨_, rfl, ?_⟩
  have hcons := consistent_postedLines s institutionId fun date => date ≤ asOfDate
  have heq := categoryTotal_equation hfk hbal institutionId fun date => date ≤ asOfDate
  have hexp := s.categoryTotal_expense institutionId fun date => date ≤ asOfDate
  have hnet := sumIncomeExpense_eq (s.postedLines institutionId fun date => date ≤ asOfDate)
  rw [← toNumber_eq_zero, ← hexp]
  simp only [sectionTotal_byCategory hcons]
  rw [← sumIncomeExpense, hnet]
  constructor
  · intro h
    linarith
  · intro h
    linarith

/-- A ledger with a cash account, a rent account and one month's rent paid. -/
def rentLedger : Db :=
  ((Db.empty.insert .gLAccount
    { institutionId := 1, code := "1000", name := "Cash", category := .asset }).insert .gLAccount
    { institutionId := 1, code := "5000", name := "Rent", category := .expense }).insert .journal
    { institutionId := 1, description := "Rent", status := .posted, postingDate := 0,
      createdById := 1,
      lines := [{ accountId := 2, debit := 10000 }, { accountId := 1, credit := 10000 }] }

theorem balanceSheet_equation_iff_rentLedger :
    rentLedger.LinesHaveAccounts ∧ rentLedger.PostedBalanced ∧
      ∃ report, (balanceSheet (fun _ _ => 0) 1 0).run rentLedger = (.ok report, rentLedger) ∧
        (report.totalAssets = report.totalLiabilities + report.totalEquity ↔
          rentLedger.netExpense 1 (fun date => date ≤ 0) = 0) :=
  ⟨by decide, by decide, balanceSheet_equation_iff (by decide) (by decide) _ 1 0⟩

/-- Paying rent breaks the balance sheet's equation. -/
theorem balanceSheet_equation_fails :
    ¬ ∀ s : Db, s.LinesHaveAccounts → s.PostedBalanced →
      ∀ (localeCompare : String → String → ℤ) (institutionId : Id) (asOfDate : DateTime) report,
        ((balanceSheet localeCompare institutionId asOfDate).run s).1 = .ok report →
          report.totalAssets = report.totalLiabilities + report.totalEquity := by
  intro h
  have hrent := h rentLedger (by decide) (by decide) (fun _ _ => 0) 1 0 _ rfl
  revert hrent
  decide +kernel

/-! ## Agreement of the reports -/

/-- The four reports agree on net income and equity exactly when the expenses of
the period and the expenses up to the date both net to nothing. -/
theorem reports_agree_iff (s : Db) (localeCompare : String → String → ℤ) (auth : Auth)
    (periodStart periodEnd today : DateTime) :
    ∃ changes income sheet board s',
      (changesInEquity auth.institutionId periodStart periodEnd).run s = (.ok changes, s) ∧
      (incomeStatement localeCompare auth.institutionId periodStart periodEnd).run s =
        (.ok income, s) ∧
      (balanceSheet localeCompare auth.institutionId today).run s = (.ok sheet, s) ∧
      (dashboard auth today).run s = (.ok board, s') ∧
      (changes.netIncomeForPeriod = income.netIncome ∧
          sheet.netIncomeSinceInception = board.netIncomeSinceInception ∧
          sheet.totalEquity = board.totalEquity ↔
        s.netExpense auth.institutionId (fun date => periodStart ≤ date && date ≤ periodEnd) = 0 ∧
          s.netExpense auth.institutionId (fun date => date ≤ today) = 0) := by
  refine ⟨_, _, _, _, _, rfl, rfl, rfl, rfl, ?_⟩
  have hperiod := consistent_postedLines s auth.institutionId
    fun date => periodStart ≤ date && date ≤ periodEnd
  have htoday := consistent_postedLines s auth.institutionId fun date => date ≤ today
  have hexpPeriod := s.categoryTotal_expense auth.institutionId
    fun date => periodStart ≤ date && date ≤ periodEnd
  have hexpToday := s.categoryTotal_expense auth.institutionId fun date => date ≤ today
  have hchanges := sumIncomeExpense_eq
    (s.postedLines auth.institutionId fun date => periodStart ≤ date && date ≤ periodEnd)
  have hsheet := sumIncomeExpense_eq (s.postedLines auth.institutionId fun date => date ≤ today)
  rw [← toNumber_eq_zero, ← toNumber_eq_zero, ← hexpPeriod, ← hexpToday]
  simp only [aggregateBalancesForPeriod, sectionTotal_byCategory htoday,
    sectionTotal_byCategory (hperiod.filter PostedLine.isIncomeExpense),
    dashboardTotal_eq htoday, categoryTotal_filter_isIncomeExpense (Or.inl rfl),
    categoryTotal_filter_isIncomeExpense (Or.inr rfl)]
  have hnet := (wholeCent_categoryTotal .income
    (s.postedLines auth.institutionId fun date => date ≤ today)).sub
      (wholeCent_categoryTotal .expense
        (s.postedLines auth.institutionId fun date => date ≤ today))
  have hequity := ((wholeCent_categoryTotal .equity
    (s.postedLines auth.institutionId fun date => date ≤ today)).add
      (wholeCent_categoryTotal .income
        (s.postedLines auth.institutionId fun date => date ≤ today))).sub
          (wholeCent_categoryTotal .expense
            (s.postedLines auth.institutionId fun date => date ≤ today))
  rw [hnet.round2_eq, hequity.round2_eq, hchanges, ← sumIncomeExpense, hsheet]
  constructor
  · rintro ⟨h₁, h₂, -⟩
    exact ⟨by linarith, by linarith⟩
  · rintro ⟨h₁, h₂⟩
    exact ⟨by linarith, by linarith, by linarith⟩

/-- Paying rent makes the reports disagree. -/
theorem reports_agree_fails :
    ¬ ∀ (s : Db) (localeCompare : String → String → ℤ) (auth : Auth)
        (periodStart periodEnd today : DateTime) changes income sheet board,
      ((changesInEquity auth.institutionId periodStart periodEnd).run s).1 = .ok changes →
      ((incomeStatement localeCompare auth.institutionId periodStart periodEnd).run s).1 =
        .ok income →
      ((balanceSheet localeCompare auth.institutionId today).run s).1 = .ok sheet →
      ((dashboard auth today).run s).1 = .ok board →
      changes.netIncomeForPeriod = income.netIncome ∧
        sheet.netIncomeSinceInception = board.netIncomeSinceInception ∧
        sheet.totalEquity = board.totalEquity := by
  intro h
  have hrent := (h rentLedger (fun _ _ => 0) ⟨1, 1⟩ 0 0 0 _ _ _ _ rfl rfl rfl rfl).1
  revert hrent
  decide +kernel

end NexusEfos
