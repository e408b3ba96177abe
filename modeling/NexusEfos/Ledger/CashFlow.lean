/-
The cash flow statement: `lib/cashFlowStatement.ts`, and its report of
`generalLedger.routes.ts`.

By the indirect method the change in cash is read off the other accounts: what is debited to
cash is credited to them.  Counted as debits less credits, the changes of all accounts add up
to zero over a balanced ledger, so the cash accounts move against the others together.  The
report leaves out the accounts that are not active, and is off by what these moved.
-/
import NexusEfos.Ledger.TrialBalance

namespace NexusEfos

open DoubleEntry

/-! ## The statement -/

structure CashFlowAccountMovement where
  accountId : Id
  category : GLAccountCategory
  activity : Option CashFlowActivity
  isLiquidAsset : Bool
  openingBalance : ℚ
  closingBalance : ℚ

def cashEffect (category : GLAccountCategory) (change : ℚ) : ℚ :=
  let isDebitNormal := category = .asset ∨ category = .expense
  if isDebitNormal then -change else change

/-- The sums of the three activities. -/
structure CashFlows where
  operating : ℚ := 0
  investing : ℚ := 0
  financing : ℚ := 0

/-- An account without a tag counts as operating. -/
def CashFlows.add (flows : CashFlows) (m : CashFlowAccountMovement) : CashFlows :=
  let change := round2 (m.closingBalance - m.openingBalance)
  let effect := cashEffect m.category change
  match m.activity with
  | some .investing => { flows with investing := flows.investing + effect }
  | some .financing => { flows with financing := flows.financing + effect }
  | some .operating | none => { flows with operating := flows.operating + effect }

structure CashFlowStatement where
  operating : ℚ
  investing : ℚ
  financing : ℚ
  netChange : ℚ
  cashOpening : ℚ
  cashClosing : ℚ
  reconciles : Bool

def buildCashFlowStatement (movements : List CashFlowAccountMovement) : CashFlowStatement :=
  let nonCash := movements.filter fun m => !m.isLiquidAsset
  let flows := nonCash.foldl CashFlows.add {}
  let cashAccounts := movements.filter fun m => m.isLiquidAsset
  let cashOpening := round2 (cashAccounts.map CashFlowAccountMovement.openingBalance).sum
  let cashClosing := round2 (cashAccounts.map CashFlowAccountMovement.closingBalance).sum
  let netChange := round2 (flows.operating + flows.investing + flows.financing)
  { operating := round2 flows.operating, investing := round2 flows.investing,
    financing := round2 flows.financing, netChange, cashOpening, cashClosing,
    reconciles := |round2 (cashClosing - cashOpening) - netChange| < 2 / 100 }

/-- The accounts that the report looks at. -/
def GLAccount.inCashFlow (institutionId : Id) (a : GLAccount) : Bool :=
  a.institutionId = institutionId ∧ a.status = .active

/-- What an account contributes to the report. -/
def cashFlowMovement (openingBalances closingBalances : OrderedMap Id ℚ) (a : Id × GLAccount) :
    CashFlowAccountMovement :=
  { accountId := a.1, category := a.2.category, activity := a.2.cashFlowActivity,
    isLiquidAsset := a.2.isLiquidAsset,
    openingBalance := (openingBalances.get? a.1).getD 0,
    closingBalance := (closingBalances.get? a.1).getD 0 }

/-- `GET /reports/cash-flow`.  The opening is taken one millisecond before the period. -/
def cashFlow (auth : Auth) (periodStart periodEnd : DateTime) : Handler CashFlowStatement := do
  let accounts ← findMany .gLAccount fun _ a => a.inCashFlow auth.institutionId
  let linesBeforeStart ← getPostedLinesUpTo auth.institutionId (periodStart - 1)
  let linesUpToEnd ← getPostedLinesUpTo auth.institutionId periodEnd
  let openingBalances := aggregateBalancesAsOf (linesBeforeStart.map PostedLine.input)
  let closingBalances := aggregateBalancesAsOf (linesUpToEnd.map PostedLine.input)
  let movements := accounts.map (cashFlowMovement openingBalances closingBalances)
  let statement := buildCashFlowStatement movements
  let _ ← create .auditLog
    { institutionId := auth.institutionId, userId := some auth.userId,
      action := "gl_report.generated", resource := "gl_report", resourceId := none }
  return statement

/-! ## The sums -/

/-- The effect of an account on the cash. -/
def CashFlowAccountMovement.effect (m : CashFlowAccountMovement) : ℚ :=
  cashEffect m.category (round2 (m.closingBalance - m.openingBalance))

theorem CashFlows.sum_add (flows : CashFlows) (m : CashFlowAccountMovement) :
    (flows.add m).operating + (flows.add m).investing + (flows.add m).financing =
      flows.operating + flows.investing + flows.financing + m.effect := by
  unfold CashFlows.add CashFlowAccountMovement.effect
  rcases m.activity with _ | activity
  · ring
  · cases activity with
    | operating => ring
    | investing => ring
    | financing => ring

theorem CashFlows.sum_foldl (flows : CashFlows) (ms : List CashFlowAccountMovement) :
    (ms.foldl CashFlows.add flows).operating + (ms.foldl CashFlows.add flows).investing +
        (ms.foldl CashFlows.add flows).financing =
      flows.operating + flows.investing + flows.financing +
        (ms.map CashFlowAccountMovement.effect).sum := by
  induction ms generalizing flows with
  | nil => simp
  | cons m ms ih =>
    rw [List.foldl_cons, ih, CashFlows.sum_add, List.map_cons, List.sum_cons]
    ring

/-- Whole cents in each of the three sums. -/
def CashFlows.IsWholeCent (flows : CashFlows) : Prop :=
  WholeCent flows.operating ∧ WholeCent flows.investing ∧ WholeCent flows.financing

theorem cashEffect_eq (category : GLAccountCategory) (change : ℚ) :
    cashEffect category change = -category.side.sign change := by
  cases category <;> simp [cashEffect, GLAccountCategory.side, Side.sign]

theorem CashFlowAccountMovement.wholeCent_effect (m : CashFlowAccountMovement) :
    WholeCent m.effect := by
  rw [CashFlowAccountMovement.effect, cashEffect_eq]
  cases m.category.side with
  | debit => exact (wholeCent_round2 _).neg
  | credit => exact (wholeCent_round2 _).neg.neg

theorem CashFlows.isWholeCent_foldl {flows : CashFlows} (h : flows.IsWholeCent)
    (ms : List CashFlowAccountMovement) : (ms.foldl CashFlows.add flows).IsWholeCent := by
  induction ms generalizing flows with
  | nil => exact h
  | cons m ms ih =>
    rw [List.foldl_cons]
    apply ih
    have hm := m.wholeCent_effect
    unfold CashFlows.add
    rcases hactivity : m.activity with _ | activity
    · exact ⟨h.1.add hm, h.2.1, h.2.2⟩
    · cases activity with
      | operating => exact ⟨h.1.add hm, h.2.1, h.2.2⟩
      | investing => exact ⟨h.1, h.2.1.add hm, h.2.2⟩
      | financing => exact ⟨h.1, h.2.1, h.2.2.add hm⟩

/-- On whole cents the statement reconciles when the changes of the cash accounts and the
effects of the others agree. -/
theorem buildCashFlowStatement_reconciles_iff {ms : List CashFlowAccountMovement}
    (hwhole : ∀ m ∈ ms, WholeCent m.openingBalance ∧ WholeCent m.closingBalance) :
    (buildCashFlowStatement ms).cashClosing - (buildCashFlowStatement ms).cashOpening =
        (buildCashFlowStatement ms).operating + (buildCashFlowStatement ms).investing +
          (buildCashFlowStatement ms).financing ↔
      (ms.map fun m => if m.isLiquidAsset then m.closingBalance - m.openingBalance
        else -m.effect).sum = 0 := by
  have hzero : CashFlows.IsWholeCent {} := ⟨.zero, .zero, .zero⟩
  have hflows := CashFlows.isWholeCent_foldl hzero (ms.filter fun m => !m.isLiquidAsset)
  have hsum := CashFlows.sum_foldl {} (ms.filter fun m => !m.isLiquidAsset)
  have hcash : ∀ m ∈ ms.filter fun m => m.isLiquidAsset,
      WholeCent m.openingBalance ∧ WholeCent m.closingBalance :=
    fun m hm => hwhole m (List.mem_filter.mp hm).1
  have hopening := wholeCent_sum fun m hm => (hcash m hm).1
  have hclosing := wholeCent_sum fun m hm => (hcash m hm).2
  have hsplit : (ms.map fun m => if m.isLiquidAsset then m.closingBalance - m.openingBalance
        else -m.effect).sum =
      ((ms.filter fun m => m.isLiquidAsset).map CashFlowAccountMovement.closingBalance).sum -
        ((ms.filter fun m => m.isLiquidAsset).map CashFlowAccountMovement.openingBalance).sum -
        ((ms.filter fun m => !m.isLiquidAsset).map CashFlowAccountMovement.effect).sum := by
    clear hflows hsum hcash hopening hclosing hwhole
    induction ms with
    | nil => simp
    | cons m ms ih =>
      rw [List.map_cons, List.sum_cons, ih]
      by_cases h : m.isLiquidAsset
      · simp [h]
        ring
      · simp [h]
        ring
  rw [hsplit]
  simp only [buildCashFlowStatement, hopening.round2_eq, hclosing.round2_eq,
    hflows.1.round2_eq, hflows.2.1.round2_eq, hflows.2.2.round2_eq, hsum]
  constructor
  · intro h
    linarith
  · intro h
    linarith

/-! ## Reconciliation -/

/-- The accounts that are tagged as liquid are assets. -/
def Db.LiquidAreAssets (s : Db) : Prop :=
  ∀ a ∈ (s.table .gLAccount).values, a.isLiquidAsset → a.category = .asset

instance (s : Db) : Decidable s.LiquidAreAssets :=
  inferInstanceAs (Decidable (∀ a ∈ (s.table .gLAccount).values, a.isLiquidAsset →
    a.category = .asset))

/-- Debits less credits of the accounts that the report leaves out. -/
def Db.netLeftOut (s : Db) (institutionId : Id) (onDate : DateTime → Bool) : Cents :=
  (((s.postedLines institutionId onDate).filter fun l =>
    !l.account.inCashFlow institutionId).map PostedLine.net).sum

section Ledger

variable {s : Db}

/-- What an account moves, as the cash accounts count it. -/
theorem movement_of_account (hliquid : s.LiquidAreAssets) {institutionId : Id} {before after : DateTime → Bool} {a : Id × GLAccount}
    (ha : s.find? .gLAccount a.1 = some a.2) {m : CashFlowAccountMovement}
    (hm : m = cashFlowMovement
      (aggregateBalancesAsOf ((s.postedLines institutionId before).map PostedLine.input))
      (aggregateBalancesAsOf ((s.postedLines institutionId after).map PostedLine.input)) a) :
    (if m.isLiquidAsset then m.closingBalance - m.openingBalance else -m.effect) =
      toNumber (netDebit (s.postedLines institutionId after) a.1) -
        toNumber (netDebit (s.postedLines institutionId before) a.1) := by
  have hbefore := sign_balance (account_of_mem_postedLines s institutionId before) ha
  have hafter := sign_balance (account_of_mem_postedLines s institutionId after) ha
  have hopening : a.2.category.side.sign m.openingBalance =
      toNumber (netDebit (s.postedLines institutionId before) a.1) := by rw [hm]; exact hbefore
  have hclosing : a.2.category.side.sign m.closingBalance =
      toNumber (netDebit (s.postedLines institutionId after) a.1) := by rw [hm]; exact hafter
  have hcategory : m.category = a.2.category := by rw [hm]; rfl
  have hflag : m.isLiquidAsset = a.2.isLiquidAsset := by rw [hm]; rfl
  rw [← hopening, ← hclosing]
  by_cases h : m.isLiquidAsset = true
  · have hasset := hliquid a.2 (OrderedMap.mem_values.mpr ⟨a.1, ha⟩) (hflag ▸ h)
    rw [if_pos h, hasset]
    rfl
  · have hwhole : WholeCent (m.closingBalance - m.openingBalance) := by
      rw [← sign_sign a.2.category.side m.closingBalance,
        ← sign_sign a.2.category.side m.openingBalance, hopening, hclosing]
      cases a.2.category.side with
      | debit => exact (wholeCent_toNumber _).sub (wholeCent_toNumber _)
      | credit => exact (wholeCent_toNumber _).neg.sub (wholeCent_toNumber _).neg
    rw [if_neg h, CashFlowAccountMovement.effect, hwhole.round2_eq, cashEffect_eq, neg_neg, hcategory,
      sub_eq_add_neg, Side.sign_add, sub_eq_add_neg]
    cases a.2.category.side with
    | debit => rfl
    | credit => rfl

/-- The accounts of the report carry what those it leaves out do not. -/
theorem sum_netDebit_inCashFlow (hfk : s.LinesHaveAccounts) (hbal : s.PostedBalanced)
    (institutionId : Id) (onDate : DateTime → Bool) :
    (((s.table .gLAccount).entries.filter fun a => a.2.inCashFlow institutionId).map fun a =>
        netDebit (s.postedLines institutionId onDate) a.1).sum =
      -s.netLeftOut institutionId onDate := by
  have hzero : ((s.postedLines institutionId onDate).map PostedLine.net).sum = 0 :=
    Db.sum_net_postedLines hfk hbal institutionId onDate
  have hchart : ∀ l ∈ s.postedLines institutionId onDate,
      (s.table .gLAccount).get? l.line.accountId = some l.account :=
    account_of_mem_postedLines s institutionId onDate
  have hseen := total_netDebit hchart (GLAccount.inCashFlow institutionId)
  have hsplit : ((s.postedLines institutionId onDate).map fun l =>
        if l.account.inCashFlow institutionId then l.net else 0).sum +
      s.netLeftOut institutionId onDate = 0 := by
    refine Eq.trans ?_ hzero
    rw [Db.netLeftOut, OrderedMap.sum_map_filter, ← List.sum_map_add]
    congr 1
    apply List.map_congr_left
    intro l _
    cases l.account.inCashFlow institutionId <;> simp
  rw [OrderedMap.sum_map_filter]
  show (s.table .gLAccount).total (fun a account =>
    if account.inCashFlow institutionId then netDebit (s.postedLines institutionId onDate) a
      else 0) = _
  rw [hseen]
  linarith


/-- A balance read off an aggregation is whole cents. -/
theorem wholeCent_getD_aggregateBalancesAsOf (lines : List JournalLineInput) (a : Id) :
    WholeCent (((aggregateBalancesAsOf lines).get? a).getD 0) := by
  cases h : (aggregateBalancesAsOf lines).get? a with
  | none => exact WholeCent.zero
  | some b => exact wholeCent_of_get?_aggregateBalancesAsOf h

end Ledger

/-- The cash flow statement reconciles exactly when the accounts that it leaves out carry the
same balance, as debits less credits, at the two ends of the period. -/
theorem cashFlow_reconciles_iff {s : Db} (hfk : s.LinesHaveAccounts) (hbal : s.PostedBalanced)
    (hliquid : s.LiquidAreAssets) (auth : Auth) (periodStart periodEnd : DateTime) :
    ∃ report s', (cashFlow auth periodStart periodEnd).run s = (.ok report, s') ∧
      (report.cashClosing - report.cashOpening =
          report.operating + report.investing + report.financing ↔
        s.netLeftOut auth.institutionId (fun date => date ≤ periodEnd) =
          s.netLeftOut auth.institutionId fun date => date ≤ periodStart - 1) := by
  refine ⟨_, _, rfl, ?_⟩
  have hstart := sum_netDebit_inCashFlow hfk hbal auth.institutionId fun date =>
    date ≤ periodStart - 1
  have hend := sum_netDebit_inCashFlow hfk hbal auth.institutionId fun date => date ≤ periodEnd
  rw [buildCashFlowStatement_reconciles_iff]
  · have hsum : ((((s.table .gLAccount).entries.filter fun a =>
          a.2.inCashFlow auth.institutionId).map (cashFlowMovement
            (aggregateBalancesAsOf ((s.postedLines auth.institutionId fun date =>
              date ≤ periodStart - 1).map PostedLine.input))
            (aggregateBalancesAsOf ((s.postedLines auth.institutionId fun date =>
              date ≤ periodEnd).map PostedLine.input)))).map fun m =>
          if m.isLiquidAsset then m.closingBalance - m.openingBalance else -m.effect).sum =
        toNumber (-s.netLeftOut auth.institutionId (fun date => date ≤ periodEnd)) -
          toNumber (-s.netLeftOut auth.institutionId fun date => date ≤ periodStart - 1) := by
      rw [← hend, ← hstart, ← sum_toNumber, ← sum_toNumber, eq_sub_iff_add_eq, List.map_map,
        ← List.sum_map_add]
      congr 1
      apply List.map_congr_left
      intro a ha
      have haccount := OrderedMap.get?_eq_some.mpr (List.mem_filter.mp ha).1
      rw [Function.comp_apply, movement_of_account hliquid haccount rfl, sub_add_cancel]
    show (List.map _ (List.map (cashFlowMovement _ _) _)).sum = 0 ↔ _
    rw [hsum, ← toNumber_sub, toNumber_eq_zero]
    constructor
    · intro h
      linarith
    · intro h
      linarith
  · intro m hm
    obtain ⟨a, -, rfl⟩ := List.mem_map.mp hm
    exact ⟨wholeCent_getD_aggregateBalancesAsOf _ _, wholeCent_getD_aggregateBalancesAsOf _ _⟩

/-- A ledger with cash, sales and a closed suspense account through which a sale went. -/
def suspenseLedger : Db :=
  (((Db.empty.insert .gLAccount
    { institutionId := 1, code := "1000", name := "Cash", category := .asset,
      isLiquidAsset := true }).insert .gLAccount
    { institutionId := 1, code := "4000", name := "Sales", category := .income }).insert .gLAccount
    { institutionId := 1, code := "2900", name := "Suspense", category := .liability,
      status := .inactive }).insert .journal
    { institutionId := 1, description := "Sale", status := .posted, postingDate := 0,
      createdById := 1,
      lines := [{ accountId := 1, debit := 10000 }, { accountId := 3, credit := 10000 }] }

theorem cashFlow_reconciles_iff_suspenseLedger :
    suspenseLedger.LinesHaveAccounts ∧ suspenseLedger.PostedBalanced ∧
      suspenseLedger.LiquidAreAssets ∧
      ∃ report s', (cashFlow ⟨1, 1⟩ 0 0).run suspenseLedger = (.ok report, s') ∧
        (report.cashClosing - report.cashOpening =
            report.operating + report.investing + report.financing ↔
          suspenseLedger.netLeftOut 1 (fun date => date ≤ 0) =
            suspenseLedger.netLeftOut 1 fun date => date ≤ 0 - 1) :=
  ⟨by decide, by decide, by decide,
    cashFlow_reconciles_iff (by decide) (by decide) (by decide) ⟨1, 1⟩ 0 0⟩

/-- The cash flow statement of a ledger whose suspense account is closed does not
reconcile. -/
theorem cashFlow_reconciles_fails :
    ¬ ∀ s : Db, s.LinesHaveAccounts → s.PostedBalanced → s.LiquidAreAssets →
      ∀ (auth : Auth) (periodStart periodEnd : DateTime) report,
        ((cashFlow auth periodStart periodEnd).run s).1 = .ok report →
          report.cashClosing - report.cashOpening =
            report.operating + report.investing + report.financing := by
  intro h
  have hsuspense := h suspenseLedger (by decide) (by decide) (by decide) ⟨1, 1⟩ 0 0 _ rfl
  revert hsuspense
  decide +kernel

end NexusEfos
