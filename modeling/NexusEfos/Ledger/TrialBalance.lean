/-
The trial balance of `generalLedger.routes.ts`.

The report takes the balance of each account from `aggregateBalancesAsOf`, where it stands
with the sign of the account's own side, and puts it on the debit or the credit side.  Debit
minus credit of a row is then the balance with its sign taken off again, which is what the
lines debit the account less what they credit it (`sign_balance`).  A sum of these over any
set of accounts is a sum over the lines on these accounts (`total_netDebit`).
-/
import NexusEfos.Ledger.AccountingEquation

namespace NexusEfos

open DoubleEntry

/-! ## The report -/

structure TrialBalanceRow where
  code : String
  name : String
  category : GLAccountCategory
  debit : ℚ
  credit : ℚ

/-- The row of an account.  An abnormal balance sits on the other side. -/
def trialBalanceRow (balances : OrderedMap Id ℚ) (a : Id × GLAccount) : TrialBalanceRow :=
  let bal := (balances.get? a.1).getD 0
  let isDebitNormal := a.2.category = .asset ∨ a.2.category = .expense
  let sides :=
    if isDebitNormal then
      if 0 ≤ bal then (bal, 0) else (0, -bal)
    else
      if 0 ≤ bal then (0, bal) else (-bal, 0)
  { code := a.2.code, name := a.2.name, category := a.2.category,
    debit := sides.1, credit := sides.2 }

structure TrialBalance where
  asOfDate : DateTime
  rows : List TrialBalanceRow
  totalDebit : ℚ
  totalCredit : ℚ
  balanced : Bool

/-- `GET /reports/trial-balance`. -/
def trialBalance (localeCompare : String → String → ℤ) (institutionId : Id)
    (asOfDate : DateTime) : Handler TrialBalance := do
  let lines ← getPostedLinesUpTo institutionId asOfDate
  let balances := aggregateBalancesAsOf (lines.map PostedLine.input)
  let rows := ((accountsInvolved lines).entries.map (trialBalanceRow balances)).insertionSort
    fun a b => localeCompare a.code b.code ≤ 0
  let totalDebit := (rows.map TrialBalanceRow.debit).sum
  let totalCredit := (rows.map TrialBalanceRow.credit).sum
  return { asOfDate, rows, totalDebit, totalCredit,
           balanced := |totalDebit - totalCredit| < 1 / 100 }

/-! ## Debits less credits of an account -/

def PostedLine.net (l : PostedLine) : Cents := l.line.debit - l.line.credit

/-- What the lines debit an account, less what they credit it. -/
def netDebit (lines : List PostedLine) (a : Id) : Cents :=
  ((lines.filter fun l => l.line.accountId = a).map PostedLine.net).sum

theorem netDebit_eq (lines : List PostedLine) (a : Id) :
    netDebit lines a = (lines.map fun l => if l.line.accountId = a then l.net else 0).sum := by
  rw [netDebit, OrderedMap.sum_map_filter]
  simp only [decide_eq_true_eq]

theorem netDebit_cons (l : PostedLine) (lines : List PostedLine) (a : Id) :
    netDebit (l :: lines) a = (if l.line.accountId = a then l.net else 0) + netDebit lines a := by
  rw [netDebit_eq, netDebit_eq, List.map_cons, List.sum_cons]

/-- The sum of a list of signed amounts. -/
theorem sign_sum {α : Type} (side : Side) (f : α → ℚ) (xs : List α) :
    side.sign (xs.map f).sum = (xs.map fun x => side.sign (f x)).sum := by
  induction xs with
  | nil => exact Side.sign_zero side
  | cons x xs ih => simp only [List.map_cons, List.sum_cons, Side.sign_add, ih]

theorem sign_sign (side : Side) (x : ℚ) : side.sign (side.sign x) = x := by
  cases side with
  | debit => rfl
  | credit => exact neg_neg x

section Lines

variable {lines : List PostedLine}

/-- Without the sign of its side, an aggregated balance is debits less credits. -/
theorem sign_balance {chart : Id → Option GLAccount}
    (hchart : ∀ l ∈ lines, chart l.line.accountId = some l.account) {a : Id}
    {account : GLAccount} (ha : chart a = some account) :
    account.category.side.sign
        (((aggregateBalancesAsOf (lines.map PostedLine.input)).get? a).getD 0) =
      toNumber (netDebit lines a) := by
  rw [getD_aggregateBalancesAsOf, List.map_map, sign_sum, netDebit_eq, ← sum_toNumber]
  congr 1
  apply List.map_congr_left
  intro l hl
  simp only [Function.comp_apply]
  have hid : l.input.accountId = l.line.accountId := rfl
  by_cases h : l.line.accountId = a
  · have haccount : l.account = account := by
      have hl' := hchart l hl
      rw [h, ha] at hl'
      exact (Option.some.inj hl').symm
    have heffect := JournalLineInput.effect_eq (l.line.isWholeCent_input l.account.category)
    have hinput : l.input.effect = l.account.category.side.sign l.input.net := heffect
    have hnet : l.input.net = toNumber l.net := (toNumber_sub _ _).symm
    rw [hid, if_pos h, if_pos h, hinput, haccount, sign_sign, hnet]
  · rw [hid, if_neg h, if_neg h, Side.sign_zero, toNumber_zero]

/-- Over the accounts of a chart that pass a test, debits less credits add up to those of the
lines whose account passes it. -/
theorem total_netDebit {accounts : OrderedMap Id GLAccount}
    (haccounts : ∀ l ∈ lines, accounts.get? l.line.accountId = some l.account)
    (p : GLAccount → Bool) :
    (accounts.total fun a account => if p account then netDebit lines a else 0) =
      (lines.map fun l => if p l.account then l.net else 0).sum := by
  induction lines with
  | nil => exact OrderedMap.total_eq_zero fun _ _ _ => ite_self _
  | cons l lines ih =>
    have hrest := ih fun l' hl' => haccounts l' (List.mem_cons_of_mem l hl')
    have hhead : (accounts.total fun a account =>
        if a = l.line.accountId then (if p account then l.net else 0) else 0) =
          if p l.account then l.net else 0 := by
      rw [OrderedMap.total_single fun account => if p account then l.net else 0,
        haccounts l (List.mem_cons_self ..), Option.elim_some]
    rw [List.map_cons, List.sum_cons, ← hrest, ← hhead, ← OrderedMap.total_add]
    apply OrderedMap.total_congr
    intro a account _
    rw [netDebit_cons]
    by_cases hp : p account <;> simp [hp, eq_comm]

theorem get?_accountsInvolved_of_mem (h : Consistent lines) :
    ∀ l ∈ lines, (accountsInvolved lines).get? l.line.accountId = some l.account := by
  obtain ⟨chart, hchart⟩ := h
  intro l hl
  have hkey : l.line.accountId ∈ (accountsInvolved lines).keys := by
    rw [accountsInvolved, OrderedMap.mem_keys_accumulate]
    exact Or.inr ⟨l, hl, rfl⟩
  obtain ⟨account, haccount⟩ := OrderedMap.mem_keys.mp hkey
  have hget := OrderedMap.get?_eq_some.mpr haccount
  have hsame := get?_accountsInvolved hchart hget
  rw [hchart l hl] at hsame
  rw [hget, hsame]

end Lines

/-! ## The two sides -/

section Rows

variable (balances : OrderedMap Id ℚ) (a : Id × GLAccount)

theorem trialBalanceRow_nonneg :
    0 ≤ (trialBalanceRow balances a).debit ∧ 0 ≤ (trialBalanceRow balances a).credit := by
  unfold trialBalanceRow
  dsimp only
  split <;> split <;> constructor <;> simp only [le_refl] <;> linarith

theorem trialBalanceRow_one_side :
    (trialBalanceRow balances a).debit = 0 ∨ (trialBalanceRow balances a).credit = 0 := by
  unfold trialBalanceRow
  dsimp only
  split <;> split <;> simp

theorem trialBalanceRow_net :
    (trialBalanceRow balances a).debit - (trialBalanceRow balances a).credit =
      a.2.category.side.sign ((balances.get? a.1).getD 0) := by
  unfold trialBalanceRow
  dsimp only
  have hside : a.2.category.side = .debit ↔ a.2.category = .asset ∨ a.2.category = .expense := by
    cases a.2.category <;> simp [GLAccountCategory.side]
  by_cases hdebit : a.2.category = .asset ∨ a.2.category = .expense
  · rw [if_pos hdebit, hside.mpr hdebit]
    by_cases hbal : 0 ≤ (balances.get? a.1).getD 0 <;> simp [hbal, Side.sign]
  · have hcredit : a.2.category.side = .credit := by
      cases h : a.2.category.side with
      | debit => exact absurd (hside.mp h) hdebit
      | credit => rfl
    rw [if_neg hdebit, hcredit]
    by_cases hbal : 0 ≤ (balances.get? a.1).getD 0 <;> simp [hbal, Side.sign]

end Rows

/-- The row shows an account whose lines debit it by `net` more than they credit it. -/
structure TrialBalanceRow.Shows (r : TrialBalanceRow) (account : GLAccount) (net : Cents) : Prop where
  code : r.code = account.code
  name : r.name = account.name
  category : r.category = account.category
  debit_nonneg : 0 ≤ r.debit
  credit_nonneg : 0 ≤ r.credit
  one_side : r.debit = 0 ∨ r.credit = 0
  net_eq : r.debit - r.credit = toNumber net

/-- The two columns differ by the debits less credits of the lines. -/
theorem sum_debit_rows {lines : List PostedLine} {chart : Id → Option GLAccount}
    (hchart : ∀ l ∈ lines, chart l.line.accountId = some l.account)
    {accounts : List (Id × GLAccount)} (hperm : accounts.Perm (accountsInvolved lines).entries) :
    (accounts.map fun a =>
        (trialBalanceRow (aggregateBalancesAsOf (lines.map PostedLine.input)) a).debit).sum =
      (accounts.map fun a =>
          (trialBalanceRow (aggregateBalancesAsOf (lines.map PostedLine.input)) a).credit).sum +
        toNumber (lines.map PostedLine.net).sum := by
  have hlines := total_netDebit (get?_accountsInvolved_of_mem ⟨chart, hchart⟩) fun _ => true
  simp only [if_true] at hlines
  have hnet : (accounts.map fun a => toNumber (netDebit lines a.1)).sum =
      toNumber (lines.map PostedLine.net).sum := by
    rw [sum_toNumber, (hperm.map fun a => netDebit lines a.1).sum_eq, ← hlines]
    rfl
  rw [← hnet, ← List.sum_map_add]
  congr 1
  apply List.map_congr_left
  intro a ha
  have hget := OrderedMap.get?_eq_some.mpr (hperm.mem_iff.mp ha)
  have hrow := trialBalanceRow_net (aggregateBalancesAsOf (lines.map PostedLine.input)) a
  rw [sign_balance hchart (get?_accountsInvolved hchart hget)] at hrow
  linarith

/-- The accounts in the order of their codes. -/
def sortedByCode (localeCompare : String → String → ℤ) (accounts : OrderedMap Id GLAccount) :
    OrderedMap Id GLAccount where
  entries := accounts.entries.insertionSort fun a b => localeCompare a.2.code b.2.code ≤ 0
  nodup_keys := by
    have hperm := List.perm_insertionSort
      (fun a b : Id × GLAccount => localeCompare a.2.code b.2.code ≤ 0) accounts.entries
    exact (hperm.map Prod.fst).nodup_iff.mpr accounts.nodup_keys

theorem perm_sortedByCode (localeCompare : String → String → ℤ)
    (accounts : OrderedMap Id GLAccount) :
    (sortedByCode localeCompare accounts).entries.Perm accounts.entries :=
  List.perm_insertionSort _ _

theorem get?_sortedByCode (localeCompare : String → String → ℤ)
    (accounts : OrderedMap Id GLAccount) (a : Id) :
    (sortedByCode localeCompare accounts).get? a = accounts.get? a := by
  apply Option.ext
  intro account
  rw [OrderedMap.get?_eq_some, OrderedMap.get?_eq_some,
    (perm_sortedByCode localeCompare accounts).mem_iff]

/-- The rows are sorted by their codes, which are the codes of the accounts. -/
theorem insertionSort_rows (localeCompare : String → String → ℤ) (balances : OrderedMap Id ℚ)
    (accounts : OrderedMap Id GLAccount) :
    ((accounts.entries.map (trialBalanceRow balances)).insertionSort
        fun a b => localeCompare a.code b.code ≤ 0) =
      (sortedByCode localeCompare accounts).entries.map (trialBalanceRow balances) := by
  symm
  apply List.map_insertionSort
  intro a _ b _
  exact Iff.rfl

end NexusEfos
