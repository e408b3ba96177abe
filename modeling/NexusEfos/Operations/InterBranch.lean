/-
The settlement accounts of the branches.

An approved transfer between two branches debits the settlement account of the one and credits
that of the other, which all are liabilities, so the two movements cancel out.  But the other
two accounts of its journal are the requester's choice, and may be settlement accounts as well,
and a branch may belong to another institution.  What the settlement accounts of an institution
add up to is kept exactly if they stand as often on the debit side of the journal as on its
credit side (`settlement_accounts_net_to_zero`).
-/
import NexusEfos.Approvals.LedgerEffects
import NexusEfos.Operations.InactiveAccounts

namespace NexusEfos

open Proc

/-! ## The report -/

namespace Db

/-- The settlement accounts of an institution. -/
def settlementAccounts (s : Db) (institutionId : Id) : List Id :=
  ((s.table .branchSettlementAccount).values.filter fun a => a.institutionId = institutionId).map
    BranchSettlementAccount.glAccountId

/-- What the settlement accounts of an institution add up to. -/
def settlementTotal (s : Db) (institutionId : Id) : Cents :=
  ((s.settlementAccounts institutionId).map s.glBalance).sum

end Db

/-- A row of the report on outstanding balances. -/
structure OutstandingBalance where
  branchId : Id
  accountCode : String
  balance : ℚ
  position : String

/-- Which way a branch stands with the others. -/
def settlementPosition (category : GLAccountCategory) (balance : ℚ) : String :=
  let isDebitNormal := category = .asset ∨ category = .expense
  if isDebitNormal then (if 0 ≤ balance then "Due From others" else "Due To others")
  else (if 0 ≤ balance then "Due To others" else "Due From others")

structure OutstandingBalances where
  rows : List OutstandingBalance
  netTotal : ℚ
  reconciles : Bool

/-- `GET /reports/outstanding-balances`. -/
def outstandingBalances (auth : Auth) : Handler OutstandingBalances := do
  let accounts ← query fun s =>
    ((s.table .branchSettlementAccount).values.filter fun a =>
      a.institutionId = auth.institutionId).mapM fun a =>
        (s.find? .gLAccount a.glAccountId).map fun g => (a, g)
  let accounts ← Proc.orFail accounts recordNotFound
  let rows := accounts.map fun (a, g) =>
    { branchId := a.branchId, accountCode := g.code, balance := toNumber g.balance,
      position := settlementPosition g.category (toNumber g.balance) : OutstandingBalance }
  let netTotal := round2 (rows.map OutstandingBalance.balance).sum
  let _ ← create .auditLog
    { institutionId := auth.institutionId, userId := some auth.userId,
      action := "gl_report.generated", resource := "gl_report" }
  return { rows, netTotal, reconciles := decide (|netTotal| < 1 / 100) }

/-- A settlement account with its row, as the report reads them. -/
theorem sum_balances {s : Db} {rows : List BranchSettlementAccount}
    {found : List (BranchSettlementAccount × GLAccount)}
    (h : (rows.mapM fun a => (s.find? .gLAccount a.glAccountId).map fun g => (a, g)) = some found) :
    (found.map fun p => toNumber p.2.balance).sum =
      toNumber ((rows.map fun a => s.glBalance a.glAccountId).sum) := by
  have hforall := forall₂_of_mapM h
  clear h
  induction hforall with
  | nil => exact toNumber_zero.symm
  | cons hrow _ ih =>
    obtain ⟨g, hg, rfl⟩ := Option.map_eq_some_iff.mp hrow
    rw [List.map_cons, List.sum_cons, ih, List.map_cons, List.sum_cons, toNumber_add, Db.glBalance,
      hg]
    rfl

theorem abs_toNumber_lt_cent_iff (c : Cents) : |toNumber c| < 1 / 100 ↔ c = 0 := by
  constructor
  · intro h
    obtain ⟨hlow, hhigh⟩ := abs_lt.mp h
    unfold toNumber at hlow hhigh
    have hnonneg : 0 ≤ c := Int.le_of_lt_add_one (by exact_mod_cast (by linarith : (0 : ℚ) < c + 1))
    have hnonpos : c ≤ 0 := Int.le_of_lt_add_one (by exact_mod_cast (by linarith : (c : ℚ) < 0 + 1))
    exact le_antisymm hnonpos hnonneg
  · intro h
    rw [h, toNumber_zero, abs_zero]
    norm_num

/-- The report reconciles exactly if the accounts add up to zero. -/
theorem run_outstandingBalances_eq_ok {s t : Db} {auth : Auth} {report : OutstandingBalances}
    (h : (outstandingBalances auth).run s = (.ok report, t)) :
    report.netTotal = toNumber (s.settlementTotal auth.institutionId) ∧
      (report.reconciles = true ↔ s.settlementTotal auth.institutionId = 0) := by
  obtain ⟨accounts, hread, h₁⟩ := run_orFail_bind_eq_ok (run_query_bind h)
  obtain ⟨entry, t₁, -, h₂⟩ := run_bind_eq_ok h₁
  have hreport := Except.ok.inj (Prod.mk.inj h₂).1
  have htotal : report.netTotal = toNumber (s.settlementTotal auth.institutionId) := by
    have hsum := sum_balances hread
    rw [← hreport]
    show round2 ((accounts.map _).map _).sum = _
    rw [List.map_map, Db.settlementTotal, Db.settlementAccounts, List.map_map]
    show round2 (accounts.map fun p => toNumber p.2.balance).sum = _
    rw [hsum, round2_toNumber]
    rfl
  constructor
  · exact htotal
  · rw [← hreport]
    show decide (|_| < _) = true ↔ _
    rw [decide_eq_true_eq, ← abs_toNumber_lt_cent_iff, ← htotal, ← hreport]

/-! ## What a transfer does -/

section Lines

/-- What some lines do to some accounts, line by line. -/
theorem sum_movementOf (accounts : List Id) (lines : List JournalLineInput) :
    (accounts.map (movementOf lines)).sum =
      (lines.map fun l => (accounts.count l.accountId : Cents) * l.effectCents).sum := by
  induction lines with
  | nil =>
    rw [List.map_nil, List.sum_nil]
    apply List.sum_eq_zero
    intro x hx
    obtain ⟨a, -, rfl⟩ := List.mem_map.mp hx
    rfl
  | cons l ls ih =>
    have hone : (accounts.map fun a => if l.accountId = a then l.effectCents else 0).sum =
        (accounts.count l.accountId : Cents) * l.effectCents := by
      simp only [eq_comm (a := l.accountId)]
      rw [List.sum_map_ite_eq, sub_zero, nsmul_eq_mul]
      simp
    have hboth : movementOf (l :: ls) = fun a => (if l.accountId = a then l.effectCents else 0) +
        movementOf ls a := rfl
    rw [hboth, List.sum_map_add, hone, ih, List.map_cons, List.sum_cons]

/-- The settlement accounts are liabilities. -/
def Db.SettlementsOwed (s : Db) : Prop :=
  ∀ a ∈ (s.table .branchSettlementAccount).values, s.category? a.glAccountId = some .liability

theorem Db.SettlementsOwed.category {s : Db} (h : s.SettlementsOwed) {institutionId a : Id}
    (ha : a ∈ s.settlementAccounts institutionId) : s.category? a = some .liability := by
  obtain ⟨row, hrow, rfl⟩ := List.mem_map.mp ha
  exact h row (List.mem_filter.mp hrow).1

/-- If the transfer is to be posted, the settlement accounts of every institution stand as often
on the debit side of its journal as on the credit side. -/
def Db.SettlesEvenly (s : Db) (transfer : InterBranchTransfer) : Prop :=
  match s.transferAccounts transfer with
  | [fromSettlement, fromAccount, toAccount, toSettlement] =>
    ∀ branch ∈ (s.table .branchSettlementAccount).values,
      (s.settlementAccounts branch.institutionId).count fromAccount +
          (s.settlementAccounts branch.institutionId).count toSettlement =
        (s.settlementAccounts branch.institutionId).count fromSettlement +
          (s.settlementAccounts branch.institutionId).count toAccount
  | _ => True

instance (s : Db) (transfer : InterBranchTransfer) : Decidable (s.SettlesEvenly transfer) := by
  unfold Db.SettlesEvenly
  split <;> infer_instance

/-- A line on a settlement account moves it by its amount. -/
theorem count_mul_effectCents {s : Db} (h : s.SettlementsOwed) {institutionId a : Id}
    {category : GLAccountCategory} (hcategory : s.category? a = some category) {debit credit : ℚ}
    {c : Cents} (hc : credit - debit = toNumber c) :
    ((s.settlementAccounts institutionId).count a : Cents) *
        JournalLineInput.effectCents { accountId := a, debit, credit, category } =
      (s.settlementAccounts institutionId).count a * c := by
  by_cases hmem : a ∈ s.settlementAccounts institutionId
  · rw [h.category hmem] at hcategory
    obtain rfl := Option.some.inj hcategory
    have heffect : JournalLineInput.effectCents
        { accountId := a, debit, credit, category := .liability } = c := by
      show ofNumber (round2 (credit - debit)) = c
      rw [hc, round2_toNumber, ofNumber_toNumber]
    rw [heffect]
  · rw [List.count_eq_zero_of_not_mem hmem]
    simp

variable {s t : Db} {transfer : InterBranchTransfer}
  {fromSettlement toSettlement : BranchSettlementAccount × GLAccount} {fromAccount toAccount : GLAccount}

/-- What the journal of a transfer does to what the settlement accounts add up to. -/
theorem sum_movementOf_interBranchLines (h : s.SettlementsOwed)
    (hcategorised : s.Categorised
      (interBranchLines transfer fromSettlement toSettlement fromAccount toAccount))
    (institutionId : Id) :
    ((s.settlementAccounts institutionId).map
      (movementOf (interBranchLines transfer fromSettlement toSettlement fromAccount toAccount))).sum =
      (((s.settlementAccounts institutionId).count transfer.fromGLAccountId +
            (s.settlementAccounts institutionId).count toSettlement.1.glAccountId : Cents) -
          ((s.settlementAccounts institutionId).count fromSettlement.1.glAccountId +
            (s.settlementAccounts institutionId).count transfer.toGLAccountId)) *
        transfer.amount := by
  have hdebit : (0 : ℚ) - toNumber transfer.amount = toNumber (-transfer.amount) := by
    rw [toNumber_neg, zero_sub]
  have hcredit : toNumber transfer.amount - 0 = toNumber transfer.amount := sub_zero _
  rw [sum_movementOf]
  unfold interBranchLines doubleEntry at hcategorised ⊢
  simp only [List.cons_append, List.nil_append, List.map_cons, List.map_nil, List.sum_cons,
    List.sum_nil, List.forall_mem_cons, Db.Categorised] at hcategorised ⊢
  obtain ⟨h₁, h₂, h₃, h₄, -⟩ := hcategorised
  rw [count_mul_effectCents h h₁ hdebit, count_mul_effectCents h h₂ hcredit,
    count_mul_effectCents h h₃ hdebit, count_mul_effectCents h h₄ hcredit]
  ring

theorem amount_pos_of_isBalanced
    (h : isBalanced ((interBranchLines transfer fromSettlement toSettlement fromAccount toAccount).map
      JournalLineInput.toLineInput) = true) : 0 < transfer.amount := by
  obtain ⟨-, hpositive⟩ := Bool.and_eq_true_iff.mp h
  have hsum : ((interBranchLines transfer fromSettlement toSettlement fromAccount toAccount).map
      fun l => l.debit).sum = toNumber (transfer.amount + transfer.amount) := by
    simp only [interBranchLines, doubleEntry, List.cons_append, List.nil_append, List.map_cons,
      List.map_nil, List.sum_cons, List.sum_nil, toNumber_add]
    ring
  have hpos := of_decide_eq_true hpositive
  rw [List.map_map] at hpos
  have hround : (0 : ℚ) < round2 (toNumber (transfer.amount + transfer.amount)) := hsum ▸ hpos
  rw [round2_toNumber, toNumber_pos] at hround
  linarith

/-- The approval of a transfer posts it, or rejects it if it does not balance. -/
theorem run_transferBetweenBranches_eq_ok {now : DateTime} {approvedById targetId : Id} {u : Unit}
    (h : (transferBetweenBranches now approvedById targetId).run s = (.ok u, t)) :
    ∃ transfer, s.find? .interBranchTransfer targetId = some transfer ∧
      ((∃ fromSettlement toSettlement fromAccount toAccount,
          s.transferAccounts transfer = [fromSettlement.1.glAccountId, transfer.fromGLAccountId,
            transfer.toGLAccountId, toSettlement.1.glAccountId] ∧ 0 < transfer.amount ∧
          s.Categorised (interBranchLines transfer fromSettlement toSettlement fromAccount toAccount) ∧
          (s.applyEffects (interBranchLines transfer fromSettlement toSettlement fromAccount
            toAccount)).Agree [.gLAccount, .branchSettlementAccount] t) ∨
        s.transferAccounts transfer = [] ∧ s.Agree [.gLAccount, .branchSettlementAccount] t) := by
  obtain ⟨transfer, htransfer, h₁⟩ := run_findUniqueOrThrow_bind_eq_ok h
  obtain ⟨fromSettlement, s₂, hfrom, h₂⟩ := Proc.run_bind_eq_ok h₁
  obtain ⟨hfromCategory, rfl⟩ := run_findSettlementAccount_eq_ok hfrom
  obtain ⟨hfromSettlement, -⟩ := run_findSettlementAccount_eq_some hfrom
  obtain ⟨toSettlement, s₃, hto, h₃⟩ := Proc.run_bind_eq_ok h₂
  obtain ⟨htoCategory, rfl⟩ := run_findSettlementAccount_eq_ok hto
  obtain ⟨htoSettlement, -⟩ := run_findSettlementAccount_eq_some hto
  obtain ⟨fromAccount, hfromAccount, h₄⟩ := run_findUniqueOrThrow_bind_eq_ok h₃
  obtain ⟨toAccount, htoAccount, h₅⟩ := run_findUniqueOrThrow_bind_eq_ok h₄
  refine ⟨transfer, htransfer, ?_⟩
  have haccounts : s₃.transferAccounts transfer =
      let lines := interBranchLines transfer fromSettlement toSettlement fromAccount toAccount
      if isBalanced (lines.map JournalLineInput.toLineInput) then lines.map fun l => l.accountId
      else [] := by
    unfold Db.transferAccounts
    simp only [hfromSettlement, htoSettlement, hfromAccount, htoAccount]
  dsimp only at h₅
  split at h₅
  · next hbalanced =>
    left
    have hcategorised : s₃.Categorised
        (interBranchLines transfer fromSettlement toSettlement fromAccount toAccount) := by
      intro l hl
      rcases List.mem_append.mp hl with hl | hl
      · refine categorised_doubleEntry hfromCategory ?_ _ l hl
        rw [Db.category?, hfromAccount]
        rfl
      · refine categorised_doubleEntry ?_ htoCategory _ l hl
        rw [Db.category?, htoAccount]
        rfl
    refine ⟨fromSettlement, toSettlement, fromAccount, toAccount, ?_, ?_, hcategorised, ?_⟩
    · rw [haccounts]
      exact if_pos hbalanced
    · exact amount_pos_of_isBalanced hbalanced
    · obtain ⟨journal, s₆, hcreate, h₆⟩ := Proc.run_bind_eq_ok h₅
      obtain ⟨-, -, hs₆⟩ := run_createJournal_eq_ok hcreate
      have hkept : s₃.LedgerKept s₆ := by
        rw [hs₆]
        exact Db.LedgerKept.insert_journal s₃ _
      have hinsert : s₃.Agree [.gLAccount, .branchSettlementAccount] s₆ := by
        rw [hs₆]
        exact Db.Agree.insert (m := .journal) (by decide) s₃ _
      rw [run_bind_ok (run_applyLines fun l hl =>
        Db.isSome_of_category? (hkept.categorised hcategorised l hl))] at h₆
      have hquiet : Quiet [.gLAccount, .branchSettlementAccount] (do
          let _ ← update .interBranchTransfer targetId fun t =>
            { t with status := InterBranchTransferStatus.posted, journalId := some journal }) :=
        Quiet.update_end (by decide) _ _
      have hagree := hquiet.run (s₆.applyEffects
        (interBranchLines transfer fromSettlement toSettlement fromAccount toAccount))
      rw [h₆] at hagree
      exact (hinsert.applyEffects_congr _).trans hagree
  · next hunbalanced =>
    right
    constructor
    · rw [haccounts]
      exact if_neg hunbalanced
    · have hquiet : Quiet [.gLAccount, .branchSettlementAccount] (do
          let _ ← update .interBranchTransfer targetId fun t =>
            { t with status := InterBranchTransferStatus.rejected }) :=
        Quiet.update_end (by decide) _ _
      have hagree := hquiet.run s₃
      rwa [h₅] at hagree

end Lines

/-! ## The invariant -/

/-- The settlement accounts are liabilities and add up to zero in every institution. -/
structure Db.SettlementsNet (s : Db) : Prop where
  owed : s.SettlementsOwed
  net : ∀ institutionId, s.settlementTotal institutionId = 0

/-- The settlement accounts are left alone. -/
structure Db.KeepsSettlements (s t : Db) : Prop where
  branches : t.table .branchSettlementAccount = s.table .branchSettlementAccount
  accounts : ∀ a ∈ (s.table .branchSettlementAccount).values,
    t.find? .gLAccount a.glAccountId = s.find? .gLAccount a.glAccountId

section Invariant

variable {s t : Db}

theorem Db.KeepsSettlements.of_agree (h : s.Agree [.gLAccount, .branchSettlementAccount] t) :
    s.KeepsSettlements t where
  branches := h _ (by decide)
  accounts := fun a _ => h.find? (by decide) a.glAccountId

theorem Db.KeepsSettlements.settlementAccounts (h : s.KeepsSettlements t) (institutionId : Id) :
    t.settlementAccounts institutionId = s.settlementAccounts institutionId := by
  rw [Db.settlementAccounts, h.branches, Db.settlementAccounts]

theorem Db.KeepsSettlements.settlementTotal (h : s.KeepsSettlements t) (institutionId : Id) :
    t.settlementTotal institutionId = s.settlementTotal institutionId := by
  rw [Db.settlementTotal, h.settlementAccounts, Db.settlementTotal]
  congr 1
  apply List.map_congr_left
  intro a ha
  obtain ⟨row, hrow, rfl⟩ := List.mem_map.mp ha
  rw [Db.glBalance, h.accounts row (List.mem_filter.mp hrow).1, Db.glBalance]

theorem Db.KeepsSettlements.owed (h : s.KeepsSettlements t) (howed : s.SettlementsOwed) :
    t.SettlementsOwed := by
  intro a ha
  rw [h.branches] at ha
  rw [Db.category?, h.accounts a ha]
  exact howed a ha

theorem Db.KeepsSettlements.net (h : s.KeepsSettlements t) (hnet : s.SettlementsNet) :
    t.SettlementsNet where
  owed := h.owed hnet.owed
  net := fun institutionId => (h.settlementTotal institutionId).trans (hnet.net institutionId)

theorem Db.settlesEvenly_congr (h : s.Agree [.gLAccount, .branchSettlementAccount] t)
    (transfer : InterBranchTransfer) : t.SettlesEvenly transfer ↔ s.SettlesEvenly transfer := by
  unfold Db.SettlesEvenly Db.transferAccounts Db.settlementAccount? Db.settlementAccounts Db.find?
  rw [h .gLAccount (by decide), h .branchSettlementAccount (by decide)]

theorem Db.SettlementsNet.insert (h : s.SettlementsNet) {m : Model}
    (hm : m ∉ [Model.gLAccount, .branchSettlementAccount]) (row : Row m) :
    (s.insert m row).SettlementsNet :=
  (Db.KeepsSettlements.of_agree (.insert hm s row)).net h

/-- A new settlement account is empty. -/
theorem Db.SettlementsNet.setUp (h : s.SettlementsNet) {account : GLAccount}
    (hcategory : account.category = .liability) (hbalance : account.balance = 0)
    {branch : BranchSettlementAccount} (hbranch : branch.glAccountId = s.nextId .gLAccount) :
    ((s.insert .gLAccount account).insert .branchSettlementAccount branch).SettlementsNet := by
  have hfind : ∀ a, ((s.insert .gLAccount account).insert .branchSettlementAccount branch).find?
      .gLAccount a = if a = s.nextId .gLAccount then some account else s.find? .gLAccount a := by
    intro a
    rw [Db.find?_insert_of_ne (by decide), Db.find?_insert]
  have hvalues : (((s.insert .gLAccount account).insert .branchSettlementAccount branch).table
      .branchSettlementAccount).values = (s.table .branchSettlementAccount).values ++ [branch] := by
    rw [Db.table_insert_self, Db.table_insert_of_ne (by decide), OrderedMap.values_create]
  have hold : ∀ a category, s.category? a = some category → a ≠ s.nextId .gLAccount := by
    intro a category ha heq
    have hnone : s.find? .gLAccount (s.nextId .gLAccount) = none := OrderedMap.get?_nextKey _
    rw [Db.category?, heq, hnone] at ha
    exact absurd ha (by simp)
  constructor
  · intro a ha
    rw [hvalues, List.mem_append, List.mem_singleton] at ha
    rw [Db.category?, hfind]
    rcases ha with ha | rfl
    · rw [if_neg (hold _ _ (h.owed a ha))]
      exact h.owed a ha
    · rw [if_pos hbranch, Option.map_some, hcategory]
  · intro institutionId
    have hkept : ∀ a ∈ s.settlementAccounts institutionId,
        ((s.insert .gLAccount account).insert .branchSettlementAccount branch).glBalance a =
          s.glBalance a := by
      intro a ha
      rw [Db.glBalance, hfind, if_neg (hold _ _ (h.owed.category ha)), Db.glBalance]
    have hnew : ((s.insert .gLAccount account).insert .branchSettlementAccount branch).glBalance
        branch.glAccountId = 0 := by
      rw [Db.glBalance, hfind, if_pos hbranch, Option.map_some, hbalance]
      rfl
    have hfirst : ((s.settlementAccounts institutionId).map ((s.insert .gLAccount account).insert
        .branchSettlementAccount branch).glBalance).sum = 0 := by
      rw [List.map_congr_left hkept]
      exact h.net institutionId
    have hlast : ((([branch].filter fun a => a.institutionId = institutionId).map
        BranchSettlementAccount.glAccountId).map ((s.insert .gLAccount account).insert
          .branchSettlementAccount branch).glBalance).sum = 0 := by
      by_cases hinstitution : branch.institutionId = institutionId
      · simp [hinstitution, hnew]
      · simp [hinstitution]
    unfold Db.settlementTotal Db.settlementAccounts
    rw [hvalues, List.filter_append, List.map_append, List.map_append, List.sum_append, hlast,
      add_zero]
    exact hfirst

/-- The journal of a transfer. -/
theorem Db.SettlementsNet.post (h : s.SettlementsNet) {transfer : InterBranchTransfer}
    {fromSettlement toSettlement : BranchSettlementAccount × GLAccount}
    {fromAccount toAccount : GLAccount}
    (haccounts : s.transferAccounts transfer = [fromSettlement.1.glAccountId,
      transfer.fromGLAccountId, transfer.toGLAccountId, toSettlement.1.glAccountId])
    (hpositive : 0 < transfer.amount)
    (hcategorised : s.Categorised
      (interBranchLines transfer fromSettlement toSettlement fromAccount toAccount))
    (hafter : (s.applyEffects (interBranchLines transfer fromSettlement toSettlement fromAccount
      toAccount)).Agree [.gLAccount, .branchSettlementAccount] t) :
    t.SettlementsOwed ∧
      ((∀ institutionId, t.settlementTotal institutionId = 0) ↔ s.SettlesEvenly transfer) := by
  have hkeeps := Db.KeepsSettlements.of_agree hafter
  have hbranches : t.table .branchSettlementAccount = s.table .branchSettlementAccount := by
    rw [hkeeps.branches, Db.table_applyEffects (by decide)]
  have hsame : ∀ institutionId, t.settlementAccounts institutionId =
      s.settlementAccounts institutionId := by
    intro institutionId
    rw [Db.settlementAccounts, hbranches, Db.settlementAccounts]
  constructor
  · intro a ha
    rw [hbranches] at ha
    rw [Db.category?, hafter.find? (by decide), ← Db.category?, Db.category?_applyEffects]
    exact h.owed a ha
  have hmoved : ∀ institutionId, t.settlementTotal institutionId =
      (((s.settlementAccounts institutionId).count transfer.fromGLAccountId +
            (s.settlementAccounts institutionId).count toSettlement.1.glAccountId : Cents) -
          ((s.settlementAccounts institutionId).count fromSettlement.1.glAccountId +
            (s.settlementAccounts institutionId).count transfer.toGLAccountId)) *
        transfer.amount := by
    intro institutionId
    have hbalance : ∀ a ∈ s.settlementAccounts institutionId, t.glBalance a = s.glBalance a +
        movementOf (interBranchLines transfer fromSettlement toSettlement fromAccount toAccount)
          a := by
      intro a ha
      rw [Db.glBalance_congr (hafter _ (by decide))]
      exact Db.glBalance_applyEffects (Db.isSome_of_category? (h.owed.category ha)) _
    rw [← sum_movementOf_interBranchLines h.owed hcategorised, Db.settlementTotal, hsame,
      List.map_congr_left hbalance, List.sum_map_add]
    have hzero := h.net institutionId
    rw [Db.settlementTotal] at hzero
    rw [hzero, zero_add]
  have heven : ∀ institutionId, t.settlementTotal institutionId = 0 ↔
      (s.settlementAccounts institutionId).count transfer.fromGLAccountId +
          (s.settlementAccounts institutionId).count toSettlement.1.glAccountId =
        (s.settlementAccounts institutionId).count fromSettlement.1.glAccountId +
          (s.settlementAccounts institutionId).count transfer.toGLAccountId := by
    intro institutionId
    rw [hmoved, mul_eq_zero, or_iff_left hpositive.ne', sub_eq_zero]
    exact_mod_cast Iff.rfl
  unfold Db.SettlesEvenly
  rw [haccounts]
  constructor
  · exact fun hnet branch _ => (heven branch.institutionId).mp (hnet _)
  · intro hbranch institutionId
    by_cases hnone : ∃ branch ∈ (s.table .branchSettlementAccount).values,
        branch.institutionId = institutionId
    · obtain ⟨branch, hmem, rfl⟩ := hnone
      exact (heven _).mpr (hbranch branch hmem)
    · -- An institution without branches.
      have hempty : s.settlementAccounts institutionId = [] := by
        rw [Db.settlementAccounts, List.map_eq_nil_iff, List.filter_eq_nil_iff]
        intro branch hmem heq
        exact hnone ⟨branch, hmem, of_decide_eq_true heq⟩
      rw [Db.settlementTotal, hsame, hempty]
      rfl

end Invariant

/-! ## Sequences of calls -/

/-- A call of a sequence.  The last constructor stands for every other endpoint. -/
inductive SettlementCall
  | setUp (auth : Auth) (branchId : Id) (glAccountCode glAccountName : String)
  | request (auth : Auth) (body : InterBranchBody)
  | resolve (call : ResolveCall)
  | other (p : Handler Unit)

/-- The transfer that an approval is about. -/
def ResolveCall.transfer? (call : ResolveCall) (s : Db) : Option InterBranchTransfer :=
  ((s.find? .approvalRequest call.requestId).filter fun r =>
    call.decision = .approve ∧ r.institutionId = call.auth.institutionId ∧ r.status = .pending ∧
      r.requestedById ≠ call.auth.userId).bind fun r => s.find? .interBranchTransfer r.targetId

namespace SettlementCall

def handler : SettlementCall → Handler Unit
  | setUp auth branchId code name => do let _ ← createSettlementAccount auth branchId code name
  | request auth body => do let _ ← requestInterBranchTransfer auth body
  | resolve call => call.handler
  | other p => p

/-- The requests that are resolved are about transfers between branches, and no other call posts
to a settlement account. -/
def Admitted : SettlementCall → Db → Prop
  | resolve call, s =>
    ∀ r ∈ s.find? .approvalRequest call.requestId, r.type = .interBranchTransfer
  | other p, s => s.KeepsSettlements (p.run s).2
  | _, _ => True

/-- A transfer that is approved settles evenly. -/
def Even : SettlementCall → Db → Prop
  | resolve call, s => ∀ transfer ∈ call.transfer? s, s.SettlesEvenly transfer
  | _, _ => True

/-- One call after the other. -/
def runAll (calls : List SettlementCall) (s : Db) : Db := Proc.runAll (calls.map handler) s

/-- Every call satisfies `A` when its turn comes. -/
def AllAlong (A : SettlementCall → Db → Prop) : List SettlementCall → Db → Prop
  | [], _ => True
  | call :: calls, s => A call s ∧ AllAlong A calls (call.handler.run s).2

section Steps

variable {s t : Db}

theorem ends_createSettlementAccount (auth : Auth) (branchId : Id) (code name : String)
    (h : s.SettlementsNet) :
    (createSettlementAccount auth branchId code name).Ends (fun _ t => t.SettlementsNet) s := by
  refine ends_query (Proc.Ends.require (fun _ => ?_) fun _ => h)
  refine ends_create (ends_create (ends_create ?_))
  exact (h.setUp rfl rfl rfl).insert (m := .auditLog) (by decide) _

theorem run_quiet {α : Type} {p : Handler α} (hp : Quiet [.gLAccount, .branchSettlementAccount] p)
    (h : s.SettlementsNet) : (p.run s).2.SettlementsNet :=
  (Db.KeepsSettlements.of_agree (hp.run s)).net h

theorem quiet_request (auth : Auth) (body : InterBranchBody) :
    Quiet [.gLAccount, .branchSettlementAccount] (requestInterBranchTransfer auth body) := by
  refine (Quiet.require _ _).bind fun _ => (Quiet.require _ _).bind fun _ => ?_
  refine (Quiet.query _).bind fun _ => (Quiet.query _).bind fun _ => ?_
  refine (Quiet.require _ _).bind fun _ => (Quiet.create (by decide) _).bind fun _ => ?_
  refine (Quiet.create (by decide) _).bind fun _ => ?_
  exact (Quiet.create (by decide) _).bind fun _ => Quiet.pure _

/-- What the decision about a transfer leaves. -/
theorem run_inTx_settlements {call : ResolveCall} {existing : ApprovalRequest} {u : Unit}
    (htype : existing.type = .interBranchTransfer) (h : s.SettlementsNet)
    (hrun : (call.inTx existing).run s = (.ok u, t)) :
    t.SettlementsOwed ∧ ((∀ institutionId, t.settlementTotal institutionId = 0) ↔
      (call.decision = .approve → ∀ transfer ∈ s.find? .interBranchTransfer existing.targetId,
        s.SettlesEvenly transfer)) := by
  obtain ⟨request, v, -, -, heffect, ht⟩ := ResolveCall.run_inTx_effect hrun
  have hclaim : s.Agree [.gLAccount, .branchSettlementAccount, .interBranchTransfer]
      (s.modify .approvalRequest call.requestId call.resolve) :=
    Db.Agree.modify (m := .approvalRequest) (by decide) s _ _
  have hlog : v.Agree [.gLAccount, .branchSettlementAccount] t := by
    rw [ht]
    exact Db.Agree.insert (m := .auditLog) (by decide) v _
  have hnet : (s.modify .approvalRequest call.requestId call.resolve).SettlementsNet :=
    (Db.KeepsSettlements.of_agree (hclaim.mono (by decide))).net h
  unfold ResolveCall.effect at heffect
  cases hdecision : call.decision with
  | approve =>
    simp only [hdecision, applyApproval, htype] at heffect
    obtain ⟨transfer, htransfer, hposted | ⟨hnone, hkept⟩⟩ := run_transferBetweenBranches_eq_ok heffect
    · obtain ⟨fromSettlement, toSettlement, fromAccount, toAccount, haccounts, hpositive,
        hcategorised, hafter⟩ := hposted
      obtain ⟨howed, hiff⟩ := hnet.post haccounts hpositive hcategorised (hafter.trans hlog)
      rw [hclaim.find? (by decide)] at htransfer
      refine ⟨howed, ?_⟩
      rw [hiff, Db.settlesEvenly_congr (hclaim.mono (by decide)), htransfer]
      simp
    · have hafter := (Db.KeepsSettlements.of_agree (hkept.trans hlog)).net hnet
      refine ⟨hafter.owed, fun _ _ => ?_, fun _ => hafter.net⟩
      intro transfer' htransfer'
      rw [hclaim.find? (by decide), htransfer'] at htransfer
      obtain rfl := Option.some.inj htransfer
      rw [← Db.settlesEvenly_congr (hclaim.mono (by decide)), Db.SettlesEvenly, hnone]
      trivial
  | reject =>
    simp only [hdecision, applyRejection, htype] at heffect
    have hquiet : Quiet [.gLAccount, .branchSettlementAccount] (do
        let _ ← update .interBranchTransfer existing.targetId fun t =>
          { t with status := InterBranchTransferStatus.rejected }) :=
      Quiet.update_end (by decide) _ _
    have hkept := hquiet.run (s.modify .approvalRequest call.requestId call.resolve)
    rw [heffect] at hkept
    have hafter := (Db.KeepsSettlements.of_agree (hkept.trans hlog)).net hnet
    exact ⟨hafter.owed, fun _ => (by simp), fun _ => hafter.net⟩

/-- One call. -/
theorem run_settlements {call : SettlementCall} (hadmitted : call.Admitted s) (heven : call.Even s)
    (h : s.SettlementsNet) : (call.handler.run s).2.SettlementsNet := by
  cases call with
  | setUp auth branchId code name =>
    show Proc.Ends (fun _ t => t.SettlementsNet)
      (createSettlementAccount auth branchId code name >>= fun _ => pure ()) s
    refine (ends_createSettlementAccount auth branchId code name h).bind ?_ ?_
    · exact fun _ _ hend => hend
    · exact fun _ _ hend => hend
  | request auth body => exact run_quiet ((quiet_request auth body).bind fun _ => Quiet.pure _) h
  | other p => exact hadmitted.net h
  | resolve call =>
    show (call.handler.run s).2.SettlementsNet
    rcases call.run_handler_cases s with ⟨e, he⟩ | ⟨existing, t, hfound, hpending, hother, hrun, hok⟩
    · rw [he]
      exact h
    · rw [hok]
      obtain ⟨howed, hiff⟩ := run_inTx_settlements (hadmitted existing hfound) h hrun
      refine ⟨howed, hiff.mpr fun hdecision transfer htransfer => heven transfer ?_⟩
      have hinstitution := ResolveCall.institutionId_of_run_eq_ok hfound hok
      unfold ResolveCall.transfer?
      rw [hfound, Option.filter_some, if_pos (by simp [hdecision, hinstitution, hpending, hother])]
      exact htransfer

end Steps

/-- In a sequence of set-ups, requests, approvals and rejections in which every transfer that is
approved settles evenly, the settlement accounts of every institution add up to zero, and it takes
no less: an approval that succeeds keeps the sums only if its transfer settles evenly. -/
theorem settlement_accounts_net_to_zero (s : Db) :
    (∀ calls : List SettlementCall, (s.table .branchSettlementAccount).values = [] →
      AllAlong Admitted calls s → AllAlong Even calls s →
      ∀ institutionId, (runAll calls s).settlementTotal institutionId = 0) ∧
    ∀ (call : ResolveCall) (existing : ApprovalRequest) (t : Db),
      s.find? .approvalRequest call.requestId = some existing →
      existing.type = .interBranchTransfer → call.decision = .approve → s.SettlementsNet →
      call.handler.run s = (.ok (), t) →
      ((∀ institutionId, t.settlementTotal institutionId = 0) ↔
        ∀ transfer ∈ s.find? .interBranchTransfer existing.targetId, s.SettlesEvenly transfer) := by
  constructor
  · intro calls hstart hadmitted heven
    have hnet : s.SettlementsNet := by
      constructor
      · intro a ha
        rw [hstart] at ha
        exact absurd ha List.not_mem_nil
      · intro institutionId
        rw [Db.settlementTotal, Db.settlementAccounts, hstart]
        rfl
    clear hstart
    induction calls generalizing s with
    | nil => exact hnet.net
    | cons call calls ih =>
      exact ih _ hadmitted.2 heven.2 (run_settlements hadmitted.1 heven.1 hnet)
  · intro call existing t hfound htype hdecision hnet hrun
    rcases call.run_handler_cases s with ⟨e, he⟩ | ⟨existing', t', hfound', -, -, htx, hok⟩
    · rw [hrun] at he
      exact absurd (congrArg Prod.fst he) nofun
    · rw [hfound] at hfound'
      obtain rfl := Option.some.inj hfound'
      rw [hrun] at hok
      obtain rfl := (Prod.mk.inj hok).2
      obtain ⟨-, hiff⟩ := run_inTx_settlements htype hnet htx
      rw [hiff]
      exact ⟨fun h => h hdecision, fun h _ => h⟩

/-! ## Two branches -/

/-- An institution with a bank account. -/
def bankLedger : Db :=
  Db.empty.insert .gLAccount
    { institutionId := 1, code := "1000", name := "Bank", category := .asset }

/-- Two branches are set up, the second by an institution of its choice, and a transfer of 100.00
from the one to the other is requested. -/
def branchesSetUp (institutionId fromGLAccountId : Id) : List SettlementCall :=
  [.setUp ⟨1, 1⟩ 1 "2501" "Branch 1", .setUp ⟨institutionId, 1⟩ 2 "2502" "Branch 2",
    .request ⟨1, 1⟩ ⟨1, 2, fromGLAccountId, 1, 100, "Float"⟩]

/-- Someone else approves it. -/
def transferApproval : ResolveCall :=
  { decision := .approve, auth := ⟨1, 2⟩, now := 5, requestId := 1 }

/-- The request, as it is filed. -/
def transferRequest : ApprovalRequest :=
  { institutionId := 1, type := .interBranchTransfer, targetType := "InterBranchTransfer",
    targetId := 1, reason := some "Float", requestedById := 1 }

theorem settlement_accounts_net_to_zero_float :
    (∀ institutionId, (runAll (branchesSetUp 1 1 ++ [.resolve transferApproval]) bankLedger
      ).settlementTotal institutionId = 0) ∧
    ((∀ institutionId, (transferApproval.handler.run (runAll (branchesSetUp 1 1) bankLedger)
      ).2.settlementTotal institutionId = 0) ↔
      ∀ transfer ∈ (runAll (branchesSetUp 1 1) bankLedger).find? .interBranchTransfer 1,
        (runAll (branchesSetUp 1 1) bankLedger).SettlesEvenly transfer) := by
  have hrun := (settlement_accounts_net_to_zero bankLedger).1
  have hexact := (settlement_accounts_net_to_zero (runAll (branchesSetUp 1 1) bankLedger)).2
  have hadmitted : Admitted (.resolve transferApproval) (runAll (branchesSetUp 1 1) bankLedger) := by
    show ∀ r ∈ (runAll (branchesSetUp 1 1) bankLedger).find? .approvalRequest 1, _
    decide +kernel
  have heven : Even (.resolve transferApproval) (runAll (branchesSetUp 1 1) bankLedger) := by
    show ∀ transfer ∈ transferApproval.transfer? (runAll (branchesSetUp 1 1) bankLedger), _
    decide +kernel
  have hnet := hrun (branchesSetUp 1 1) rfl ⟨trivial, trivial, trivial, trivial⟩
    ⟨trivial, trivial, trivial, trivial⟩
  have howed : (runAll (branchesSetUp 1 1) bankLedger).SettlementsOwed := by
    unfold Db.SettlementsOwed
    decide +kernel
  constructor
  · exact hrun _ rfl ⟨trivial, trivial, trivial, hadmitted, trivial⟩
      ⟨trivial, trivial, trivial, heven, trivial⟩
  · have hok : (transferApproval.handler.run (runAll (branchesSetUp 1 1) bankLedger)).1.toOption =
        some () := by decide +kernel
    exact hexact transferApproval transferRequest _ rfl rfl rfl ⟨howed, hnet⟩
      (run_eq_ok_of_toOption hok)

/-- A transfer out of a settlement account, and one to the branch of another institution. -/
theorem settlement_accounts_off_zero :
    (runAll (branchesSetUp 1 2 ++ [.resolve transferApproval]) bankLedger).settlementTotal 1 =
        10000 ∧
      (runAll (branchesSetUp 2 1 ++ [.resolve transferApproval]) bankLedger).settlementTotal 1 =
        -10000 := by
  constructor <;> decide +kernel

end SettlementCall

end NexusEfos
