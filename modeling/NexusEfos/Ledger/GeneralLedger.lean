/-
The arithmetic of the ledger: `lib/generalLedger.ts`.

`balanceEffect` and `isBalanced` are the two rules of double entry, and
`aggregateBalancesAsOf` folds them over the lines of a ledger.  All three round
to whole cents at every step.  On lines that are whole cents already the rounding
does nothing, and the file says what is then left: an effect is the library's
`Entry.effect` (`balanceEffect_toNumber`), the check is the library's `Balanced`
(`isBalanced_iff`), and the fold is the library's `movement` account by account
(`getD_aggregateBalancesAsOf`) and a plain sum over any set of accounts
(`total_aggregateBalancesAsOf`).
-/
import NexusEfos.Library.DoubleEntry
import NexusEfos.Library.OrderedMap
import NexusEfos.Schema.Accounting

namespace NexusEfos

open DoubleEntry

/-! ## The functions -/

/-- A line together with the category of its account. -/
structure JournalLineInput extends LineInput where
  category : GLAccountCategory

def isBalanced (lines : List LineInput) : Bool :=
  let totalDebit := round2 (lines.map LineInput.debit).sum
  let totalCredit := round2 (lines.map LineInput.credit).sum
  decide (totalDebit = totalCredit) && decide (0 < totalDebit)

def balanceEffect (category : GLAccountCategory) (debit credit : ℚ) : ℚ :=
  let isDebitNormal := category = .asset ∨ category = .expense
  if isDebitNormal then round2 (debit - credit) else round2 (credit - debit)

/-- The effect of a line on the balance of its account. -/
def JournalLineInput.effect (line : JournalLineInput) : ℚ :=
  balanceEffect line.category line.debit line.credit

def aggregateBalancesAsOf (lines : List JournalLineInput) : OrderedMap Id ℚ :=
  OrderedMap.empty.accumulate (fun line => line.accountId)
    (fun balance line => round2 (balance.getD 0 + line.effect)) lines

/-- The same function, fed with the lines of a period. -/
abbrev aggregateBalancesForPeriod := aggregateBalancesAsOf

/-! ## Whole cents -/

/-- The side on which the accounts of a category grow. -/
def GLAccountCategory.side : GLAccountCategory → Side
  | .asset | .expense => .debit
  | .liability | .equity | .income => .credit

/-- A stored line as an entry of the library. -/
def JournalLine.entry (line : JournalLine) : Entry Id Cents :=
  ⟨line.accountId, line.debit, line.credit⟩

/-- A stored line as the reports and the posting code read it. -/
def JournalLine.input (line : JournalLine) (category : GLAccountCategory) : JournalLineInput :=
  { accountId := line.accountId, debit := toNumber line.debit, credit := toNumber line.credit,
    category }

/-- Both amounts of a line are whole cents. -/
def LineInput.IsWholeCent (line : LineInput) : Prop :=
  WholeCent line.debit ∧ WholeCent line.credit

/-- A line as it is stored. -/
def LineInput.stored (line : LineInput) : JournalLine :=
  { accountId := line.accountId, debit := ofNumber line.debit, credit := ofNumber line.credit,
    description := line.description }

/-- The difference a line makes, debit minus credit. -/
def JournalLineInput.net (line : JournalLineInput) : ℚ := line.debit - line.credit

theorem balanceEffect_eq_round2 (category : GLAccountCategory) (debit credit : ℚ) :
    balanceEffect category debit credit =
      match category.side with
      | .debit => round2 (debit - credit)
      | .credit => round2 (credit - debit) := by
  cases category <;> simp [balanceEffect, GLAccountCategory.side]

/-- On whole cents the effect of a line is the effect of its entry. -/
theorem balanceEffect_toNumber (side : Id → Side) (category : GLAccountCategory)
    (line : JournalLine) (hside : side line.accountId = category.side) :
    balanceEffect category (toNumber line.debit) (toNumber line.credit) =
      toNumber (line.entry.effect side) := by
  rw [balanceEffect_eq_round2, ← toNumber_sub, ← toNumber_sub, round2_toNumber, round2_toNumber]
  unfold Entry.effect
  rw [show line.entry.account = line.accountId from rfl, hside]
  cases category.side with
  | debit => rfl
  | credit => rfl

/-- On whole cents an effect counts the line's difference, with the sign of the
category. -/
theorem JournalLineInput.effect_eq {line : JournalLineInput} (h : line.IsWholeCent) :
    line.effect = line.category.side.sign line.net := by
  have hnet : WholeCent line.net := h.1.sub h.2
  rw [JournalLineInput.effect, balanceEffect_eq_round2]
  cases line.category.side with
  | debit => exact hnet.round2_eq
  | credit =>
    rw [← neg_sub line.debit line.credit]
    exact hnet.neg.round2_eq

theorem JournalLineInput.wholeCent_effect (line : JournalLineInput) : WholeCent line.effect := by
  rw [JournalLineInput.effect, balanceEffect_eq_round2]
  cases line.category.side with
  | debit => exact wholeCent_round2 _
  | credit => exact wholeCent_round2 _

theorem JournalLine.isWholeCent_input (line : JournalLine) (category : GLAccountCategory) :
    (line.input category).IsWholeCent := ⟨wholeCent_toNumber _, wholeCent_toNumber _⟩

theorem sum_toNumber {α : Type} (f : α → Cents) (xs : List α) :
    (xs.map fun x => toNumber (f x)).sum = toNumber (xs.map f).sum := by
  rw [toNumber_sum, List.map_map]
  rfl

theorem wholeCent_sum {α : Type} {f : α → ℚ} {xs : List α} (h : ∀ x ∈ xs, WholeCent (f x)) :
    WholeCent (xs.map f).sum := by
  induction xs with
  | nil => exact WholeCent.zero
  | cons x xs ih =>
    rw [List.map_cons, List.sum_cons]
    exact (h x (List.mem_cons_self ..)).add (ih fun y hy => h y (List.mem_cons_of_mem x hy))

/-- The check on amounts that add up to whole cents. -/
theorem isBalanced_eq_true_iff {lines : List LineInput} {debits credits : Cents}
    (hdebits : (lines.map LineInput.debit).sum = toNumber debits)
    (hcredits : (lines.map LineInput.credit).sum = toNumber credits) :
    isBalanced lines = true ↔ debits = credits ∧ 0 < debits := by
  simp only [isBalanced, hdebits, hcredits, round2_toNumber, Bool.and_eq_true, decide_eq_true_eq,
    toNumber_inj, toNumber_pos]

/-- A stored line as the check reads it. -/
def JournalLine.amounts (line : JournalLine) : LineInput :=
  { accountId := line.accountId, debit := toNumber line.debit, credit := toNumber line.credit }

/-- On stored lines the check is balance of the entries, with something in
them. -/
theorem isBalanced_iff (lines : List JournalLine) :
    isBalanced (lines.map JournalLine.amounts) = true ↔
      Balanced (lines.map JournalLine.entry) ∧ 0 < (lines.map JournalLine.debit).sum := by
  have hdebits : ((lines.map JournalLine.amounts).map LineInput.debit).sum =
      toNumber (lines.map JournalLine.debit).sum := by
    rw [List.map_map]
    exact sum_toNumber JournalLine.debit lines
  have hcredits : ((lines.map JournalLine.amounts).map LineInput.credit).sum =
      toNumber (lines.map JournalLine.credit).sum := by
    rw [List.map_map]
    exact sum_toNumber JournalLine.credit lines
  rw [isBalanced_eq_true_iff hdebits hcredits, DoubleEntry.Balanced, List.map_map, List.map_map]
  rfl

/-- Lines that pass the check balance when they are stored, if they are whole
cents. -/
theorem balanced_stored_of_isBalanced {lines : List LineInput}
    (hwhole : ∀ l ∈ lines, l.IsWholeCent) (h : isBalanced lines = true) :
    Balanced ((lines.map LineInput.stored).map JournalLine.entry) := by
  have hsum : ∀ f : LineInput → ℚ, (∀ l ∈ lines, WholeCent (f l)) →
      (lines.map f).sum = toNumber (lines.map fun l => ofNumber (f l)).sum := by
    intro f hf
    rw [← sum_toNumber]
    congr 1
    exact List.map_congr_left fun l hl => ((hf l hl).toNumber_ofNumber).symm
  have hbal := ((isBalanced_eq_true_iff (hsum LineInput.debit fun l hl => (hwhole l hl).1)
    (hsum LineInput.credit fun l hl => (hwhole l hl).2)).mp h).1
  simp only [DoubleEntry.Balanced, List.map_map]
  exact hbal

/-! ## The fold -/

section Fold

variable {lines : List JournalLineInput}

/-- Every accumulated balance is whole cents. -/
theorem wholeCent_of_get?_aggregateBalancesAsOf {a : Id} {b : ℚ}
    (h : (aggregateBalancesAsOf lines).get? a = some b) : WholeCent b :=
  OrderedMap.get?_accumulate_induction (fun _ b => WholeCent b)
    (fun _ _ _ _ => wholeCent_round2 _) (by simp) h

/-- A sum of aggregated balances over the accounts of a kind is the sum of the
effects of the lines on accounts of that kind. -/
theorem total_aggregateBalancesAsOf (P : Id → Prop) [DecidablePred P] :
    ((aggregateBalancesAsOf lines).total fun a b => if P a then b else 0) =
      (lines.map fun l => if P l.accountId then l.effect else 0).sum := by
  rw [aggregateBalancesAsOf, OrderedMap.total_accumulate
    (fun l => if P l.accountId then l.effect else 0) (fun _ b => WholeCent b)]
  · rw [OrderedMap.total_empty, zero_add]
  · exact fun _ _ _ _ => wholeCent_round2 _
  · intro l _ o ho
    have hsum : WholeCent (o.getD 0 + l.effect) := by
      refine WholeCent.add ?_ l.wholeCent_effect
      cases o with
      | none => exact WholeCent.zero
      | some b => exact ho b rfl
    rw [hsum.round2_eq]
    by_cases hP : P l.accountId
    · cases o <;> simp [hP]
    · cases o <;> simp [hP]
  · simp

/-- The aggregated balance of an account. -/
theorem getD_aggregateBalancesAsOf (a : Id) :
    ((aggregateBalancesAsOf lines).get? a).getD 0 =
      (lines.map fun l => if l.accountId = a then l.effect else 0).sum := by
  rw [← total_aggregateBalancesAsOf (fun b => b = a), OrderedMap.total_single (fun b : ℚ => b)]
  cases (aggregateBalancesAsOf lines).get? a <;> rfl

theorem mem_keys_aggregateBalancesAsOf {a : Id} :
    a ∈ (aggregateBalancesAsOf lines).keys ↔ ∃ l ∈ lines, l.accountId = a := by
  rw [aggregateBalancesAsOf, OrderedMap.mem_keys_accumulate]
  simp [OrderedMap.keys, OrderedMap.empty]

end Fold

end NexusEfos
