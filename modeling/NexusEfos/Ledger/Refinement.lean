/-
The stored balances and the journal.

The financial statements aggregate the lines of the posted journals anew, capital adequacy
reads the balances that are stored with the accounts.  When every posted journal is whole
cents, balances, and has been applied in full, the two come to the same
(`Applied.refinesJournal`).
-/
import NexusEfos.Approvals.LedgerEffects
import NexusEfos.Ledger.AccountingEquation
import NexusEfos.Ledger.CapitalAdequacy

namespace NexusEfos

open DoubleEntry

namespace Db

/-! ## What the journal says -/

/-- The side on which an account grows. -/
def side (s : Db) (a : Id) : Side := ((s.category? a).getD .asset).side

/-- The entries of all posted journals. -/
def postedEntries (s : Db) : List (Entry Id Cents) :=
  (s.table .journal).values.flatMap fun j =>
    if j.status = .posted then j.lines.map JournalLine.entry else []

/-- The lines of all posted journals, each with its account. -/
def allPostedLines (s : Db) : List PostedLine :=
  (s.table .journal).values.flatMap fun j =>
    if j.status = .posted then
      j.lines.filterMap fun l => (s.find? .gLAccount l.accountId).map fun a => ⟨l, a⟩
    else []

/-- The balance of an account as the journal has it: `aggregateBalancesAsOf` over the lines of
all posted journals. -/
def aggregatedBalance (s : Db) (a : Id) : ℚ :=
  ((aggregateBalancesAsOf (s.allPostedLines.map PostedLine.input)).get? a).getD 0

/-- The database in which every account has the balance that the journal gives it. -/
def reaggregated (s : Db) : Db :=
  s.modifyAll .gLAccount fun id a => { a with balance := ofNumber (s.aggregatedBalance id) }

/-- The stored balances refine the journal: they are what it says, the two sides are level,
capital adequacy comes to the same on either, and the financial statements of an institution
have the stored balance of an account if all its lines are the institution's and in their
period. -/
structure RefinesJournal (s : Db) : Prop where
  balances : ∀ id account, s.find? .gLAccount id = some account →
    toNumber account.balance = s.aggregatedBalance id
  level : s.Level
  capitalAdequacy : ∀ institutionId,
    ((computeSnapshot institutionId).run s).1 = ((computeSnapshot institutionId).run s.reaggregated).1
  statements : ∀ id account institutionId asOf, s.find? .gLAccount id = some account →
    (∀ j ∈ (s.table .journal).values, j.status = .posted → (∃ l ∈ j.lines, l.accountId = id) →
      j.institutionId = institutionId ∧ j.postingDate ≤ asOf) →
    ((aggregateBalancesAsOf ((s.postedLines institutionId fun date => date ≤ asOf).map
      PostedLine.input)).get? id).getD 0 = toNumber account.balance

theorem modifyAll_eq_self {s : Db} {m : Model} {f : Id → Row m → Row m}
    (h : ∀ id row, s.find? m id = some row → f id row = row) : s.modifyAll m f = s := by
  have htable : (s.table m).updateAll f = s.table m :=
    OrderedMap.updateAll_eq_self fun id row hrow => h id row (OrderedMap.get?_eq_some.mpr hrow)
  unfold modifyAll setTable
  rw [htable, Function.update_eq_self]

/-! ## Sums over the lines -/

section Lines

variable {s : Db}

/-- The lines of a journal with their accounts move an account as its entries do. -/
theorem sum_effect_postedLines (lines : List JournalLine)
    (h : ∀ l ∈ lines, (s.find? .gLAccount l.accountId).isSome) (a : Id) :
    (((lines.filterMap fun l => (s.find? .gLAccount l.accountId).map fun a =>
      (⟨l, a⟩ : PostedLine)).map PostedLine.input).map fun l =>
        if l.accountId = a then l.effect else 0).sum =
      toNumber (movement s.side (lines.map JournalLine.entry) a) := by
  induction lines with
  | nil => simp
  | cons l ls ih =>
    obtain ⟨account, haccount⟩ := Option.isSome_iff_exists.mp (h l (List.mem_cons_self ..))
    have hrest := ih fun l' hl' => h l' (List.mem_cons_of_mem l hl')
    have hside : s.side l.accountId = account.category.side := by
      unfold side category?
      rw [haccount]
      rfl
    have heffect : (l.input account.category).effect = toNumber (l.entry.effect s.side) :=
      balanceEffect_toNumber s.side account.category l hside
    rw [List.filterMap_cons, haccount, Option.map_some, List.map_cons, List.map_cons, List.sum_cons,
      hrest, List.map_cons, movement_cons, toNumber_add]
    congr 1
    show (if l.accountId = a then (l.input account.category).effect else 0) =
      toNumber (if l.accountId = a then l.entry.effect s.side else 0)
    by_cases ha : l.accountId = a
    · rw [if_pos ha, if_pos ha, heffect]
    · rw [if_neg ha, if_neg ha, toNumber_zero]

/-- The aggregation over some posted journals. -/
theorem getD_aggregate_flatMap (js : List Journal) (p : Journal → Prop) [DecidablePred p]
    (h : ∀ j ∈ js, p j → ∀ l ∈ j.lines, (s.find? .gLAccount l.accountId).isSome) (a : Id) :
    ((aggregateBalancesAsOf ((js.flatMap fun j => if p j then
      j.lines.filterMap fun l => (s.find? .gLAccount l.accountId).map fun a => (⟨l, a⟩ : PostedLine)
      else []).map PostedLine.input)).get? a).getD 0 =
        toNumber (movement s.side (js.flatMap fun j =>
          if p j then j.lines.map JournalLine.entry else []) a) := by
  rw [getD_aggregateBalancesAsOf]
  induction js with
  | nil => simp
  | cons j js ih =>
    have hrest := ih fun j' hj' => h j' (List.mem_cons_of_mem j hj')
    rw [List.flatMap_cons, List.map_append, List.map_append, List.sum_append, hrest,
      List.flatMap_cons, movement_append, toNumber_add]
    congr 1
    by_cases hp : p j
    · rw [if_pos hp, if_pos hp]
      exact sum_effect_postedLines j.lines (h j (List.mem_cons_self ..) hp) a
    · rw [if_neg hp, if_neg hp]
      simp

end Lines

end Db

/-! ## From the lines that were applied to those that are stored -/

section Applied

variable {base : Id → Cents} {s : Db} {origin : Id → List JournalLineInput}
  {lines : List JournalLineInput}

/-- On whole cents a line moves its account as the stored line does. -/
theorem effectCents_eq {l : JournalLineInput} (hwhole : l.IsWholeCent)
    (hcategory : s.category? l.accountId = some l.category) :
    l.effectCents = l.stored.entry.effect s.side := by
  have hside : s.side l.stored.accountId = l.category.side := by
    show ((s.category? l.accountId).getD .asset).side = l.category.side
    rw [hcategory]
    rfl
  have hstored := balanceEffect_toNumber s.side l.category l.stored hside
  have hdebit : toNumber l.stored.debit = l.debit := hwhole.1.toNumber_ofNumber
  have hcredit : toNumber l.stored.credit = l.credit := hwhole.2.toNumber_ofNumber
  rw [hdebit, hcredit] at hstored
  unfold JournalLineInput.effectCents JournalLineInput.effect
  rw [hstored, ofNumber_toNumber]

theorem movementOf_eq (hwhole : ∀ l ∈ lines, l.IsWholeCent) (hcategory : s.Categorised lines)
    (a : Id) : movementOf lines a =
      movement s.side ((lines.map fun l => l.stored).map JournalLine.entry) a := by
  induction lines with
  | nil => rfl
  | cons l ls ih =>
    have hrest := ih (fun l' hl' => hwhole l' (List.mem_cons_of_mem l hl'))
      fun l' hl' => hcategory l' (List.mem_cons_of_mem l hl')
    have hhead := effectCents_eq (hwhole l (List.mem_cons_self ..)) (hcategory l (List.mem_cons_self ..))
    rw [List.map_cons, List.map_cons, movement_cons, ← hrest, ← hhead]
    rfl

/-- Whole cents that balance still balance when they are stored. -/
theorem WholeBalanced.stored (h : WholeBalanced lines) :
    Balanced ((lines.map fun l => l.stored).map JournalLine.entry) := by
  have hsum : ∀ f : LineInput → ℚ, (∀ l ∈ lines, WholeCent (f l.toLineInput)) →
      (lines.map fun l => f l.toLineInput).sum =
        toNumber (lines.map fun l => ofNumber (f l.toLineInput)).sum := by
    intro f hf
    rw [← sum_toNumber]
    congr 1
    exact List.map_congr_left fun l hl => ((hf l hl).toNumber_ofNumber).symm
  have hdebits := hsum LineInput.debit fun l hl => (h.whole l hl).1
  have hcredits := hsum LineInput.credit fun l hl => (h.whole l hl).2
  unfold DoubleEntry.Balanced
  rw [List.map_map, List.map_map, List.map_map, List.map_map]
  exact toNumber_inj.mp (hdebits.symm.trans (h.balanced.trans hcredits))

namespace Applied

theorem category (h : Applied WholeBalanced base s origin 0) {id : Id} {j : Journal}
    (hj : s.find? .journal id = some j) (hposted : j.status = .posted) :
    ∀ l ∈ j.lines, (s.find? .gLAccount l.accountId).isSome := by
  have hlines := h.lines id j hj hposted
  intro l hl
  rw [hlines.stored] at hl
  obtain ⟨l', hl', rfl⟩ := List.mem_map.mp hl
  exact Db.isSome_of_category? (hlines.category l' hl')

theorem postedBalanced (h : Applied WholeBalanced base s origin 0) : s.PostedBalanced := by
  intro j hj hposted
  obtain ⟨⟨id, j'⟩, hmem, rfl⟩ := List.mem_map.mp hj
  have hlines := h.lines id j' (OrderedMap.get?_eq_some.mpr hmem) hposted
  rw [hlines.stored]
  exact hlines.allowed.stored

/-- The balances have moved by the entries of the posted journals. -/
theorem glBalance_eq (h : Applied WholeBalanced base s origin 0) (a : Id) :
    s.glBalance a = base a + movement s.side s.postedEntries a := by
  have hbalance := h.balance a
  rw [amountOn_zero, add_zero] at hbalance
  rw [hbalance, Db.postedEntries, movement_flatMap, OrderedMap.total, OrderedMap.values,
    List.map_map]
  congr 2
  apply List.map_congr_left
  intro e he
  show (if e.2.status = .posted then movementOf (origin e.1) a else 0) =
    movement s.side (if e.2.status = .posted then e.2.lines.map JournalLine.entry else []) a
  by_cases hposted : e.2.status = .posted
  · have hlines := h.lines e.1 e.2 (OrderedMap.get?_eq_some.mpr he) hposted
    rw [if_pos hposted, if_pos hposted, hlines.stored]
    exact movementOf_eq hlines.allowed.whole hlines.category a
  · rw [if_neg hposted, if_neg hposted, movement_nil]

end Applied

/-- Entries on accounts that exist, and which balance, leave the sides level. -/
theorem Db.level_of_movement {es : List (Entry Id Cents)} (hes : Balanced es)
    (haccounts : ∀ e ∈ es, (s.find? .gLAccount e.account).isSome)
    (h : ∀ a, s.glBalance a = movement s.side es a) : s.Level := by
  rw [Db.level_iff]
  have hmem : ∀ e ∈ es, e.account ∈ (s.table .gLAccount).keys.toFinset := by
    intro e he
    obtain ⟨account, haccount⟩ := Option.isSome_iff_exists.mp (haccounts e he)
    rw [List.mem_toFinset, OrderedMap.mem_keys]
    exact ⟨account, OrderedMap.get?_eq_some.mp haccount⟩
  have hsum : ∑ a ∈ (s.table .gLAccount).keys.toFinset, (s.side a).sign (movement s.side es a) = 0 :=
    hes.sum_sign_movement hmem
  have hnodup : (s.table .gLAccount).keys.Nodup := (s.table .gLAccount).nodup_keys
  rw [List.sum_toFinset _ hnodup] at hsum
  unfold Db.imbalance
  rw [OrderedMap.total_eq_sum_keys, ← hsum]
  congr 1
  apply List.map_congr_left
  intro a ha
  obtain ⟨account, hentry⟩ := OrderedMap.mem_keys.mp ha
  have haccount : s.find? .gLAccount a = some account := OrderedMap.get?_eq_some.mpr hentry
  have hside : s.side a = account.category.side := by
    unfold Db.side Db.category?
    rw [haccount]
    rfl
  have hbalance : s.glBalance a = account.balance := by
    unfold Db.glBalance
    rw [haccount]
    rfl
  rw [← h, hside, hbalance, show (s.table .gLAccount).get? a = some account from haccount]
  rfl

/-- Posted journals that are whole cents, balance and have been applied in full. -/
theorem Applied.refinesJournal (h : Applied WholeBalanced (fun _ => 0) s origin 0) :
    s.RefinesJournal := by
  have hmovement : ∀ a, s.glBalance a = movement s.side s.postedEntries a := by
    intro a
    rw [h.glBalance_eq, zero_add]
  have hfound : ∀ j ∈ (s.table .journal).values, j.status = .posted →
      ∀ l ∈ j.lines, (s.find? .gLAccount l.accountId).isSome := by
    intro j hj hposted
    obtain ⟨⟨id, j'⟩, hmem, rfl⟩ := List.mem_map.mp hj
    exact h.category (OrderedMap.get?_eq_some.mpr hmem) hposted
  have hbalances : ∀ id account, s.find? .gLAccount id = some account →
      toNumber account.balance = s.aggregatedBalance id := by
    intro id account haccount
    have hstored : s.glBalance id = account.balance := by
      unfold Db.glBalance
      rw [haccount]
      rfl
    have haggregate := Db.getD_aggregate_flatMap (s.table .journal).values
      (fun j => j.status = .posted) hfound id
    rw [← hstored, hmovement]
    exact haggregate.symm
  refine ⟨hbalances, ?_, ?_, ?_⟩
  · refine Db.level_of_movement (Balanced.flatMap ?_) ?_ hmovement
    · intro j hj
      by_cases hposted : j.status = .posted
      · rw [if_pos hposted]
        exact h.postedBalanced j hj hposted
      · rw [if_neg hposted]
        rfl
    · intro e he
      obtain ⟨j, hj, hmem⟩ := List.mem_flatMap.mp he
      by_cases hposted : j.status = .posted
      · rw [if_pos hposted] at hmem
        obtain ⟨l, hl, rfl⟩ := List.mem_map.mp hmem
        exact hfound j hj hposted l hl
      · rw [if_neg hposted] at hmem
        exact absurd hmem List.not_mem_nil
  · intro institutionId
    have hsame : s.reaggregated = s := by
      apply Db.modifyAll_eq_self
      intro id account haccount
      rw [← hbalances id account haccount, ofNumber_toNumber]
    rw [hsame]
  · intro id account institutionId asOf haccount hlines
    have hreport := Db.getD_aggregate_flatMap (s.table .journal).values
      (fun j => j.institutionId = institutionId ∧ j.status = .posted ∧ (j.postingDate ≤ asOf : Bool))
      (fun j hj hp => hfound j hj hp.2.1) id
    refine hreport.trans ?_
    rw [hbalances id account haccount, Db.aggregatedBalance, Db.allPostedLines,
      Db.getD_aggregate_flatMap (s.table .journal).values (fun j => j.status = .posted) hfound id,
      movement_flatMap, movement_flatMap]
    congr 2
    apply List.map_congr_left
    intro j hj
    -- A journal of another institution or of a later date has no line on the account.
    by_cases hposted : j.status = .posted
    · rw [if_pos hposted]
      by_cases hon : ∃ l ∈ j.lines, l.accountId = id
      · obtain ⟨hinstitution, hdate⟩ := hlines j hj hposted hon
        rw [if_pos ⟨hinstitution, hposted, decide_eq_true hdate⟩]
      · have hnone : movement s.side (j.lines.map JournalLine.entry) id = 0 := by
          apply movement_eq_zero
          intro e he heq
          obtain ⟨l, hl, rfl⟩ := List.mem_map.mp he
          exact hon ⟨l, hl, heq⟩
        rw [hnone]
        split
        · exact hnone
        · rfl
    · rw [if_neg hposted, if_neg fun hp => hposted hp.2.1]

end Applied

end NexusEfos
