/-
Posted journals and the balances they have moved.

A journal is stored with amounts rounded to cents, and its lines are applied one by one,
each with an effect of its own.  `Applied` says that the balances are what the lines of
all posted journals make of them, except for some lines that are still to be applied.
Who posts a journal outside a transaction owes its lines until the loop is through: they
are the debt of the process.
-/
import NexusEfos.Approvals.Writes
import Mathlib.Algebra.BigOperators.Group.Multiset.Basic

namespace NexusEfos

/-! ## Lines that are still to be applied -/

/-- The effects of some lines, each with its account.  Lines without an effect are left out. -/
def unapplied (lines : List JournalLineInput) : Multiset (Id × Cents) :=
  ↑((lines.map fun l => (l.accountId, l.effectCents)).filter fun e => e.2 ≠ 0)

/-- What some effects come to on an account. -/
def amountOn (effects : Multiset (Id × Cents)) (a : Id) : Cents :=
  (effects.map fun e => if e.1 = a then e.2 else 0).sum

@[simp] theorem amountOn_zero (a : Id) : amountOn 0 a = 0 := rfl

theorem amountOn_add (m n : Multiset (Id × Cents)) (a : Id) :
    amountOn (m + n) a = amountOn m a + amountOn n a := by
  rw [amountOn, Multiset.map_add, Multiset.sum_add, amountOn, amountOn]

@[simp] theorem unapplied_nil : unapplied [] = 0 := rfl

theorem unapplied_cons (l : JournalLineInput) (ls : List JournalLineInput) :
    unapplied (l :: ls) =
      (if l.effectCents = 0 then 0 else {(l.accountId, l.effectCents)}) + unapplied ls := by
  unfold unapplied
  by_cases h : l.effectCents = 0
  · simp [h]
  · simp only [List.map_cons, if_neg h, Multiset.singleton_add]
    rw [List.filter_cons_of_pos (by simp [h])]
    rfl

theorem amountOn_unapplied (lines : List JournalLineInput) (a : Id) :
    amountOn (unapplied lines) a = movementOf lines a := by
  induction lines with
  | nil => rfl
  | cons l ls ih =>
    rw [unapplied_cons, amountOn_add, ih, movementOf, movementOf, List.map_cons, List.sum_cons]
    congr 1
    by_cases h : l.effectCents = 0
    · simp [h]
    · simp [h, amountOn]

theorem movementOf_append (xs ys : List JournalLineInput) (a : Id) :
    movementOf (xs ++ ys) a = movementOf xs a + movementOf ys a := by
  rw [movementOf, List.map_append, List.sum_append, movementOf, movementOf]

theorem unapplied_eq_zero {lines : List JournalLineInput} :
    unapplied lines = 0 ↔ ∀ l ∈ lines, l.effectCents = 0 := by
  unfold unapplied
  rw [Multiset.coe_eq_zero, List.filter_eq_nil_iff]
  simp

/-! ## Balances and posted journals -/

/-- The lines a journal was made from. -/
structure LinesOf (allowed : List JournalLineInput → Prop) (s : Db) (j : Journal)
    (lines : List JournalLineInput) : Prop where
  stored : j.lines = lines.map fun l => l.stored
  category : ∀ l ∈ lines, s.category? l.accountId = some l.category
  allowed : allowed lines

/-- The balances are what the posted journals make of them, beginning with `base`, except
for the lines that are left.  `origin` gives the lines a journal was made from. -/
structure Applied (allowed : List JournalLineInput → Prop) (base : Id → Cents) (s : Db)
    (origin : Id → List JournalLineInput) (left : Multiset (Id × Cents)) : Prop where
  lines : ∀ id j, s.find? .journal id = some j → j.status = .posted →
    LinesOf allowed s j (origin id)
  balance : ∀ a, s.glBalance a + amountOn left a = base a +
    (s.table .journal).total fun id j => if j.status = .posted then movementOf (origin id) a else 0

section Applied

variable {allowed : List JournalLineInput → Prop} {base : Id → Cents} {s t : Db}
  {origin : Id → List JournalLineInput} {left : Multiset (Id × Cents)} {lines : List JournalLineInput}

theorem Db.category?_congr (h : t.table .gLAccount = s.table .gLAccount) (a : Id) :
    t.category? a = s.category? a := by
  unfold category? find?
  rw [h]

theorem Db.category?_applyEffects (s : Db) (lines : List JournalLineInput) (a : Id) :
    (s.applyEffects lines).category? a = s.category? a := by
  rw [category?, find?_applyEffects, Option.map_map]
  rfl

theorem Db.glBalance_of_category? {a : Id} (h : s.category? a = none) : s.glBalance a = 0 := by
  rw [glBalance, Option.map_eq_none_iff.mp h]
  rfl

theorem Db.glBalance_eq_zero (h : ∀ e ∈ (s.table .gLAccount).entries, e.2.balance = 0) (a : Id) :
    s.glBalance a = 0 := by
  unfold glBalance
  cases ha : s.find? .gLAccount a with
  | none => rfl
  | some account => exact h (a, account) (OrderedMap.get?_eq_some.mp ha)

theorem LinesOf.congr {j : Journal} (h : LinesOf allowed s j lines)
    (hcategory : ∀ a, t.category? a = s.category? a) : LinesOf allowed t j lines :=
  { h with category := fun l hl => (hcategory _).trans (h.category l hl) }

/-- A line can only be on an account that exists. -/
theorem movementOf_eq_zero {a : Id} (hcategory : ∀ l ∈ lines, s.category? l.accountId = some l.category)
    (ha : s.category? a = none) : movementOf lines a = 0 := by
  apply List.sum_eq_zero
  intro x hx
  obtain ⟨l, hl, rfl⟩ := List.mem_map.mp hx
  apply if_neg
  intro heq
  rw [← heq, hcategory l hl] at ha
  exact absurd ha nofun

/-- Lines on accounts that exist move every balance by their movement. -/
theorem Db.glBalance_applyEffects_of_category?
    (hcategory : ∀ l ∈ lines, s.category? l.accountId = some l.category) (a : Id) :
    (s.applyEffects lines).glBalance a = s.glBalance a + movementOf lines a := by
  cases ha : s.category? a with
  | some category => exact glBalance_applyEffects (isSome_of_category? ha) lines
  | none =>
    have hafter : (s.applyEffects lines).category? a = none :=
      (s.category?_applyEffects lines a).trans ha
    rw [glBalance_of_category? ha, glBalance_of_category? hafter, movementOf_eq_zero hcategory ha,
      add_zero]

namespace Applied

theorem congr (h : Applied allowed base s origin left) (hsame : s.Agree [.gLAccount, .journal] t) :
    Applied allowed base t origin left where
  lines := fun id j hj hposted => by
    rw [hsame.find? (by decide)] at hj
    exact (h.lines id j hj hposted).congr fun a => Db.category?_congr (hsame _ (by decide)) a
  balance := fun a => by
    rw [Db.glBalance_congr (hsame _ (by decide)), hsame .journal (by decide)]
    exact h.balance a

/-- Without journals the balances are those at the beginning. -/
theorem of_no_journal (hnone : (s.table .journal).entries = [])
    (hbalance : ∀ a, s.glBalance a = base a) : Applied allowed base s origin 0 where
  lines := fun id j hj _ => by
    have hmem : (id, j) ∈ (s.table .journal).entries := OrderedMap.get?_eq_some.mp hj
    rw [hnone] at hmem
    exact absurd hmem List.not_mem_nil
  balance := fun a => by
    rw [amountOn_zero, add_zero, hbalance, OrderedMap.total_eq_zero, add_zero]
    intro id j hmem
    rw [hnone] at hmem
    exact absurd hmem List.not_mem_nil

/-- A journal is posted, and its lines are still to be applied. -/
theorem post (h : Applied allowed base s origin left) {j : Journal} (hposted : j.status = .posted)
    (hlines : LinesOf allowed s j lines) :
    Applied allowed base (s.insert .journal j) (Function.update origin (s.nextId .journal) lines)
      (left + unapplied lines) := by
  have haccounts : (s.insert .journal j).table .gLAccount = s.table .gLAccount :=
    Db.table_insert_of_ne (by decide) _ _
  constructor
  · intro id j' hj' hposted'
    rw [Db.find?_insert] at hj'
    by_cases hid : id = s.nextId .journal
    · rw [if_pos hid] at hj'
      rw [hid, Function.update_self, ← Option.some.inj hj']
      exact hlines.congr (Db.category?_congr haccounts)
    · rw [if_neg hid] at hj'
      rw [Function.update_of_ne hid]
      exact (h.lines id j' hj' hposted').congr (Db.category?_congr haccounts)
  · intro a
    have hold : ((s.table .journal).total fun id j => if j.status = .posted then
        movementOf (Function.update origin (s.nextId .journal) lines id) a else 0) =
          (s.table .journal).total fun id j =>
            if j.status = .posted then movementOf (origin id) a else 0 := by
      apply OrderedMap.total_congr
      intro id j' hmem
      have hid : id ≠ s.nextId .journal := by
        intro heq
        rw [heq] at hmem
        exact OrderedMap.nextKey_not_mem _ (OrderedMap.mem_keys.mpr ⟨j', hmem⟩)
      rw [Function.update_of_ne hid]
    have hnew : Function.update origin (s.nextId .journal) lines (s.table .journal).nextKey = lines :=
      Function.update_self ..
    rw [Db.glBalance_congr haccounts, amountOn_add, amountOn_unapplied, Db.table_insert_self,
      OrderedMap.total_create, hold, hnew, if_pos hposted, ← add_assoc (base a), ← h.balance a,
      add_assoc]

/-- The sum over the posted journals after one journal has changed. -/
theorem total_modify {id : Id} {j : Journal} (hj : s.find? .journal id = some j)
    (f : Journal → Journal) (a : Id) :
    (((s.modify .journal id f).table .journal).total fun id j =>
        if j.status = .posted then movementOf (origin id) a else 0) =
      ((s.table .journal).total fun id j =>
        if j.status = .posted then movementOf (origin id) a else 0) +
      ((if (f j).status = .posted then movementOf (origin id) a else 0) -
        if j.status = .posted then movementOf (origin id) a else 0) := by
  rw [Db.table_modify_self]
  exact OrderedMap.total_modify_of_some hj _ _

/-- A journal that is not posted changes, and is still not posted. -/
theorem rework (h : Applied allowed base s origin left) {id : Id} {j : Journal}
    (hj : s.find? .journal id = some j) (hopen : j.status ≠ .posted) {f : Journal → Journal}
    (hstill : (f j).status ≠ .posted) :
    Applied allowed base (s.modify .journal id f) origin left := by
  have haccounts : (s.modify .journal id f).table .gLAccount = s.table .gLAccount :=
    Db.table_modify_of_ne (by decide) _ _ _
  constructor
  · intro id' j' hj' hposted
    rw [Db.find?_modify] at hj'
    by_cases hid : id' = id
    · rw [if_pos hid, hid, hj] at hj'
      rw [← Option.some.inj hj'] at hposted
      exact absurd hposted hstill
    · rw [if_neg hid] at hj'
      exact (h.lines id' j' hj' hposted).congr (Db.category?_congr haccounts)
  · intro a
    rw [Db.glBalance_congr haccounts, total_modify hj, if_neg hopen, if_neg hstill, sub_zero, add_zero]
    exact h.balance a

/-- A journal that is not posted becomes posted, and its lines are still to be applied. -/
theorem publish (h : Applied allowed base s origin left) {id : Id} {j : Journal}
    (hj : s.find? .journal id = some j) (hopen : j.status ≠ .posted) {f : Journal → Journal}
    (hposted : (f j).status = .posted) (hlines : LinesOf allowed s (f j) lines) :
    Applied allowed base (s.modify .journal id f) (Function.update origin id lines)
      (left + unapplied lines) := by
  have haccounts : (s.modify .journal id f).table .gLAccount = s.table .gLAccount :=
    Db.table_modify_of_ne (by decide) _ _ _
  constructor
  · intro id' j' hj' hposted'
    rw [Db.find?_modify] at hj'
    by_cases hid : id' = id
    · rw [if_pos hid, hid, hj] at hj'
      rw [hid, Function.update_self, ← Option.some.inj hj']
      exact hlines.congr (Db.category?_congr haccounts)
    · rw [if_neg hid] at hj'
      rw [Function.update_of_ne hid]
      exact (h.lines id' j' hj' hposted').congr (Db.category?_congr haccounts)
  · intro a
    have hold : ((s.table .journal).total fun id' j => if j.status = .posted then
        movementOf (Function.update origin id lines id') a else 0) =
          (s.table .journal).total fun id' j =>
            if j.status = .posted then movementOf (origin id') a else 0 := by
      apply OrderedMap.total_congr
      intro id' j' hmem
      by_cases hid : id' = id
      · rw [hid] at hmem
        have hsame : j' = j :=
          Option.some.inj ((OrderedMap.get?_eq_some.mpr hmem).symm.trans hj)
        rw [hsame, if_neg hopen, if_neg hopen]
      · rw [Function.update_of_ne hid]
    rw [Db.glBalance_congr haccounts, amountOn_add, amountOn_unapplied, total_modify hj, hold,
      if_neg hopen, if_pos hposted, Function.update_self, sub_zero, ← add_assoc (base a),
      ← h.balance a, add_assoc]

/-- Some of the lines that are left are applied. -/
theorem applyEffects {xs ys : List JournalLineInput}
    (h : Applied allowed base s origin (left + unapplied (xs ++ ys)))
    (hcategory : ∀ l ∈ xs, s.category? l.accountId = some l.category) :
    Applied allowed base (s.applyEffects xs) origin (left + unapplied ys) where
  lines := fun id j hj hposted => by
    rw [Db.find?_applyEffects_of_ne (by decide)] at hj
    exact (h.lines id j hj hposted).congr (s.category?_applyEffects xs)
  balance := fun a => by
    have hbalance := Db.glBalance_applyEffects_of_category? hcategory a
    have hbefore := h.balance a
    rw [amountOn_add, amountOn_unapplied, movementOf_append] at hbefore
    rw [hbalance, Db.table_applyEffects (by decide), ← hbefore, amountOn_add, amountOn_unapplied]
    ring

end Applied

end Applied

end NexusEfos
