/-
Double entry.

An account grows on one side, its `Side`, and an entry puts an amount on the
debit side and an amount on the credit side of one account.  `Entry.effect` is
what the entry does to the balance of its account.  The content of the file is
one identity: an effect, counted with the sign of its account's side, is the
debit minus the credit (`Side.sign_effect`).  Summed over any list of entries it
says that the debit-side accounts and the credit-side accounts move apart by
total debits minus total credits, and so stay level when the list is balanced.

Amounts live in any commutative group and accounts in any type.
-/
import Mathlib.Algebra.BigOperators.Group.List.Basic
import Mathlib.Algebra.BigOperators.Group.Finset.Basic
import Mathlib.Tactic.Abel

namespace NexusEfos
namespace DoubleEntry

/-- The side on which an account grows. -/
inductive Side
  | debit
  | credit
  deriving DecidableEq

/-- An amount, counted positively on the debit side. -/
def Side.sign {G : Type*} [AddCommGroup G] : Side → G → G
  | .debit, x => x
  | .credit, x => -x

/-- A debit and a credit on one account. -/
structure Entry (α G : Type*) where
  account : α
  debit : G
  credit : G

variable {α G : Type*} [AddCommGroup G] {side : α → Side}

/-- What an entry does to the balance of its account. -/
def Entry.effect (side : α → Side) (e : Entry α G) : G :=
  match side e.account with
  | .debit => e.debit - e.credit
  | .credit => e.credit - e.debit

@[simp] theorem Side.sign_zero (s : Side) : s.sign (0 : G) = 0 := by
  cases s with
  | debit => rfl
  | credit => exact neg_zero

theorem Side.sign_add (s : Side) (x y : G) : s.sign (x + y) = s.sign x + s.sign y := by
  cases s with
  | debit => rfl
  | credit => exact neg_add x y

/-- Counted with the sign of its side, an effect is debit minus credit. -/
theorem Side.sign_effect (e : Entry α G) :
    (side e.account).sign (e.effect side) = e.debit - e.credit := by
  unfold Entry.effect
  cases side e.account with
  | debit => rfl
  | credit => exact neg_sub e.credit e.debit

/-- The entries of a list carry as much on the one side as on the other. -/
def Balanced (es : List (Entry α G)) : Prop :=
  (es.map Entry.debit).sum = (es.map Entry.credit).sum

theorem sum_debit_sub_credit (es : List (Entry α G)) :
    (es.map fun e => e.debit - e.credit).sum =
      (es.map Entry.debit).sum - (es.map Entry.credit).sum := by
  induction es with
  | nil => simp
  | cons e es ih =>
    simp only [List.map_cons, List.sum_cons, ih]
    abel

theorem Balanced.sum_eq_zero {es : List (Entry α G)} (h : Balanced es) :
    (es.map fun e => e.debit - e.credit).sum = 0 := by
  rw [sum_debit_sub_credit, h, sub_self]

theorem Balanced.flatMap {β : Type*} {f : β → List (Entry α G)} {xs : List β}
    (h : ∀ x ∈ xs, Balanced (f x)) : Balanced (xs.flatMap f) := by
  unfold Balanced
  rw [List.map_flatMap, List.map_flatMap, List.flatMap_def, List.flatMap_def, List.sum_flatten,
    List.sum_flatten, List.map_map, List.map_map]
  congr 1
  exact List.map_congr_left h

variable [DecidableEq α]

/-- What a list of entries does to the balance of one account. -/
def movement (side : α → Side) (es : List (Entry α G)) (a : α) : G :=
  (es.map fun e => if e.account = a then e.effect side else 0).sum

@[simp] theorem movement_nil (a : α) : movement side ([] : List (Entry α G)) a = 0 := rfl

@[simp] theorem movement_cons (e : Entry α G) (es : List (Entry α G)) (a : α) :
    movement side (e :: es) a =
      (if e.account = a then e.effect side else 0) + movement side es a := by
  simp [movement]

theorem movement_append (es fs : List (Entry α G)) (a : α) :
    movement side (es ++ fs) a = movement side es a + movement side fs a := by
  simp [movement]

theorem movement_flatMap {β : Type*} (f : β → List (Entry α G)) (xs : List β) (a : α) :
    movement side (xs.flatMap f) a = (xs.map fun x => movement side (f x) a).sum := by
  induction xs with
  | nil => rfl
  | cons x xs ih => rw [List.flatMap_cons, movement_append, ih, List.map_cons, List.sum_cons]

theorem movement_eq_zero {es : List (Entry α G)} {a : α} (h : ∀ e ∈ es, e.account ≠ a) :
    movement side es a = 0 := by
  apply List.sum_eq_zero
  intro x hx
  obtain ⟨e, he, rfl⟩ := List.mem_map.mp hx
  exact if_neg (h e he)

/-- What a list of entries puts on one account, debits minus credits. -/
def netOn (es : List (Entry α G)) (a : α) : G :=
  (es.map fun e => if e.account = a then e.debit - e.credit else 0).sum

theorem netOn_append (es fs : List (Entry α G)) (a : α) :
    netOn (es ++ fs) a = netOn es a + netOn fs a := by
  simp [netOn]

theorem netOn_eq_zero {es : List (Entry α G)} {a : α} (h : ∀ e ∈ es, e.account ≠ a) :
    netOn es a = 0 := by
  apply List.sum_eq_zero
  intro x hx
  obtain ⟨e, he, rfl⟩ := List.mem_map.mp hx
  exact if_neg (h e he)

/-- Counted with the sign of the account's side, a movement is debits minus credits. -/
theorem sign_movement (es : List (Entry α G)) (a : α) :
    (side a).sign (movement side es a) = netOn es a := by
  induction es with
  | nil => exact Side.sign_zero _
  | cons e es ih =>
    rw [movement_cons, Side.sign_add, ih]
    unfold netOn
    rw [List.map_cons, List.sum_cons]
    congr 1
    by_cases h : e.account = a
    · rw [if_pos h, if_pos h, ← h, Side.sign_effect]
    · rw [if_neg h, if_neg h, Side.sign_zero]

theorem Side.sign_eq_zero (s : Side) {x : G} : s.sign x = 0 ↔ x = 0 := by
  cases s with
  | debit => rfl
  | credit => exact neg_eq_zero

/-- Two movements of an account that keeps its side cancel exactly if the debits on it are the
credits on it. -/
theorem movement_add_eq_zero {side' : α → Side} {es fs : List (Entry α G)} {a : α}
    (h : side' a = side a) :
    movement side es a + movement side' fs a = 0 ↔ netOn (es ++ fs) a = 0 := by
  have hes : (side a).sign (movement side es a) = netOn es a := sign_movement es a
  have hfs : (side' a).sign (movement side' fs a) = netOn fs a := sign_movement fs a
  rw [h] at hfs
  rw [netOn_append, ← hes, ← hfs, ← Side.sign_add, Side.sign_eq_zero]

/-- Over any finite set of accounts that contains those of the list, the signed
movements add up to debits minus credits. -/
theorem sum_sign_movement {es : List (Entry α G)} {accounts : Finset α}
    (h : ∀ e ∈ es, e.account ∈ accounts) :
    ∑ a ∈ accounts, (side a).sign (movement side es a) =
      (es.map fun e => e.debit - e.credit).sum := by
  induction es with
  | nil => simp
  | cons e es ih =>
    have hrest := ih fun f hf => h f (List.mem_cons_of_mem e hf)
    have hhead : ∑ a ∈ accounts,
        (side a).sign (if e.account = a then e.effect side else (0 : G)) = e.debit - e.credit := by
      rw [Finset.sum_eq_single e.account]
      · rw [if_pos rfl, Side.sign_effect]
      · intro a _ hne
        rw [if_neg (Ne.symm hne), Side.sign_zero]
      · intro hnot
        exact absurd (h e (List.mem_cons_self ..)) hnot
    simp only [movement_cons, Side.sign_add, Finset.sum_add_distrib, hhead, hrest, List.map_cons,
      List.sum_cons]

/-- A balanced list moves both sides by the same amount. -/
theorem Balanced.sum_sign_movement {es : List (Entry α G)} (hes : Balanced es)
    {accounts : Finset α} (h : ∀ e ∈ es, e.account ∈ accounts) :
    ∑ a ∈ accounts, (side a).sign (movement side es a) = 0 := by
  rw [DoubleEntry.sum_sign_movement h, hes.sum_eq_zero]

end DoubleEntry
end NexusEfos
