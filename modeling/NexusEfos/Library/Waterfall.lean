/-
Filling vessels one after the other.

`fill as c` pours `c` into vessels that hold `as`, and says how much goes into each: a vessel gets
what there is left until it is full, and only then the next one gets anything.  Nothing is lost
(`sum_fill`), and pouring twice is pouring once (`fill_add`).
-/
import Mathlib.Algebra.Order.BigOperators.Group.List
import Mathlib.Algebra.Order.Group.Defs
import Mathlib.Algebra.Order.Group.MinMax
import Mathlib.Tactic.Abel

namespace NexusEfos.Waterfall

variable {M : Type*} [AddCommGroup M] [LinearOrder M]

def fill : List M → M → List M
  | [], _ => []
  | a :: as, c => min c a :: fill as (c - min c a)

@[simp] theorem fill_nil (c : M) : fill [] c = [] := rfl

@[simp] theorem fill_cons (a : M) (as : List M) (c : M) :
    fill (a :: as) c = min c a :: fill as (c - min c a) := rfl

@[simp] theorem length_fill (as : List M) (c : M) : (fill as c).length = as.length := by
  induction as generalizing c with
  | nil => rfl
  | cons a as ih => rw [fill_cons, List.length_cons, ih, List.length_cons]

variable [IsOrderedAddMonoid M] {as : List M} {c d : M}

theorem fill_nonneg (has : ∀ a ∈ as, 0 ≤ a) (hc : 0 ≤ c) : ∀ x ∈ fill as c, 0 ≤ x := by
  induction as generalizing c with
  | nil => exact fun x hx => absurd hx List.not_mem_nil
  | cons a as ih =>
    intro x hx
    rcases List.mem_cons.mp hx with rfl | hx
    · exact le_min hc (has a (List.mem_cons_self ..))
    · exact ih (fun b hb => has b (List.mem_cons_of_mem a hb)) (sub_nonneg.mpr (min_le_left c a)) x hx

omit [IsOrderedAddMonoid M] in
/-- No vessel gets more than it holds. -/
theorem fill_le (as : List M) (c : M) : List.Forall₂ (· ≤ ·) (fill as c) as := by
  induction as generalizing c with
  | nil => exact .nil
  | cons a as ih => exact .cons (min_le_right c a) (ih _)

/-- What is poured goes into the vessels as far as they hold it. -/
theorem sum_fill (has : ∀ a ∈ as, 0 ≤ a) (hc : 0 ≤ c) : (fill as c).sum = min c as.sum := by
  induction as generalizing c with
  | nil => rw [fill_nil, List.sum_nil, min_eq_right hc]
  | cons a as ih =>
    have hrest : ∀ b ∈ as, 0 ≤ b := fun b hb => has b (List.mem_cons_of_mem a hb)
    rw [fill_cons, List.sum_cons, ih hrest (sub_nonneg.mpr (min_le_left c a)), List.sum_cons]
    rcases le_total c a with h | h
    · have hsum : c ≤ a + as.sum := le_add_of_le_of_nonneg h (List.sum_nonneg hrest)
      rw [min_eq_left h, sub_self, min_eq_left (List.sum_nonneg hrest), add_zero, min_eq_left hsum]
    · rw [min_eq_right h, ← min_add_add_left, add_sub_cancel]

/-- Pouring twice, the second time into what is left of the vessels, is pouring once. -/
theorem fill_add (has : ∀ a ∈ as, 0 ≤ a) (hc : 0 ≤ c) (hd : 0 ≤ d) :
    fill as (c + d) =
      List.zipWith (· + ·) (fill as c) (fill (List.zipWith (· - ·) as (fill as c)) d) := by
  induction as generalizing c d with
  | nil => rfl
  | cons a as ih =>
    have hrest : ∀ b ∈ as, 0 ≤ b := fun b hb => has b (List.mem_cons_of_mem a hb)
    rw [fill_cons, fill_cons, List.zipWith_cons_cons, fill_cons, List.zipWith_cons_cons]
    have hfirst : min (c + d) a = min c a + min d (a - min c a) := by
      rcases le_total c a with h | h
      · rw [min_eq_left h, ← min_add_add_left, add_sub_cancel]
      · have hzero : min d 0 = 0 := min_eq_right hd
        rw [min_eq_right h, sub_self, hzero, add_zero, min_eq_right (le_add_of_le_of_nonneg h hd)]
    have hleft : c + d - min (c + d) a = c - min c a + (d - min d (a - min c a)) := by
      rw [hfirst]
      abel
    rw [hleft, hfirst, ih hrest (sub_nonneg.mpr (min_le_left ..)) (sub_nonneg.mpr (min_le_left ..))]

end NexusEfos.Waterfall
