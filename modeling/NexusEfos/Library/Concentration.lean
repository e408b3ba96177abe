/-
How unevenly a total is shared out.

The squares of the shares sum to no less than one over their number and to no more than one.  The
differences over all pairs sum to zero if all parts are equal, and to less than the total times
twice the number of parts otherwise: two different parts differ by no more than their sum, and
there is nothing between a part and itself (`sumAbsDiff_add_le`).
-/
import Mathlib.Algebra.Order.BigOperators.Ring.List
import Mathlib.Algebra.Order.Chebyshev
import Mathlib.Algebra.BigOperators.Fin
import Mathlib.Algebra.BigOperators.Ring.List
import Mathlib.Tactic.FieldSimp
import Mathlib.Tactic.Linarith

namespace NexusEfos
namespace Concentration

variable {K : Type*} [Field K] [LinearOrder K] [IsStrictOrderedRing K]

/-! ## Shares -/

omit [LinearOrder K] [IsStrictOrderedRing K] in
theorem sum_map_div (xs : List K) (c : K) : (xs.map fun x => x / c).sum = xs.sum / c := by
  have h := List.sum_map_mul_right xs id c⁻¹
  rw [List.map_id] at h
  simp only [div_eq_mul_inv]
  exact h

theorem sum_nonneg_of_pos {xs : List K} (h : ∀ x ∈ xs, 0 < x) : 0 ≤ xs.sum :=
  List.sum_nonneg fun x hx => (h x hx).le

theorem sum_pos_of_pos {xs : List K} (hne : xs ≠ []) (h : ∀ x ∈ xs, 0 < x) : 0 < xs.sum :=
  List.sum_pos xs h hne

/-- A part is no more than the total. -/
theorem le_sum_of_pos {xs : List K} (h : ∀ x ∈ xs, 0 < x) {x : K} (hx : x ∈ xs) : x ≤ xs.sum :=
  List.single_le_sum (fun y hy => (h y hy).le) x hx

theorem sum_sq_shares_le_one {xs : List K} (hne : xs ≠ []) (h : ∀ x ∈ xs, 0 < x) :
    (xs.map fun x => (x / xs.sum) ^ 2).sum ≤ 1 := by
  have htotal := sum_pos_of_pos hne h
  calc (xs.map fun x => (x / xs.sum) ^ 2).sum
      ≤ (xs.map fun x => x / xs.sum).sum := by
        apply List.sum_le_sum
        intro x hx
        have hnonneg : 0 ≤ x / xs.sum := div_nonneg (h x hx).le htotal.le
        have hle : x / xs.sum ≤ 1 := (div_le_one htotal).mpr (le_sum_of_pos h hx)
        exact pow_le_of_le_one hnonneg hle two_ne_zero
    _ = 1 := by rw [sum_map_div, div_self htotal.ne']

/-- Cauchy and Schwarz, for lists. -/
theorem sq_sum_le_length_mul_sum_sq (xs : List K) :
    xs.sum ^ 2 ≤ xs.length * (xs.map fun x => x ^ 2).sum := by
  have h := sq_sum_le_card_mul_sum_sq (s := (Finset.univ : Finset (Fin xs.length)))
    (f := fun i => xs[i])
  have hsum := Fin.sum_univ_fun_getElem xs id
  rw [List.map_id] at hsum
  have hsquares := Fin.sum_univ_fun_getElem xs fun x => x ^ 2
  rw [Finset.card_univ, Fintype.card_fin] at h
  rw [← hsum, ← hsquares]
  exact h

theorem one_div_length_le_sum_sq_shares {xs : List K} (hne : xs ≠ []) (h : ∀ x ∈ xs, 0 < x) :
    1 / (xs.length : K) ≤ (xs.map fun x => (x / xs.sum) ^ 2).sum := by
  have htotal := sum_pos_of_pos hne h
  have hlength : (0 : K) < xs.length := Nat.cast_pos.mpr (List.length_pos_iff.mpr hne)
  have hsq := sq_sum_le_length_mul_sum_sq (xs.map fun x => x / xs.sum)
  rw [sum_map_div, div_self htotal.ne', one_pow, List.length_map, List.map_map] at hsq
  rw [div_le_iff₀' hlength]
  exact hsq

/-! ## Differences -/

/-- The differences over all ordered pairs. -/
def sumAbsDiff (xs : List K) : K := (xs.map fun x => (xs.map fun y => |x - y|).sum).sum

theorem sumAbsDiff_cons (a : K) (xs : List K) :
    sumAbsDiff (a :: xs) = sumAbsDiff xs + 2 * (xs.map fun y => |a - y|).sum := by
  unfold sumAbsDiff
  simp only [List.map_cons, List.sum_cons, List.sum_map_add, sub_self, abs_zero]
  have hsymm : (xs.map fun x => |x - a|) = xs.map fun y => |a - y| :=
    List.map_congr_left fun x _ => abs_sub_comm x a
  rw [hsymm]
  ring

omit [IsStrictOrderedRing K] in
theorem sumAbsDiff_perm {xs ys : List K} (h : xs.Perm ys) : sumAbsDiff xs = sumAbsDiff ys := by
  unfold sumAbsDiff
  rw [(h.map _).sum_eq]
  congr 1
  apply List.map_congr_left
  intro x _
  exact (h.map _).sum_eq

theorem sum_abs_sub_nonneg (a : K) (xs : List K) : 0 ≤ (xs.map fun y => |a - y|).sum := by
  apply List.sum_nonneg
  intro d hd
  obtain ⟨y, -, rfl⟩ := List.mem_map.mp hd
  exact abs_nonneg _

theorem sumAbsDiff_nonneg (xs : List K) : 0 ≤ sumAbsDiff xs := by
  induction xs with
  | nil => exact le_refl 0
  | cons a xs ih =>
    rw [sumAbsDiff_cons]
    have hrow := sum_abs_sub_nonneg a xs
    linarith

theorem sum_abs_sub_le {a : K} (ha : 0 < a) {xs : List K} (h : ∀ x ∈ xs, 0 < x) :
    (xs.map fun y => |a - y|).sum ≤ xs.length * a + xs.sum := by
  induction xs with
  | nil => simp
  | cons b xs ih =>
    have hb := h b (List.mem_cons_self ..)
    have hrest := ih fun x hx => h x (List.mem_cons_of_mem _ hx)
    have hdiff : |a - b| ≤ a + b := abs_le.mpr ⟨by linarith, by linarith⟩
    simp only [List.map_cons, List.sum_cons, List.length_cons]
    push_cast
    linarith

/-- Two different parts differ by no more than their sum. -/
theorem sumAbsDiff_add_le {xs : List K} (h : ∀ x ∈ xs, 0 < x) :
    sumAbsDiff xs + 2 * xs.sum ≤ 2 * (xs.length * xs.sum) := by
  induction xs with
  | nil => simp [sumAbsDiff]
  | cons a xs ih =>
    have hrest := ih fun x hx => h x (List.mem_cons_of_mem _ hx)
    have hrow := sum_abs_sub_le (h a (List.mem_cons_self ..)) fun x hx =>
      h x (List.mem_cons_of_mem _ hx)
    rw [sumAbsDiff_cons, List.sum_cons, List.length_cons]
    push_cast
    linarith

theorem sum_abs_sub_eq_zero_iff (a : K) (xs : List K) :
    (xs.map fun y => |a - y|).sum = 0 ↔ ∀ y ∈ xs, a = y := by
  induction xs with
  | nil => simp
  | cons b xs ih =>
    have hrow := sum_abs_sub_nonneg a xs
    rw [List.map_cons, List.sum_cons, add_eq_zero_iff_of_nonneg (abs_nonneg _) hrow, ih,
      abs_eq_zero, sub_eq_zero, List.forall_mem_cons]

theorem sumAbsDiff_eq_zero_iff (xs : List K) :
    sumAbsDiff xs = 0 ↔ ∀ x ∈ xs, ∀ y ∈ xs, x = y := by
  induction xs with
  | nil => simp [sumAbsDiff]
  | cons a xs ih =>
    have hrow := sum_abs_sub_nonneg a xs
    have hrest := sumAbsDiff_nonneg xs
    rw [sumAbsDiff_cons, add_eq_zero_iff_of_nonneg hrest (by linarith),
      mul_eq_zero_iff_left two_ne_zero, sum_abs_sub_eq_zero_iff, ih]
    constructor
    · rintro ⟨hequal, ha⟩
      simp only [List.forall_mem_cons]
      exact ⟨⟨trivial, ha⟩, fun x hx => ⟨(ha x hx).symm, hequal x hx⟩⟩
    · intro hequal
      exact ⟨fun x hx y hy => hequal x (List.mem_cons_of_mem _ hx) y (List.mem_cons_of_mem _ hy),
        fun y hy => hequal a (List.mem_cons_self ..) y (List.mem_cons_of_mem _ hy)⟩

/-! ## The first ones of a list -/

/-- More positive numbers sum to more. -/
theorem sum_take_mono {xs : List K} (h : ∀ x ∈ xs, 0 < x) {m n : ℕ} (hmn : m ≤ n) :
    (xs.take m).sum ≤ (xs.take n).sum := by
  have hprefix : xs.take m ++ (xs.take n).drop m = xs.take n := by
    have happend := List.take_append_drop m (xs.take n)
    rw [List.take_take, min_eq_left hmn] at happend
    exact happend
  rw [← hprefix, List.sum_append]
  have hrest : 0 ≤ ((xs.take n).drop m).sum :=
    sum_nonneg_of_pos fun x hx => h x (List.mem_of_mem_take (List.mem_of_mem_drop hx))
  linarith

end Concentration
end NexusEfos
