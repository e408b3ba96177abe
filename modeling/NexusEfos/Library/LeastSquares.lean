/-
The line of least squares through points.

The error of a line is a quadratic form in its slope and its intercept, and the coefficients are
sums over the points (`squaredError_eq`).  A line that satisfies the two normal equations has the
least error, since any other one adds the sum of the squared distances between the two lines
(`IsFit.le`).  Through points that are not all above one another there is exactly one such line,
and `slope` and `intercept` find it.
-/
import Mathlib.Algebra.Order.BigOperators.Group.List
import Mathlib.Algebra.Order.Ring.Cast
import Mathlib.Tactic.FieldSimp
import Mathlib.Tactic.LinearCombination
import Mathlib.Tactic.Linarith
import Mathlib.Tactic.Ring

namespace NexusEfos
namespace LeastSquares

variable {K : Type*} [Field K]

/-! ## Sums over the points -/

section Sums

variable (points : List (K × K))

def sumX : K := (points.map Prod.fst).sum

def sumY : K := (points.map Prod.snd).sum

def sumXY : K := (points.map fun p => p.1 * p.2).sum

def sumXX : K := (points.map fun p => p.1 * p.1).sum

def sumYY : K := (points.map fun p => p.2 * p.2).sum

def denominator : K := points.length * sumXX points - sumX points * sumX points

def slope : K :=
  (points.length * sumXY points - sumX points * sumY points) / denominator points

def intercept : K := (sumY points - slope points * sumX points) / points.length

/-- The sum of the squared errors of a line. -/
def squaredError (b a : K) : K := (points.map fun p => (p.2 - (a + b * p.1)) ^ 2).sum

/-- The sum of the squared values of a line. -/
def squaredLine (b a : K) : K := (points.map fun p => (a + b * p.1) ^ 2).sum

end Sums

variable {points : List (K × K)}

theorem squaredError_eq (points : List (K × K)) (b a : K) :
    squaredError points b a = sumYY points - 2 * a * sumY points - 2 * b * sumXY points +
      (points.length * a ^ 2 + 2 * a * b * sumX points + b ^ 2 * sumXX points) := by
  unfold squaredError sumYY sumY sumXY sumX sumXX
  induction points with
  | nil => simp
  | cons p points ih =>
    simp only [List.map_cons, List.sum_cons, List.length_cons]
    push_cast
    rw [ih]
    ring

theorem squaredLine_eq (points : List (K × K)) (b a : K) :
    squaredLine points b a =
      points.length * a ^ 2 + 2 * a * b * sumX points + b ^ 2 * sumXX points := by
  unfold squaredLine sumX sumXX
  induction points with
  | nil => simp
  | cons p points ih =>
    simp only [List.map_cons, List.sum_cons, List.length_cons]
    push_cast
    rw [ih]
    ring

/-! ## The normal equations -/

/-- The two normal equations of a line with a slope and an intercept. -/
structure IsFit (points : List (K × K)) (b a : K) : Prop where
  sumY : sumY points = points.length * a + b * sumX points
  sumXY : sumXY points = a * sumX points + b * sumXX points

theorem isFit_slope_intercept (hlength : (points.length : K) ≠ 0)
    (hdenominator : denominator points ≠ 0) :
    IsFit points (slope points) (intercept points) := by
  have hb : slope points * denominator points =
      points.length * LeastSquares.sumXY points - LeastSquares.sumX points *
        LeastSquares.sumY points := div_mul_cancel₀ _ hdenominator
  have ha : intercept points * points.length =
      LeastSquares.sumY points - slope points * LeastSquares.sumX points :=
    div_mul_cancel₀ _ hlength
  constructor
  · linear_combination -ha
  · apply mul_left_cancel₀ hlength
    unfold denominator at hb
    linear_combination -LeastSquares.sumX points * ha - hb

/-- There is one line that satisfies them. -/
theorem IsFit.unique {b a : K} (h : IsFit points b a) (hlength : (points.length : K) ≠ 0)
    (hdenominator : denominator points ≠ 0) :
    slope points = b ∧ intercept points = a := by
  have hb : slope points = b := by
    rw [slope, div_eq_iff hdenominator, denominator]
    linear_combination (points.length : K) * h.sumXY - LeastSquares.sumX points * h.sumY
  constructor
  · exact hb
  · rw [intercept, div_eq_iff hlength, hb]
    linear_combination h.sumY

/-- Points on a line are fitted by it. -/
theorem isFit_of_forall {b a : K} (h : ∀ p ∈ points, p.2 = a + b * p.1) : IsFit points b a := by
  induction points with
  | nil =>
    constructor
    · simp [sumY, sumX]
    · simp [sumXY, sumX, sumXX]
  | cons p points ih =>
    have hp := h p (List.mem_cons_self ..)
    have hrest := ih fun q hq => h q (List.mem_cons_of_mem _ hq)
    have hY := hrest.sumY
    have hXY := hrest.sumXY
    simp only [sumY, sumX, sumXY, sumXX] at hY hXY
    constructor
    · simp only [sumY, sumX, List.map_cons, List.sum_cons, List.length_cons]
      push_cast
      linear_combination hY + hp
    · simp only [sumXY, sumX, sumXX, List.map_cons, List.sum_cons]
      linear_combination hXY + p.1 * hp

/-! ## The least error -/

/-- Another line adds the squared distances from the one that fits. -/
theorem IsFit.squaredError_eq_add {b a : K} (h : IsFit points b a) (b' a' : K) :
    squaredError points b' a' = squaredError points b a + squaredLine points (b' - b) (a' - a) := by
  rw [squaredError_eq, squaredError_eq, squaredLine_eq]
  linear_combination -2 * (a' - a) * h.sumY - 2 * (b' - b) * h.sumXY

theorem IsFit.le [LinearOrder K] [IsStrictOrderedRing K] {b a : K} (h : IsFit points b a)
    (b' a' : K) : squaredError points b a ≤ squaredError points b' a' := by
  have hnonneg : 0 ≤ squaredLine points (b' - b) (a' - a) := by
    apply List.sum_nonneg
    intro d hd
    obtain ⟨p, -, rfl⟩ := List.mem_map.mp hd
    exact sq_nonneg _
  rw [h.squaredError_eq_add b' a']
  linarith

end LeastSquares
end NexusEfos
