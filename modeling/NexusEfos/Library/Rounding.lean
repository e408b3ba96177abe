/-
Rounding to the nearest integer, with the two rules for the halfway points.

`round` of Mathlib sends a halfway point upwards and is what JavaScript's
`Math.round` computes.  `roundHalfAway` sends it away from zero and is what a
database does when it stores a number in a column of fixed scale.  The two agree
on the nonnegative numbers and differ at the negative halfway points, so a
program that rounds in both places can disagree with itself by one unit there.

Away from the halfway points a rounding rule commutes with the addition of an
integer (`roundHalfAway_intCast_add`).  At them `roundHalfAway` does not, and
`IsTie` names the exception.
-/
import Mathlib.Algebra.Order.Round
import Mathlib.Tactic.Linarith
import Mathlib.Tactic.NormNum
import Mathlib.Tactic.Ring

namespace NexusEfos

variable {K : Type*} [Field K] [LinearOrder K] [IsStrictOrderedRing K] [FloorRing K]

/-- The nearest integer, halfway points away from zero. -/
def roundHalfAway (x : K) : ℤ :=
  if 0 ≤ x then round x else -round (-x)

/-- The numbers halfway between two integers. -/
def IsTie (x : K) : Prop := ∃ n : ℤ, x = n + 1 / 2

/-! ## Values -/

omit [IsStrictOrderedRing K] in
theorem roundHalfAway_of_nonneg {x : K} (hx : 0 ≤ x) : roundHalfAway x = round x := if_pos hx

omit [IsStrictOrderedRing K] in
theorem roundHalfAway_of_neg {x : K} (hx : x < 0) : roundHalfAway x = -round (-x) :=
  if_neg (not_le.mpr hx)

@[simp] theorem roundHalfAway_intCast (n : ℤ) : roundHalfAway (n : K) = n := by
  unfold roundHalfAway
  split
  · exact round_intCast n
  · rw [← Int.cast_neg, round_intCast, neg_neg]

@[simp] theorem roundHalfAway_zero : roundHalfAway (0 : K) = 0 := by
  simpa using roundHalfAway_intCast (K := K) 0

theorem roundHalfAway_neg (x : K) : roundHalfAway (-x) = -roundHalfAway x := by
  rcases lt_trichotomy x 0 with h | rfl | h
  · rw [roundHalfAway_of_nonneg (neg_nonneg.mpr h.le), roundHalfAway_of_neg h, neg_neg]
  · simp
  · rw [roundHalfAway_of_neg (neg_neg_iff_pos.mpr h), roundHalfAway_of_nonneg h.le, neg_neg]

theorem round_nonneg {x : K} (hx : 0 ≤ x) : 0 ≤ round x := by
  rw [round_eq, Int.floor_nonneg]
  positivity

theorem roundHalfAway_nonneg {x : K} (hx : 0 ≤ x) : 0 ≤ roundHalfAway x := by
  rw [roundHalfAway_of_nonneg hx]
  exact round_nonneg hx

theorem round_le_round {x y : K} (h : x ≤ y) : round x ≤ round y := by
  rw [round_eq, round_eq]
  exact Int.floor_le_floor (by linarith)

theorem roundHalfAway_le_roundHalfAway {x y : K} (h : x ≤ y) :
    roundHalfAway x ≤ roundHalfAway y := by
  rcases le_or_gt 0 x with hx | hx
  · rw [roundHalfAway_of_nonneg hx, roundHalfAway_of_nonneg (hx.trans h)]
    exact round_le_round h
  · rcases le_or_gt 0 y with hy | hy
    · have hneg : 0 ≤ round (-x) := round_nonneg (neg_nonneg.mpr hx.le)
      have hpos := roundHalfAway_nonneg hy
      rw [roundHalfAway_of_neg hx]
      omega
    · rw [roundHalfAway_of_neg hx, roundHalfAway_of_neg hy]
      exact neg_le_neg (round_le_round (neg_le_neg h))

/-! ## Rounding and the addition of an integer -/

/-- An integer closer than one half is the rounded value. -/
theorem roundHalfAway_eq_of_abs_lt {x : K} {n : ℤ} (h : |x - n| < 1 / 2) :
    roundHalfAway x = n := by
  obtain ⟨hlo, hhi⟩ := abs_lt.mp h
  unfold roundHalfAway
  split
  · exact round_eq_iff.mpr ⟨by linarith, by linarith⟩
  · have : round (-x) = -n :=
      round_eq_iff.mpr ⟨by push_cast; linarith, by push_cast; linarith⟩
    rw [this, neg_neg]

theorem abs_sub_roundHalfAway_le (x : K) : |x - roundHalfAway x| ≤ 1 / 2 := by
  unfold roundHalfAway
  split
  · exact abs_sub_round x
  · have h := abs_sub_round (-x)
    rwa [← abs_neg, show -(x - ((-round (-x) : ℤ) : K)) = -x - (round (-x) : K) by
      push_cast; ring]

/-- Off the halfway points the distance to the rounded value is strict. -/
theorem abs_sub_roundHalfAway_lt {x : K} (hx : ¬ IsTie x) : |x - roundHalfAway x| < 1 / 2 := by
  refine lt_of_le_of_ne (abs_sub_roundHalfAway_le x) fun heq => hx ?_
  rcases abs_choice (x - roundHalfAway x) with h | h
  · exact ⟨roundHalfAway x, by linarith⟩
  · exact ⟨roundHalfAway x - 1, by push_cast; linarith⟩

theorem roundHalfAway_intCast_add {x : K} (hx : ¬ IsTie x) (c : ℤ) :
    roundHalfAway ((c : K) + x) = c + roundHalfAway x := by
  apply roundHalfAway_eq_of_abs_lt
  have h := abs_sub_roundHalfAway_lt hx
  rwa [show (c : K) + x - ((c + roundHalfAway x : ℤ) : K) = x - roundHalfAway x by
    push_cast; ring]

/-- On the nonnegative side the halfway points need no exception. -/
theorem roundHalfAway_intCast_add_of_nonneg {x : K} {c : ℤ} (hsum : 0 ≤ (c : K) + x) :
    roundHalfAway ((c : K) + x) = c + round x := by
  rw [roundHalfAway_of_nonneg hsum, round_intCast_add]

omit [IsStrictOrderedRing K] in
theorem not_isTie_intCast (n : ℤ) : ¬ IsTie (n : K) := by
  rintro ⟨m, hm⟩
  have h2 : ((2 * n : ℤ) : K) = ((2 * m + 1 : ℤ) : K) := by
    push_cast
    rw [hm]
    ring
  have : 2 * n = 2 * m + 1 := by exact_mod_cast h2
  omega

/-- Off the halfway points, and only there, `round` is odd. -/
theorem round_add_round_neg_eq_zero_iff {x : K} : round x + round (-x) = 0 ↔ ¬ IsTie x := by
  obtain ⟨hlo, hhi⟩ := round_eq_iff.mp (rfl : round x = round x)
  have hneg : round x + round (-x) = 0 ↔ round (-x) = -round x := by omega
  rw [hneg, round_eq_iff]
  constructor
  · intro h hx
    obtain ⟨n, hn⟩ := hx
    have hround : round x = n + 1 := by
      rw [round_eq_iff, hn]
      push_cast
      constructor <;> linarith
    have hupper := h.2
    rw [hround, hn] at hupper
    push_cast at hupper
    linarith
  · intro hx
    push_cast
    constructor
    · linarith
    · by_contra h
      apply hx
      refine ⟨round x - 1, ?_⟩
      push_cast
      linarith

/-- The only positive point that rounds to something, with a negative that rounds to nothing. -/
theorem eq_half_of_round {x : K} (hx : 0 < round x) (hneg : round (-x) = 0) : x = 1 / 2 := by
  obtain ⟨hlo, -⟩ := round_eq_iff.mp (rfl : round x = round x)
  have hone : (1 : K) ≤ round x := by exact_mod_cast hx
  have hhi := (round_eq_zero_iff.mp hneg).1
  linarith

/-! ## Shares -/

/-- Rounded shares of a number make up the rounded number exactly if it can be divided. -/
theorem mul_round_div_eq_iff {n : ℕ} (hn : 0 < n) (x : K) :
    (n : ℤ) * round (x / n) = round x ↔ (n : ℤ) ∣ round x := by
  constructor
  · intro h
    exact ⟨_, h.symm⟩
  · rintro ⟨m, hm⟩
    have hpos : (0 : K) < n := Nat.cast_pos.mpr hn
    have hone : (1 : K) ≤ n := Nat.one_le_cast.mpr hn
    obtain ⟨hlower, hupper⟩ := round_eq_iff.mp hm
    push_cast at hlower hupper
    have hshare : round (x / n) = m := by
      rw [round_eq_iff]
      constructor
      · rw [le_div_iff₀ hpos]
        nlinarith
      · rw [div_lt_iff₀ hpos]
        nlinarith
    rw [hshare, hm]

/-- A share of an integer, rounded. -/
theorem round_intCast_div (c : ℤ) {n : ℕ} (hn : 0 < n) :
    round ((c : K) / n) = c / n + if 2 * (c % n) < n then 0 else 1 := by
  have hpos : (0 : K) < n := Nat.cast_pos.mpr hn
  have hposZ : (0 : ℤ) < n := Int.natCast_pos.mpr hn
  have hr0 := Int.emod_nonneg c hposZ.ne'
  have hrn := Int.emod_lt_of_pos c hposZ
  have hdiv := Int.mul_ediv_add_emod c n
  generalize c / (n : ℤ) = q at hdiv ⊢
  generalize c % (n : ℤ) = r at hdiv hr0 hrn ⊢
  have hc : (c : K) = n * q + r := by exact_mod_cast hdiv.symm
  have hr0' : (0 : K) ≤ r := by exact_mod_cast hr0
  have hrn' : (r : K) < n := by exact_mod_cast hrn
  rw [round_eq_iff, hc, Set.mem_Ico, le_div_iff₀ hpos, div_lt_iff₀ hpos]
  split
  · next h =>
    have h' : 2 * (r : K) < n := by exact_mod_cast h
    push_cast
    constructor <;> nlinarith
  · next h =>
    have h' : (n : K) ≤ 2 * r := by exact_mod_cast not_lt.mp h
    push_cast
    constructor <;> nlinarith

end NexusEfos
