/-
Amounts of money, as the program and its database hold them.

A JavaScript number is an exact rational here.  A `Decimal(_, 2)` column holds a
whole number of cents, so its model is an integer.  `toNumber` is the program's
`Number(row.amount)`, `ofNumber` is what the database does to a number it stores
in such a column, and `increment` is the column update
`{ increment: x }`, which adds first and rounds afterwards.

A number that is a whole number of cents passes through all of these unchanged.
Everything in this file is a form of that remark, and of what is left of it for
numbers that are not whole cents.
-/
import NexusEfos.Library.Rounding
import Mathlib.Algebra.BigOperators.Group.List.Basic
import Mathlib.Data.Rat.Floor

namespace NexusEfos

/-- Primary keys. -/
abbrev Id := ℕ

/-- A point in time, in milliseconds. -/
abbrev DateTime := ℤ

/-- The value of a `Decimal(_, 2)` column. -/
abbrev Cents := ℤ

/-- `Number(decimal)`. -/
def toNumber (c : Cents) : ℚ := c / 100

/-- The value of a `Decimal(_, 2)` column after a number is stored in it. -/
def ofNumber (x : ℚ) : Cents := roundHalfAway (x * 100)

/-- The value of a `Decimal(_, 2)` column after `{ increment: x }`. -/
def increment (c : Cents) (x : ℚ) : Cents := ofNumber (toNumber c + x)

/-- `Math.round(n * 100) / 100`. -/
def round2 (n : ℚ) : ℚ := round (n * 100) / 100

/-- A whole number of cents. -/
def WholeCent (x : ℚ) : Prop := ∃ c : Cents, x = toNumber c

/-- An odd number of half cents, which the database rounds away from zero. -/
def IsHalfCent (x : ℚ) : Prop := IsTie (x * 100)

instance (x : ℚ) : Decidable (IsHalfCent x) :=
  decidable_of_iff ((x * 100 - 1 / 2).den = 1) <| by
    rw [Rat.den_eq_one_iff]
    constructor
    · intro h
      exact ⟨_, by rw [h]; ring⟩
    · intro h
      obtain ⟨n, hn⟩ := h
      rw [hn, add_sub_cancel_right, Rat.num_intCast]

/-! ## Whole cents -/

theorem toNumber_mul_hundred (c : Cents) : toNumber c * 100 = c := by
  unfold toNumber
  norm_num

@[simp] theorem toNumber_zero : toNumber 0 = 0 := by norm_num [toNumber]

theorem toNumber_add (a b : Cents) : toNumber (a + b) = toNumber a + toNumber b := by
  unfold toNumber
  push_cast
  ring

theorem toNumber_sub (a b : Cents) : toNumber (a - b) = toNumber a - toNumber b := by
  unfold toNumber
  push_cast
  ring

theorem toNumber_neg (a : Cents) : toNumber (-a) = -toNumber a := by
  unfold toNumber
  push_cast
  ring

theorem toNumber_le {a b : Cents} : toNumber a ≤ toNumber b ↔ a ≤ b := by
  rw [← Int.cast_le (R := ℚ), ← toNumber_mul_hundred a, ← toNumber_mul_hundred b]
  constructor <;> intro h <;> linarith

theorem toNumber_lt {a b : Cents} : toNumber a < toNumber b ↔ a < b := by
  rw [← not_le, ← not_le, toNumber_le]

theorem toNumber_inj {a b : Cents} : toNumber a = toNumber b ↔ a = b := by
  rw [le_antisymm_iff, le_antisymm_iff, toNumber_le, toNumber_le]

@[simp] theorem toNumber_eq_zero {a : Cents} : toNumber a = 0 ↔ a = 0 := by
  rw [← toNumber_zero, toNumber_inj]

@[simp] theorem toNumber_pos {a : Cents} : 0 < toNumber a ↔ 0 < a := by
  rw [← toNumber_zero, toNumber_lt]

@[simp] theorem toNumber_nonneg {a : Cents} : 0 ≤ toNumber a ↔ 0 ≤ a := by
  rw [← toNumber_zero, toNumber_le]

theorem toNumber_sum (cs : List Cents) : toNumber cs.sum = (cs.map toNumber).sum := by
  induction cs with
  | nil => exact toNumber_zero
  | cons c cs ih => rw [List.sum_cons, toNumber_add, ih, List.map_cons, List.sum_cons]

@[simp] theorem ofNumber_toNumber (c : Cents) : ofNumber (toNumber c) = c := by
  rw [ofNumber, toNumber_mul_hundred, roundHalfAway_intCast]

@[simp] theorem ofNumber_zero : ofNumber 0 = 0 := by
  rw [← toNumber_zero, ofNumber_toNumber]

@[simp] theorem round2_toNumber (c : Cents) : round2 (toNumber c) = toNumber c := by
  rw [round2, toNumber_mul_hundred, round_intCast, toNumber]

theorem ofNumber_neg (x : ℚ) : ofNumber (-x) = -ofNumber x := by
  rw [ofNumber, ofNumber, neg_mul, roundHalfAway_neg]

theorem ofNumber_nonneg {x : ℚ} (hx : 0 ≤ x) : 0 ≤ ofNumber x :=
  roundHalfAway_nonneg (by positivity)

theorem ofNumber_le_ofNumber {x y : ℚ} (h : x ≤ y) : ofNumber x ≤ ofNumber y :=
  roundHalfAway_le_roundHalfAway (by linarith)

/-- `round2` always answers with whole cents. -/
theorem round2_eq_toNumber (n : ℚ) : round2 n = toNumber (round (n * 100)) := rfl

theorem round2_le_round2 {x y : ℚ} (h : x ≤ y) : round2 x ≤ round2 y := by
  rw [round2_eq_toNumber, round2_eq_toNumber, toNumber_le]
  apply round_le_round
  linarith

theorem abs_round2_sub_le (x : ℚ) : |round2 x - x| ≤ 5 / 1000 := by
  have h := abs_sub_round (x * 100)
  have hround : round2 x = round (x * 100) / 100 := rfl
  obtain ⟨hlo, hhi⟩ := abs_le.mp h
  rw [hround, abs_le]
  constructor <;> linarith

theorem wholeCent_toNumber (c : Cents) : WholeCent (toNumber c) := ⟨c, rfl⟩

theorem wholeCent_round2 (n : ℚ) : WholeCent (round2 n) := ⟨round (n * 100), rfl⟩

namespace WholeCent

variable {x y : ℚ}

theorem zero : WholeCent 0 := ⟨0, toNumber_zero.symm⟩

theorem add (hx : WholeCent x) (hy : WholeCent y) : WholeCent (x + y) := by
  obtain ⟨a, rfl⟩ := hx
  obtain ⟨b, rfl⟩ := hy
  exact ⟨a + b, (toNumber_add a b).symm⟩

theorem neg (hx : WholeCent x) : WholeCent (-x) := by
  obtain ⟨a, rfl⟩ := hx
  exact ⟨-a, (toNumber_neg a).symm⟩

theorem sub (hx : WholeCent x) (hy : WholeCent y) : WholeCent (x - y) := by
  rw [sub_eq_add_neg]
  exact hx.add hy.neg

theorem min (hx : WholeCent x) (hy : WholeCent y) : WholeCent (min x y) := by
  rcases min_choice x y with h | h
  · rwa [h]
  · rwa [h]

theorem max (hx : WholeCent x) (hy : WholeCent y) : WholeCent (max x y) := by
  rcases max_choice x y with h | h
  · rwa [h]
  · rwa [h]

theorem sum {xs : List ℚ} (h : ∀ x ∈ xs, WholeCent x) : WholeCent xs.sum := by
  induction xs with
  | nil => exact zero
  | cons x xs ih =>
    rw [List.forall_mem_cons] at h
    rw [List.sum_cons]
    exact h.1.add (ih h.2)

theorem toNumber_ofNumber (hx : WholeCent x) : toNumber (ofNumber x) = x := by
  obtain ⟨a, rfl⟩ := hx
  rw [NexusEfos.ofNumber_toNumber]

theorem round2_eq (hx : WholeCent x) : round2 x = x := by
  obtain ⟨a, rfl⟩ := hx
  exact round2_toNumber a

/-- Adding whole cents to a stored amount needs no rounding. -/
theorem ofNumber_toNumber_add (hx : WholeCent x) (c : Cents) :
    ofNumber (toNumber c + x) = c + ofNumber x := by
  obtain ⟨a, rfl⟩ := hx
  rw [← toNumber_add, NexusEfos.ofNumber_toNumber, NexusEfos.ofNumber_toNumber]

theorem ofNumber_toNumber_sub (hx : WholeCent x) (c : Cents) :
    ofNumber (toNumber c - x) = c - ofNumber x := by
  obtain ⟨a, rfl⟩ := hx
  rw [← toNumber_sub, NexusEfos.ofNumber_toNumber, NexusEfos.ofNumber_toNumber]

theorem not_isHalfCent (hx : WholeCent x) : ¬ IsHalfCent x := by
  obtain ⟨a, rfl⟩ := hx
  rw [IsHalfCent, toNumber_mul_hundred]
  exact not_isTie_intCast a

end WholeCent

/-! ## Column updates -/

/-- Off the half cents an increment adds the rounded amount. -/
theorem increment_of_not_isHalfCent {x : ℚ} (hx : ¬ IsHalfCent x) (c : Cents) :
    increment c x = c + ofNumber x := by
  rw [increment, ofNumber, add_mul, toNumber_mul_hundred, roundHalfAway_intCast_add hx, ofNumber]

/-- An increment that does not end below zero rounds halfway points up. -/
theorem increment_eq_add_round {x : ℚ} {c : Cents} (h : 0 ≤ toNumber c + x) :
    increment c x = c + round (x * 100) := by
  have hsum : (0 : ℚ) ≤ c + x * 100 := by
    have hc := toNumber_mul_hundred c
    linarith
  rw [increment, ofNumber, add_mul, toNumber_mul_hundred,
    roundHalfAway_intCast_add_of_nonneg hsum]

theorem increment_of_nonneg {x : ℚ} (hx : 0 ≤ x) {c : Cents} (h : 0 ≤ toNumber c + x) :
    increment c x = c + ofNumber x := by
  rw [increment_eq_add_round h, ofNumber, roundHalfAway_of_nonneg (by positivity)]

theorem increment_of_wholeCent {x : ℚ} (hx : WholeCent x) (c : Cents) :
    increment c x = c + ofNumber x := increment_of_not_isHalfCent hx.not_isHalfCent c

@[simp] theorem increment_toNumber (c d : Cents) : increment c (toNumber d) = c + d := by
  rw [increment_of_wholeCent (wholeCent_toNumber d), ofNumber_toNumber]

end NexusEfos
