/-
Concentration of the loans: `GET /concentration` of `routes/capitalAdequacy.routes.ts`.

The exposures are what the customers of an institution owe, customer by customer.  The metrics are
kept before rounding, and the report rounds them.
-/
import NexusEfos.Library.Concentration
import NexusEfos.Prisma

namespace NexusEfos

open Concentration

/-! ## The metrics -/

section Metrics

variable (exposures : List ℚ)

/-- The sum of the squared shares. -/
def concentrationHHI : ℚ := (exposures.map fun v => (v / exposures.sum) ^ 2).sum

/-- The mean difference of two exposures, over twice their mean. -/
def concentrationGini : ℚ :=
  let sorted := exposures.insertionSort fun a b => a ≤ b
  let n : ℚ := sorted.length
  let mean := exposures.sum / n
  if 1 < sorted.length then sumAbsDiff sorted / (2 * n * n * mean) else 0

/-- The share of the largest exposures, in percent. -/
def concentrationRatioAt (topN : ℕ) : ℚ :=
  let descSorted := exposures.insertionSort fun a b => b ≤ a
  (descSorted.take topN).sum / exposures.sum * 100

end Metrics

structure ConcentrationReport where
  hhi : ℚ
  gini : ℚ
  concentrationRatios : List (ℕ × ℚ)
  exposureCount : ℕ
  totalOutstanding : ℚ

def concentrationReport (exposures : List ℚ) : ConcentrationReport :=
  if exposures.sum = 0 ∨ exposures.length = 0 then
    { hhi := 0, gini := 0, concentrationRatios := [], exposureCount := 0, totalOutstanding := 0 }
  else
    { hhi := round2 (concentrationHHI exposures * 10000) / 10000
      gini := if 1 < exposures.length then round2 (concentrationGini exposures * 10000) / 10000
        else 0
      concentrationRatios := [5, 10, 20, 25, 50, 75].map fun topN =>
        (topN, round2 (concentrationRatioAt exposures topN))
      exposureCount := exposures.length
      totalOutstanding := round2 exposures.sum }

/-! ## The exposures -/

/-- A loan with what has been paid on its installments. -/
structure ExposureLoan where
  customerId : Id
  principal : Cents
  principalPaid : List Cents

def ExposureLoan.outstanding (l : ExposureLoan) : ℚ :=
  max 0 (round2 (toNumber l.principal - (l.principalPaid.map toNumber).sum))

/-- The map from customers to what they owe. -/
def byCustomer (loans : List ExposureLoan) : OrderedMap Id ℚ :=
  OrderedMap.empty.accumulate ExposureLoan.customerId (fun owed l => owed.getD 0 + l.outstanding)
    loans

def exposuresOf (loans : List ExposureLoan) : List ℚ :=
  (byCustomer loans).values.filter fun v => 0 < v

/-- The outstanding loans of an institution. -/
def Db.exposureLoans (s : Db) (institutionId : Id) : List ExposureLoan :=
  ((s.table .loan).entries.filter fun l => l.2.institutionId = institutionId ∧
    l.2.status ∈ [LoanStatus.disbursed, .active, .defaulted]).map fun l =>
      { customerId := l.2.customerId, principal := l.2.principal,
        principalPaid := ((s.table .loanInstallment).values.filter fun i =>
          i.loanId = l.1).map LoanInstallment.principalPaid }

/-- `GET /concentration`. -/
def concentration (institutionId : Id) : Handler ConcentrationReport := do
  let loans ← query fun s => s.exposureLoans institutionId
  return concentrationReport (exposuresOf loans)

/-- The report is about positive exposures. -/
theorem pos_of_mem_exposuresOf {loans : List ExposureLoan} {v : ℚ} (h : v ∈ exposuresOf loans) :
    0 < v := of_decide_eq_true (List.mem_filter.mp h).2

theorem run_concentration (institutionId : Id) (s : Db) :
    ∃ exposures, (∀ v ∈ exposures, 0 < v) ∧
      (concentration institutionId).run s = (.ok (concentrationReport exposures), s) :=
  ⟨exposuresOf (s.exposureLoans institutionId), fun _ => pos_of_mem_exposuresOf, rfl⟩

/-! ## The ranges -/

section Ranges

variable {exposures : List ℚ}

theorem length_pos_of_ne_nil (hne : exposures ≠ []) : (0 : ℚ) < exposures.length :=
  Nat.cast_pos.mpr (List.length_pos_iff.mpr hne)

/-- The coefficient over twice the number and the total.  For a single exposure both are zero. -/
theorem concentrationGini_eq (hne : exposures ≠ []) :
    concentrationGini exposures = sumAbsDiff exposures / (2 * exposures.length * exposures.sum) := by
  have hlength := length_pos_of_ne_nil hne
  have hperm := List.perm_insertionSort (fun a b : ℚ => a ≤ b) exposures
  unfold concentrationGini
  simp only [hperm.length_eq, sumAbsDiff_perm hperm]
  by_cases hmany : 1 < exposures.length
  · rw [if_pos hmany]
    congr 1
    field_simp
  · rw [if_neg hmany]
    match exposures, hne, hmany with
    | [x], _, _ => simp [sumAbsDiff]
    | _ :: _ :: _, _, hmany => exact absurd (by simp) hmany

theorem concentrationGini_nonneg (hne : exposures ≠ []) (hpos : ∀ x ∈ exposures, 0 < x) :
    0 ≤ concentrationGini exposures := by
  have hlength := length_pos_of_ne_nil hne
  have htotal := sum_pos_of_pos hne hpos
  rw [concentrationGini_eq hne]
  exact div_nonneg (sumAbsDiff_nonneg _) (by positivity)

theorem concentrationGini_le (hne : exposures ≠ []) (hpos : ∀ x ∈ exposures, 0 < x) :
    concentrationGini exposures ≤ (exposures.length - 1) / exposures.length := by
  have hlength := length_pos_of_ne_nil hne
  have htotal := sum_pos_of_pos hne hpos
  have hsum := sumAbsDiff_add_le hpos
  rw [concentrationGini_eq hne, div_le_div_iff₀ (by positivity) hlength]
  calc sumAbsDiff exposures * exposures.length
      ≤ (2 * (exposures.length * exposures.sum) - 2 * exposures.sum) * exposures.length := by
        apply mul_le_mul_of_nonneg_right _ hlength.le
        linarith
    _ = (exposures.length - 1) * (2 * exposures.length * exposures.sum) := by ring

theorem concentrationGini_eq_zero_iff (hne : exposures ≠ []) (hpos : ∀ x ∈ exposures, 0 < x) :
    concentrationGini exposures = 0 ↔ ∀ x ∈ exposures, ∀ y ∈ exposures, x = y := by
  have hlength := length_pos_of_ne_nil hne
  have htotal := sum_pos_of_pos hne hpos
  have hscale : 2 * (exposures.length : ℚ) * exposures.sum ≠ 0 := by positivity
  rw [concentrationGini_eq hne, div_eq_zero_iff, or_iff_left hscale, sumAbsDiff_eq_zero_iff]

theorem concentrationRatioAt_mono (hpos : ∀ x ∈ exposures, 0 < x) {n m : ℕ} (h : n ≤ m) :
    concentrationRatioAt exposures n ≤ concentrationRatioAt exposures m := by
  have hperm := List.perm_insertionSort (fun a b : ℚ => b ≤ a) exposures
  have hsorted : ∀ x ∈ exposures.insertionSort fun a b => b ≤ a, 0 < x :=
    fun x hx => hpos x (hperm.mem_iff.mp hx)
  have htake := sum_take_mono hsorted h
  have htotal := sum_nonneg_of_pos hpos
  unfold concentrationRatioAt
  have hshare := div_le_div_of_nonneg_right htake htotal
  linarith

theorem concentrationRatioAt_of_length_le (hne : exposures ≠ [])
    (hpos : ∀ x ∈ exposures, 0 < x) {n : ℕ} (h : exposures.length ≤ n) :
    concentrationRatioAt exposures n = 100 := by
  have hperm := List.perm_insertionSort (fun a b : ℚ => b ≤ a) exposures
  have htotal := sum_pos_of_pos hne hpos
  unfold concentrationRatioAt
  simp only
  rw [List.take_of_length_le (hperm.length_eq.trans_le h), hperm.sum_eq, div_self htotal.ne',
    one_mul]

/-- The metrics of positive exposures are in their ranges, before they are rounded. -/
theorem concentration_in_range (hne : exposures ≠ []) (hpos : ∀ x ∈ exposures, 0 < x) :
    (1 / (exposures.length : ℚ) ≤ concentrationHHI exposures ∧ concentrationHHI exposures ≤ 1) ∧
    (0 ≤ concentrationGini exposures ∧
      concentrationGini exposures ≤ (exposures.length - 1) / exposures.length ∧
      (concentrationGini exposures = 0 ↔ ∀ x ∈ exposures, ∀ y ∈ exposures, x = y)) ∧
    (∀ n m, n ≤ m → concentrationRatioAt exposures n ≤ concentrationRatioAt exposures m) ∧
    ∀ n, exposures.length ≤ n → concentrationRatioAt exposures n = 100 :=
  ⟨⟨one_div_length_le_sum_sq_shares hne hpos, sum_sq_shares_le_one hne hpos⟩,
    ⟨concentrationGini_nonneg hne hpos, concentrationGini_le hne hpos,
      concentrationGini_eq_zero_iff hne hpos⟩,
    fun _ _ => concentrationRatioAt_mono hpos, fun _ => concentrationRatioAt_of_length_le hne hpos⟩

/-- Three customers, one of whom owes half of the loans. -/
theorem concentration_in_range_threeCustomers :
    1 / 3 ≤ concentrationHHI [100, 50, 50] ∧ concentrationGini [100, 50, 50] ≤ 2 / 3 ∧
      concentrationRatioAt [100, 50, 50] 5 = 100 := by
  have hpos : ∀ x ∈ ([100, 50, 50] : List ℚ), 0 < x := by decide +kernel
  have h := concentration_in_range (by decide) hpos
  refine ⟨?_, ?_, h.2.2.2 5 (by decide)⟩
  · have hlow := h.1.1
    norm_num at hlow ⊢
    exact hlow
  · have hhigh := h.2.1.2.1
    norm_num at hhigh ⊢
    exact hhigh

end Ranges

end NexusEfos
