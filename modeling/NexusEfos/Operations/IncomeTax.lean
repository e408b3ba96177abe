/-
Income tax as an integral.

`calculatePAYE` adds up, band by band, the tax on the part of the income that lies in the band.
Where the bands follow on one another from nothing upwards, each income lies in one of them, and the
sum is the integral of the rate of that band.
-/
import Mathlib.MeasureTheory.Integral.Bochner.Set
import Mathlib.MeasureTheory.Measure.Lebesgue.Basic
import Mathlib.Order.CompletePartialOrder
import NexusEfos.Operations.PayrollProcessing

namespace NexusEfos

open MeasureTheory

/-- The bands follow on one another, the first of them from `lowest` on and the last one without
end. -/
def ContiguousFrom : ℚ → List TaxBandInput → Prop
  | _, [] => False
  | lowest, band :: rest =>
    band.lowerBound = lowest ∧
      match band.upperBound with
      | none => rest = []
      | some bound => lowest ≤ bound ∧ ContiguousFrom bound rest

/-- Bands that tax every income: in some order they follow on one another from nothing upwards, and
their rates are percentages. -/
structure CompleteBands (bands : List TaxBandInput) : Prop where
  contiguous : ∃ sorted, sorted.Perm bands ∧ ContiguousFrom 0 sorted
  rates : ∀ band ∈ bands, 0 ≤ band.rate ∧ band.rate ≤ 100

namespace TaxBandInput

/-- The incomes that lie in a band. -/
def incomes (band : TaxBandInput) : Set ℝ :=
  {x | (band.lowerBound : ℝ) ≤ x ∧ ∀ bound, band.upperBound = some bound → x < (bound : ℝ)}

/-- How much of an income lies in a band. -/
def share (band : TaxBandInput) (income : ℚ) : ℚ :=
  let upper := match band.upperBound with
    | none => income
    | some bound => min income bound
  max 0 (upper - band.lowerBound)

end TaxBandInput

open Classical in
/-- The rate of the band in which an income lies, as a fraction. -/
noncomputable def marginalRate (bands : List TaxBandInput) (x : ℝ) : ℝ :=
  match bands.find? fun band => decide (x ∈ band.incomes) with
  | some band => band.rate / 100
  | none => 0

/-! ## The tax of a band -/

section Band

variable {band : TaxBandInput} {income : ℚ}

theorem TaxBandInput.share_nonneg (band : TaxBandInput) (income : ℚ) : 0 ≤ band.share income :=
  le_max_left ..

theorem TaxBandInput.share_eq_zero (h : income ≤ band.lowerBound) : band.share income = 0 := by
  unfold share
  apply max_eq_left
  split
  · linarith
  · linarith [min_le_left income ‹ℚ›]

theorem TaxBandInput.tax_eq (band : TaxBandInput) (income : ℚ) :
    band.tax income = band.share income * (band.rate / 100) := by
  unfold tax
  split
  · next h => rw [share_eq_zero h, zero_mul]
  · rfl

theorem TaxBandInput.share_mono (band : TaxBandInput) : Monotone band.share := by
  intro x y h
  unfold share
  apply max_le_max le_rfl
  apply sub_le_sub_right
  cases band.upperBound with
  | none => exact h
  | some bound => exact min_le_min_right bound h

theorem TaxBandInput.incomes_none (h : band.upperBound = none) :
    band.incomes = Set.Ici (band.lowerBound : ℝ) := by
  ext x
  simp [incomes, h]

theorem TaxBandInput.incomes_some {bound : ℚ} (h : band.upperBound = some bound) :
    band.incomes = Set.Ico (band.lowerBound : ℝ) bound := by
  ext x
  simp [incomes, h]

theorem TaxBandInput.measurableSet_incomes (band : TaxBandInput) : MeasurableSet band.incomes := by
  cases h : band.upperBound with
  | none =>
    rw [incomes_none h]
    exact measurableSet_Ici
  | some bound =>
    rw [incomes_some h]
    exact measurableSet_Ico

/-- What lies in the band of the incomes up to one. -/
theorem TaxBandInput.volume_incomes (hlower : 0 ≤ band.lowerBound) (income : ℚ) :
    volume.real (Set.Icc 0 (income : ℝ) ∩ band.incomes) = band.share income := by
  have hlower' : (0 : ℝ) ≤ band.lowerBound := by exact_mod_cast hlower
  unfold share
  cases h : band.upperBound with
  | none =>
    have hset : Set.Icc 0 (income : ℝ) ∩ band.incomes =
        Set.Icc (band.lowerBound : ℝ) income := by
      rw [incomes_none h]
      ext x
      simp only [Set.mem_inter_iff, Set.mem_Icc, Set.mem_Ici]
      constructor
      · exact fun hx => ⟨hx.2, hx.1.2⟩
      · exact fun hx => ⟨⟨hlower'.trans hx.1, hx.2⟩, hx.1⟩
    rw [hset, Real.volume_real_Icc, max_comm]
    push_cast
    rfl
  | some bound =>
    rcases lt_or_ge income bound with hlt | hge
    · have hset : Set.Icc 0 (income : ℝ) ∩ band.incomes =
          Set.Icc (band.lowerBound : ℝ) income := by
        have hlt' : (income : ℝ) < bound := by exact_mod_cast hlt
        rw [incomes_some h]
        ext x
        simp only [Set.mem_inter_iff, Set.mem_Icc, Set.mem_Ico]
        constructor
        · exact fun hx => ⟨hx.2.1, hx.1.2⟩
        · exact fun hx => ⟨⟨hlower'.trans hx.1, hx.2⟩, hx.1, hx.2.trans_lt hlt'⟩
      rw [hset, Real.volume_real_Icc, max_comm]
      dsimp only
      rw [min_eq_left hlt.le]
      push_cast
      rfl
    · have hset : Set.Icc 0 (income : ℝ) ∩ band.incomes =
          Set.Ico (band.lowerBound : ℝ) bound := by
        have hge' : (bound : ℝ) ≤ income := by exact_mod_cast hge
        rw [incomes_some h]
        ext x
        simp only [Set.mem_inter_iff, Set.mem_Icc, Set.mem_Ico]
        constructor
        · exact fun hx => hx.2
        · exact fun hx => ⟨⟨hlower'.trans hx.1, hx.2.le.trans hge'⟩, hx⟩
      rw [hset, Real.volume_real_Ico, max_comm]
      dsimp only
      rw [min_eq_right hge]
      push_cast
      rfl

theorem TaxBandInput.integrableOn_rate (band : TaxBandInput) (income : ℚ) :
    IntegrableOn (band.incomes.indicator fun _ => (band.rate / 100 : ℝ))
      (Set.Icc 0 (income : ℝ)) := by
  apply IntegrableOn.indicator _ band.measurableSet_incomes
  exact integrableOn_const (by simp)

/-- The tax of a band is the integral of its rate. -/
theorem TaxBandInput.integral_rate (hlower : 0 ≤ band.lowerBound) (income : ℚ) :
    ∫ x in Set.Icc 0 (income : ℝ), band.incomes.indicator (fun _ => (band.rate / 100 : ℝ)) x =
      band.tax income := by
  rw [setIntegral_indicator band.measurableSet_incomes, setIntegral_const, volume_incomes hlower,
    smul_eq_mul, tax_eq]
  push_cast
  rfl

end Band

/-! ## Bands that follow on one another -/

section Bands

variable {bands : List TaxBandInput} {lowest income : ℚ}

theorem ContiguousFrom.le_lowerBound (h : ContiguousFrom lowest bands) :
    ∀ band ∈ bands, lowest ≤ band.lowerBound := by
  induction bands generalizing lowest with
  | nil => exact fun _ hmem => absurd hmem List.not_mem_nil
  | cons band rest ih =>
    obtain ⟨hlower, hrest⟩ := h
    rw [List.forall_mem_cons]
    refine ⟨hlower.ge, ?_⟩
    split at hrest
    · rw [hrest]
      exact fun _ hmem => absurd hmem List.not_mem_nil
    · exact fun b hb => hrest.1.trans (ih hrest.2 b hb)

/-- No income lies in two of them. -/
theorem ContiguousFrom.pairwise_disjoint (h : ContiguousFrom lowest bands) :
    bands.Pairwise fun b b' => Disjoint b.incomes b'.incomes := by
  induction bands generalizing lowest with
  | nil => exact .nil
  | cons band rest ih =>
    obtain ⟨-, hrest⟩ := h
    split at hrest
    · rw [hrest]
      exact List.pairwise_singleton ..
    · next bound hbound =>
      apply List.Pairwise.cons _ (ih hrest.2)
      intro b hb
      have hle : (bound : ℝ) ≤ b.lowerBound := by
        exact_mod_cast hrest.2.le_lowerBound b hb
      rw [Set.disjoint_left]
      exact fun x hx hx' => absurd (hx.2 bound hbound) (not_lt.mpr (hle.trans hx'.1))

/-- Together they take up the whole of an income. -/
theorem ContiguousFrom.sum_share (h : ContiguousFrom lowest bands) (income : ℚ) :
    (bands.map fun band => band.share income).sum = max 0 (income - lowest) := by
  induction bands generalizing lowest with
  | nil => exact h.elim
  | cons band rest ih =>
    obtain ⟨hlower, hrest⟩ := h
    rw [List.map_cons, List.sum_cons]
    split at hrest
    · next hbound =>
      rw [hrest, List.map_nil, List.sum_nil, add_zero, TaxBandInput.share, hbound, hlower]
    · next bound hbound =>
      rw [ih hrest.2, TaxBandInput.share, hbound, hlower]
      dsimp only
      rcases le_total income bound with hle | hle
      · rw [min_eq_left hle, max_eq_left (sub_nonpos.mpr hle), add_zero]
      · have hfull : 0 ≤ bound - lowest := sub_nonneg.mpr hrest.1
        have hsome : 0 ≤ income - lowest := by linarith
        rw [min_eq_right hle, max_eq_right hfull, max_eq_right (sub_nonneg.mpr hle),
          max_eq_right hsome]
        ring

open Classical in
/-- The rate of an income is the sum of the rates of the bands in which it lies, as that is one. -/
theorem marginalRate_eq_sum (h : bands.Pairwise fun b b' => Disjoint b.incomes b'.incomes)
    (x : ℝ) :
    marginalRate bands x =
      (bands.map fun band => band.incomes.indicator (fun _ => (band.rate / 100 : ℝ)) x).sum := by
  induction bands with
  | nil => rfl
  | cons band rest ih =>
    obtain ⟨hfirst, hrest⟩ := List.pairwise_cons.mp h
    rw [List.map_cons, List.sum_cons, ← ih hrest]
    unfold marginalRate
    by_cases hx : x ∈ band.incomes
    · have hnone : rest.find? (fun b => decide (x ∈ b.incomes)) = none := by
        rw [List.find?_eq_none]
        intro b hb
        rw [decide_eq_true_eq]
        exact Set.disjoint_left.mp (hfirst b hb) hx
      rw [List.find?_cons_of_pos (by rw [decide_eq_true_eq]; exact hx), Set.indicator_of_mem hx, hnone,
        add_zero]
    · rw [List.find?_cons_of_neg (by rw [decide_eq_true_eq]; exact hx), Set.indicator_of_notMem hx,
        zero_add]

theorem integral_sum_rates (hlower : ∀ band ∈ bands, 0 ≤ band.lowerBound) (income : ℚ) :
    IntegrableOn (fun x => (bands.map fun band =>
        band.incomes.indicator (fun _ => (band.rate / 100 : ℝ)) x).sum) (Set.Icc 0 (income : ℝ)) ∧
      ∫ x in Set.Icc 0 (income : ℝ), (bands.map fun band =>
          band.incomes.indicator (fun _ => (band.rate / 100 : ℝ)) x).sum =
        ((bands.map fun band => band.tax income).sum : ℚ) := by
  induction bands with
  | nil => simp
  | cons band rest ih =>
    rw [List.forall_mem_cons] at hlower
    obtain ⟨hrest, hsum⟩ := ih hlower.2
    have hband := band.integrableOn_rate income
    simp only [List.map_cons, List.sum_cons]
    refine ⟨hband.add hrest, ?_⟩
    rw [integral_add hband hrest, hsum, TaxBandInput.integral_rate hlower.1]
    push_cast
    rfl

/-- The tax before it is rounded is the integral of the marginal rate. -/
theorem CompleteBands.integral_marginalRate (h : CompleteBands bands) (income : ℚ) :
    ∫ x in Set.Icc 0 (income : ℝ), marginalRate bands x =
      ((bands.map fun band => band.tax income).sum : ℚ) := by
  obtain ⟨sorted, hperm, hcontiguous⟩ := h.contiguous
  have hdisjoint : bands.Pairwise fun b b' => Disjoint b.incomes b'.incomes :=
    hperm.pairwise_iff (fun hd => hd.symm) |>.mp hcontiguous.pairwise_disjoint
  have hlower : ∀ band ∈ bands, 0 ≤ band.lowerBound := fun band hband =>
    hcontiguous.le_lowerBound band (hperm.mem_iff.mpr hband)
  have hrate : marginalRate bands = fun x => (bands.map fun band =>
      band.incomes.indicator (fun _ => (band.rate / 100 : ℝ)) x).sum :=
    funext (marginalRate_eq_sum hdisjoint)
  rw [hrate]
  exact (integral_sum_rates hlower income).2

theorem CompleteBands.tax_bounds (h : CompleteBands bands) (income : ℚ) :
    0 ≤ (bands.map fun band => band.tax income).sum ∧
      (bands.map fun band => band.tax income).sum ≤ max 0 income := by
  obtain ⟨sorted, hperm, hcontiguous⟩ := h.contiguous
  have hshares : (bands.map fun band => band.share income).sum = max 0 income := by
    rw [← (hperm.map _).sum_eq, hcontiguous.sum_share, sub_zero]
  have hband : ∀ band ∈ bands, 0 ≤ band.tax income ∧ band.tax income ≤ band.share income := by
    intro band hmem
    obtain ⟨h0, h100⟩ := h.rates band hmem
    have hshare := band.share_nonneg income
    rw [band.tax_eq]
    exact ⟨by positivity, mul_le_of_le_one_right hshare (by linarith)⟩
  constructor
  · apply List.sum_nonneg
    rw [List.forall_mem_map]
    exact fun band hmem => (hband band hmem).1
  · rw [← hshares]
    exact List.sum_le_sum fun band hmem => (hband band hmem).2

end Bands

/-- Nothing on the first four hundred, a tenth of what is above. -/
def twoTaxBands : List TaxBandInput := [⟨400, none, 10⟩, ⟨0, some 400, 0⟩]

end NexusEfos
