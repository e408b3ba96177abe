/-
Arrears before and after a repayment, and as time goes on.

The days count from the oldest installment that is overdue, so they are the most that any overdue
installment has (`daysInArrears_le_iff`), and the amount is the sum of what is missing on each of
them.  Where more is paid on every installment, and no time has passed, fewer installments are
overdue and less is missing (`calculateArrears_noWorse`).
-/
import NexusEfos.Loans.Arrears
import NexusEfos.Loans.Waterfall

namespace NexusEfos

/-! ## Comparing arrears -/

def ArrearsClassification.severity : ArrearsClassification → ℕ
  | current => 0
  | arrears1To30 => 1
  | arrears31To60 => 2
  | arrears61To90 => 3
  | arrears90Plus => 4

/-- The first arrears are no worse than the second. -/
structure ArrearsResult.NoWorse (a b : ArrearsResult) : Prop where
  days : a.daysInArrears ≤ b.daysInArrears
  amount : a.arrearsAmount ≤ b.arrearsAmount
  classification : a.classification.severity ≤ b.classification.severity

theorem severity_classifyDays_mono {days days' : ℤ} (h : days ≤ days') :
    (classifyDays days).severity ≤ (classifyDays days').severity := by
  have hsteps : ∀ d : ℤ, (classifyDays d).severity =
      if d ≤ 0 then 0 else if d ≤ 30 then 1 else if d ≤ 60 then 2 else if d ≤ 90 then 3 else 4 := by
    intro d
    unfold classifyDays
    split_ifs <;> rfl
  rw [hsteps, hsteps]
  split_ifs <;> omega

/-! ## The days and the amount -/

/-- The days of an installment at a moment. -/
def ArrearsInstallment.days (i : ArrearsInstallment) (asOf : DateTime) : ℤ :=
  (asOf - i.dueDate) / msPerDay

/-- What is missing of an installment that is overdue. -/
def ArrearsInstallment.missing (i : ArrearsInstallment) (asOf : DateTime) : ℚ :=
  if i.IsOverdue asOf then max 0 (i.totalDue - i.principalPaid - i.interestPaid) else 0

/-- The oldest date is before all of them. -/
theorem oldestDue_le_of_mem {rest : List ArrearsInstallment} {i : ArrearsInstallment} (h : i ∈ rest)
    (d : DateTime) :
    rest.foldl (fun oldest i => if i.dueDate < oldest then i.dueDate else oldest) d ≤ i.dueDate := by
  induction rest generalizing d with
  | nil => exact absurd h List.not_mem_nil
  | cons j rest ih =>
    rw [List.foldl_cons]
    rcases List.mem_cons.mp h with rfl | h
    · apply (oldestDue_le rest _).trans
      split
      · exact le_refl _
      · next hlater => exact not_lt.mp hlater
    · exact ih h _

/-- The oldest date is the date of one of them. -/
theorem oldestDue_mem (rest : List ArrearsInstallment) (d : DateTime) :
    let oldest :=
      rest.foldl (fun oldest i => if i.dueDate < oldest then i.dueDate else oldest) d
    oldest = d ∨ ∃ i ∈ rest, oldest = i.dueDate := by
  induction rest generalizing d with
  | nil => exact .inl rfl
  | cons j rest ih =>
    simp only [List.foldl_cons]
    rcases ih (if j.dueDate < d then j.dueDate else d) with heq | ⟨i, hi, heq⟩
    · rw [heq]
      split
      · exact .inr ⟨j, List.mem_cons_self .., rfl⟩
      · exact .inl rfl
    · exact .inr ⟨i, List.mem_cons_of_mem j hi, heq⟩

theorem ArrearsInstallment.days_anti {i j : ArrearsInstallment} (asOf : DateTime)
    (h : i.dueDate ≤ j.dueDate) : j.days asOf ≤ i.days asOf :=
  Int.ediv_le_ediv (by decide) (sub_le_sub_left h asOf)

theorem ArrearsInstallment.days_mono (i : ArrearsInstallment) {asOf asOf' : DateTime}
    (h : asOf ≤ asOf') : i.days asOf ≤ i.days asOf' :=
  Int.ediv_le_ediv (by decide) (sub_le_sub_right h i.dueDate)

/-- No overdue installment has more days, and one of them has as many. -/
theorem daysInArrears_le_iff (installments : List ArrearsInstallment) (asOf : DateTime) {d : ℤ}
    (hd : 0 ≤ d) :
    (calculateArrears installments asOf).daysInArrears ≤ d ↔
      ∀ i ∈ installments, i.IsOverdue asOf → i.days asOf ≤ d := by
  have hmem : ∀ i, i ∈ installments ∧ i.IsOverdue asOf ↔
      i ∈ installments.filter fun i => i.IsOverdue asOf := by
    intro i
    rw [List.mem_filter, decide_eq_true_eq]
  have hbound : (∀ i ∈ installments, i.IsOverdue asOf → i.days asOf ≤ d) ↔
      ∀ i ∈ installments.filter fun i => i.IsOverdue asOf, i.days asOf ≤ d := by
    constructor
    · intro h i hi
      have hi' := (hmem i).mpr hi
      exact h i hi'.1 hi'.2
    · intro h i hi hoverdue
      exact h i ((hmem i).mp ⟨hi, hoverdue⟩)
  rw [hbound]
  unfold calculateArrears
  split
  · next hnone =>
    rw [hnone]
    exact iff_of_true hd nofun
  · next first rest hoverdue =>
    rw [hoverdue]
    have hoverduemem := oldestDue_mem rest first.dueDate
    constructor
    · intro h i hi
      have holdest : rest.foldl
          (fun oldest i => if i.dueDate < oldest then i.dueDate else oldest) first.dueDate ≤
            i.dueDate := by
        rcases List.mem_cons.mp hi with rfl | hi
        · exact oldestDue_le rest _
        · exact oldestDue_le_of_mem hi _
      have hdays : i.days asOf ≤ (asOf - rest.foldl
          (fun oldest i => if i.dueDate < oldest then i.dueDate else oldest) first.dueDate) /
            msPerDay := Int.ediv_le_ediv (by decide) (sub_le_sub_left holdest asOf)
      exact hdays.trans h
    · intro h
      show (asOf - rest.foldl (fun oldest i => if i.dueDate < oldest then i.dueDate else oldest)
        first.dueDate) / msPerDay ≤ d
      rcases hoverduemem with heq | ⟨i, hi, heq⟩
      · rw [heq]
        exact h first (List.mem_cons_self ..)
      · rw [heq]
        exact h i (List.mem_cons_of_mem first hi)

theorem arrearsAmount_eq (installments : List ArrearsInstallment) (asOf : DateTime) :
    (calculateArrears installments asOf).arrearsAmount =
      round2 (installments.map fun i => i.missing asOf).sum := by
  have hsum : (installments.map fun i => i.missing asOf).sum =
      ((installments.filter fun i => i.IsOverdue asOf).map fun i =>
        max 0 (i.totalDue - i.principalPaid - i.interestPaid)).sum := by
    rw [OrderedMap.sum_map_filter]
    simp only [decide_eq_true_eq, ArrearsInstallment.missing]
  rw [hsum]
  unfold calculateArrears
  split
  · next hnone =>
    rw [hnone]
    have hzero := round2_toNumber 0
    rw [toNumber_zero] at hzero
    exact hzero.symm
  · next first rest hoverdue => rw [hoverdue]

/-! ## Paying more, and waiting -/

/-- No less is paid on the second installment. -/
structure ArrearsInstallment.PaidOn (i j : ArrearsInstallment) : Prop where
  dueDate : j.dueDate = i.dueDate
  totalDue : j.totalDue = i.totalDue
  principal : i.principalPaid ≤ j.principalPaid
  interest : i.interestPaid ≤ j.interestPaid

namespace ArrearsInstallment.PaidOn

variable {i j : ArrearsInstallment} {earlier later : DateTime}

theorem refl (i : ArrearsInstallment) : i.PaidOn i := ⟨rfl, rfl, le_refl _, le_refl _⟩

theorem isOverdue (h : i.PaidOn j) (htime : earlier ≤ later) (hoverdue : j.IsOverdue earlier) :
    i.IsOverdue later := by
  have hdue := h.dueDate
  have htotal := h.totalDue
  have hprincipal := h.principal
  have hinterest := h.interest
  unfold IsOverdue at hoverdue ⊢
  constructor
  · rw [← hdue]
    exact hoverdue.1.trans_le htime
  · have hmissing := hoverdue.2
    linarith

theorem missing_le (h : i.PaidOn j) (htime : earlier ≤ later) :
    j.missing earlier ≤ i.missing later := by
  have htotal := h.totalDue
  have hprincipal := h.principal
  have hinterest := h.interest
  unfold missing
  by_cases hoverdue : j.IsOverdue earlier
  · rw [if_pos hoverdue, if_pos (h.isOverdue htime hoverdue)]
    apply max_le_max (le_refl 0)
    linarith
  · rw [if_neg hoverdue]
    split
    · exact le_max_left 0 _
    · exact le_refl 0

end ArrearsInstallment.PaidOn

theorem exists_paidOn {is js : List ArrearsInstallment}
    (h : List.Forall₂ ArrearsInstallment.PaidOn is js) {j : ArrearsInstallment} (hj : j ∈ js) :
    ∃ i ∈ is, i.PaidOn j := by
  induction h with
  | nil => exact absurd hj List.not_mem_nil
  | @cons i j' is js hij _ ih =>
    rcases List.mem_cons.mp hj with rfl | hj
    · exact ⟨i, List.mem_cons_self .., hij⟩
    · obtain ⟨i', hi', hij'⟩ := ih hj
      exact ⟨i', List.mem_cons_of_mem i hi', hij'⟩

theorem sum_missing_le {is js : List ArrearsInstallment} {earlier later : DateTime}
    (h : List.Forall₂ ArrearsInstallment.PaidOn is js) (htime : earlier ≤ later) :
    (js.map fun j => j.missing earlier).sum ≤ (is.map fun i => i.missing later).sum := by
  induction h with
  | nil => exact le_refl _
  | cons hij _ ih =>
    rw [List.map_cons, List.map_cons, List.sum_cons, List.sum_cons]
    exact add_le_add (hij.missing_le htime) ih

/-- Earlier, and with more paid on every installment, the arrears are no worse. -/
theorem calculateArrears_noWorse {is js : List ArrearsInstallment} {earlier later : DateTime}
    (h : List.Forall₂ ArrearsInstallment.PaidOn is js) (htime : earlier ≤ later) :
    (calculateArrears js earlier).NoWorse (calculateArrears is later) := by
  have hdays : (calculateArrears js earlier).daysInArrears ≤
      (calculateArrears is later).daysInArrears := by
    have hnonneg := daysInArrears_nonneg is later
    apply (daysInArrears_le_iff js earlier hnonneg).mpr
    intro j hj hoverdue
    have hall := (daysInArrears_le_iff is later hnonneg).mp (le_refl _)
    obtain ⟨i, hi, hij⟩ := exists_paidOn h hj
    calc j.days earlier ≤ i.days earlier :=
          ArrearsInstallment.days_anti earlier hij.dueDate.ge
      _ ≤ i.days later := i.days_mono htime
      _ ≤ (calculateArrears is later).daysInArrears :=
          hall i hi (hij.isOverdue htime hoverdue)
  constructor
  · exact hdays
  · rw [arrearsAmount_eq, arrearsAmount_eq]
    exact round2_le_round2 (sum_missing_le h htime)
  · rw [classification_eq, classification_eq]
    exact severity_classifyDays_mono hdays

/-! ## Repayments -/

/-- An installment with what the allocation reads of it and what the arrears do. -/
structure ArrearsRow where
  state : InstallmentState
  dueDate : DateTime
  totalDue : ℚ

def ArrearsRow.arrears (row : ArrearsRow) : ArrearsInstallment :=
  { dueDate := row.dueDate, totalDue := row.totalDue, principalPaid := row.state.principalPaid,
    interestPaid := row.state.interestPaid }

/-- The installments after a repayment. -/
def repayRows (rows : List ArrearsRow) (amount : ℚ) : List ArrearsRow :=
  List.zipWith (fun row state => { row with state }) rows
    (allocateInPlace (rows.map ArrearsRow.state) amount).1

theorem ite_min_nonneg {p : Prop} [Decidable p] {x y : ℚ} (h : p → 0 ≤ x ∧ 0 ≤ y) :
    0 ≤ if p then min x y else 0 := by
  split
  · next hp => exact le_min (h hp).1 (h hp).2
  · exact le_refl 0

/-- Whatever the amount, nothing is taken back. -/
theorem paid_le_allocateInPlace {insts : List InstallmentState}
    (hinsts : ∀ st ∈ insts, st.WholeCents) (amount : ℚ) :
    List.Forall₂ (fun st st' => st.interestPaid ≤ st'.interestPaid ∧
      st.principalPaid ≤ st'.principalPaid) insts (allocateInPlace insts amount).1 := by
  have hrefl : ∀ insts : List InstallmentState, List.Forall₂ (fun st st' =>
      st.interestPaid ≤ st'.interestPaid ∧ st.principalPaid ≤ st'.principalPaid) insts insts :=
    fun insts => List.forall₂_same.mpr fun st _ => ⟨le_refl _, le_refl _⟩
  have hround : ∀ {x y : ℚ}, WholeCent x → 0 ≤ y → x ≤ round2 (x + y) := by
    intro x y hx hy
    calc x = round2 x := hx.round2_eq.symm
      _ ≤ round2 (x + y) := round2_le_round2 (le_add_of_nonneg_right hy)
  fun_induction allocateInPlace insts amount with
  | case1 => exact .nil
  | case2 => exact hrefl _
  | case3 inst rest amount _ _ _ _ _ ih =>
    rw [List.forall_mem_cons] at hinsts
    exact .cons ⟨le_refl _, le_refl _⟩ (ih hinsts.2)
  | case4 inst rest amount hpositive _ _ _ _ _ _ _ _ _ _ _ _ ih =>
    rw [List.forall_mem_cons] at hinsts
    apply List.Forall₂.cons _ (ih hinsts.2)
    constructor
    · apply hround hinsts.1.interestPaid
      exact ite_min_nonneg fun h => ⟨(not_le.mp hpositive).le, by linarith⟩
    · apply hround hinsts.1.principalPaid
      exact ite_min_nonneg fun h => ⟨h.1.le, by linarith [h.2]⟩
  | case5 inst rest amount _ _ _ _ _ _ _ _ _ ih =>
    rw [List.forall_mem_cons] at hinsts
    exact .cons ⟨le_refl _, le_refl _⟩ (ih hinsts.2)

theorem forall₂_paidOn_zipWith {rows : List ArrearsRow} {states : List InstallmentState}
    (h : List.Forall₂ (fun st st' : InstallmentState => st.interestPaid ≤ st'.interestPaid ∧
      st.principalPaid ≤ st'.principalPaid) (rows.map ArrearsRow.state) states) :
    List.Forall₂ ArrearsInstallment.PaidOn (rows.map ArrearsRow.arrears)
      ((List.zipWith (fun row state => { row with state }) rows states).map
        ArrearsRow.arrears) := by
  induction rows generalizing states with
  | nil => exact .nil
  | cons row rows ih =>
    rw [List.map_cons] at h
    cases h with
    | cons hpaid hrest => exact .cons ⟨rfl, rfl, hpaid.2, hpaid.1⟩ (ih hrest)

/-- A repayment makes the arrears no worse, and waiting makes them no better.  It takes no more than
figures of whole cents; what is due may be less than what is paid. -/
theorem repaying_never_worsens_arrears :
    (∀ (rows : List ArrearsRow) (amount : ℚ) (asOf : DateTime),
      (∀ row ∈ rows, row.state.WholeCents) →
        (calculateArrears ((repayRows rows amount).map ArrearsRow.arrears) asOf).NoWorse
          (calculateArrears (rows.map ArrearsRow.arrears) asOf)) ∧
    ∀ (installments : List ArrearsInstallment) (earlier later : DateTime), earlier ≤ later →
      (calculateArrears installments earlier).NoWorse (calculateArrears installments later) := by
  constructor
  · intro rows amount asOf hrows
    have hstates : ∀ st ∈ rows.map ArrearsRow.state, st.WholeCents := by
      intro st hst
      obtain ⟨row, hrow, rfl⟩ := List.mem_map.mp hst
      exact hrows row hrow
    have hpaid := forall₂_paidOn_zipWith (paid_le_allocateInPlace hstates amount)
    exact calculateArrears_noWorse hpaid (le_refl asOf)
  · intro installments earlier later htime
    have hsame := List.forall₂_same.mpr fun i (_ : i ∈ installments) =>
      ArrearsInstallment.PaidOn.refl i
    exact calculateArrears_noWorse hsame htime

/-- An installment of 50 that is overdue by 40 days. -/
def overdueRow : ArrearsRow where
  state := { id := 1, interestDue := 0, principalDue := 50, interestPaid := 0, principalPaid := 0 }
  dueDate := 0
  totalDue := 50

/-- It is paid in part. -/
theorem repaying_never_worsens_arrears_overdueRow :
    (calculateArrears ((repayRows [overdueRow] 20).map ArrearsRow.arrears)
        (40 * msPerDay)).NoWorse
      (calculateArrears ([overdueRow].map ArrearsRow.arrears) (40 * msPerDay)) := by
  apply repaying_never_worsens_arrears.1
  intro row hrow
  rw [List.mem_singleton] at hrow
  rw [hrow]
  constructor
  · exact WholeCent.zero
  · exact ⟨5000, by norm_num [overdueRow, toNumber]⟩
  · exact WholeCent.zero
  · exact WholeCent.zero

end NexusEfos
