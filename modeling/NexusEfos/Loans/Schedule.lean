/-
Repayment schedules and the allocation of a repayment: `lib/loanSchedule.ts`.

`allocateRepayment` walks the installments in order and pays interest before
principal.  The amounts below half a cent that it ignores do not occur in a
database of whole cents.
-/
import NexusEfos.Dates
import NexusEfos.Schema.Lending
import Mathlib.Tactic.FieldSimp

namespace NexusEfos

/-! ## Schedules -/

structure ScheduleRow where
  installmentNumber : ℕ
  dueDate : DateTime
  principalDue : ℚ
  interestDue : ℚ

/-- The rows of a reducing-balance schedule from installment `i` on, with `n` of
them to go.  The last one takes what is left of the balance. -/
def reducingBalanceRows (payment monthlyRate : ℚ) (termMonths : ℕ) (startDate : DateTime) :
    ℕ → ℕ → ℚ → List ScheduleRow
  | 0, _, _ => []
  | n + 1, i, balance =>
    let interestDue := if monthlyRate = 0 then 0 else balance * monthlyRate
    let principalDue := if i = termMonths then balance else payment - interestDue
    { installmentNumber := i, dueDate := addMonths startDate i,
      principalDue := round2 principalDue, interestDue := round2 interestDue } ::
      reducingBalanceRows payment monthlyRate termMonths startDate n (i + 1)
        (balance - principalDue)

def generateSchedule (principal annualRatePct : ℚ) (termMonths : ℕ) (method : String)
    (startDate : DateTime) : List ScheduleRow :=
  if method = "REDUCING_BALANCE" then
    let monthlyRate := annualRatePct / 100 / 12
    let payment :=
      if monthlyRate = 0 then principal / termMonths
      else principal * monthlyRate * (1 + monthlyRate) ^ termMonths /
        ((1 + monthlyRate) ^ termMonths - 1)
    reducingBalanceRows payment monthlyRate termMonths startDate termMonths 1 principal
  else
    let totalInterest := principal * (annualRatePct / 100) * (termMonths / 12)
    let principalPerInstallment := principal / termMonths
    let interestPerInstallment := totalInterest / termMonths
    (List.range termMonths).map fun k =>
      { installmentNumber := k + 1, dueDate := addMonths startDate (k + 1),
        principalDue := round2 principalPerInstallment,
        interestDue := round2 interestPerInstallment }

/-- What is left of a loan, spread evenly.  The last installment takes what the rounding of the
others has left. -/
def generateRemainingSchedule (outstandingPrincipal outstandingInterest : ℚ)
    (remainingInstallments : ℕ) (nextDueDate : DateTime) : List ScheduleRow :=
  let principalPer := round2 (outstandingPrincipal / remainingInstallments)
  let interestPer := round2 (outstandingInterest / remainingInstallments)
  let principalSoFar := round2 (principalPer * (remainingInstallments - 1))
  let interestSoFar := round2 (interestPer * (remainingInstallments - 1))
  (List.range remainingInstallments).map fun k =>
    { installmentNumber := k + 1, dueDate := addMonths nextDueDate k,
      principalDue := if k + 1 = remainingInstallments then
        round2 (outstandingPrincipal - principalSoFar) else principalPer,
      interestDue := if k + 1 = remainingInstallments then
        round2 (outstandingInterest - interestSoFar) else interestPer }

/-- A row of a schedule as an installment of a loan. -/
def ScheduleRow.installment (loanId : Id) (row : ScheduleRow) : LoanInstallment :=
  { loanId, installmentNumber := row.installmentNumber, dueDate := row.dueDate,
    principalDue := ofNumber row.principalDue, interestDue := ofNumber row.interestDue,
    totalDue := ofNumber (round2 (row.principalDue + row.interestDue)) }

/-! ## The numbers of a schedule -/

theorem installmentNumber_reducingBalanceRows (payment rate : ℚ) (termMonths : ℕ)
    (startDate : DateTime) (n i : ℕ) (balance : ℚ) :
    (reducingBalanceRows payment rate termMonths startDate n i balance).map
      ScheduleRow.installmentNumber = List.range' i n := by
  induction n generalizing i balance with
  | zero => rfl
  | succ n ih =>
    rw [reducingBalanceRows, List.map_cons, ih, List.range'_succ]

/-- A schedule numbers its installments from one on. -/
theorem installmentNumber_generateSchedule (principal rate : ℚ) (termMonths : ℕ)
    (method : String) (startDate : DateTime) :
    (generateSchedule principal rate termMonths method startDate).map
      ScheduleRow.installmentNumber = List.range' 1 termMonths := by
  unfold generateSchedule
  by_cases hmethod : method = "REDUCING_BALANCE"
  · rw [if_pos hmethod]
    exact installmentNumber_reducingBalanceRows ..
  · rw [if_neg hmethod, List.map_map, List.range'_eq_map_range]
    apply List.map_congr_left
    intro k _
    exact Nat.add_comm k 1

theorem one_mem_generateSchedule (principal rate : ℚ) {termMonths : ℕ} (hterm : 0 < termMonths)
    (method : String) (startDate : DateTime) :
    1 ∈ (generateSchedule principal rate termMonths method startDate).map
      ScheduleRow.installmentNumber := by
  rw [installmentNumber_generateSchedule, List.mem_range'_1]
  omega

/-! ## What a schedule asks for -/

/-- What `n` payments to come are worth: the balance that they pay off. -/
def presentValue (payment monthlyRate : ℚ) : ℕ → ℚ
  | 0 => 0
  | n + 1 => (presentValue payment monthlyRate n + payment) / (1 + monthlyRate)

section PresentValue

variable {payment rate : ℚ}

/-- A payment covers the interest and pays off the rest. -/
theorem presentValue_succ (hrate : 0 ≤ rate) (n : ℕ) :
    presentValue payment rate (n + 1) -
        (payment - presentValue payment rate (n + 1) * rate) = presentValue payment rate n := by
  have hne : 1 + rate ≠ 0 := by positivity
  rw [presentValue]
  field_simp
  ring

/-- The principal in each payment is not negative. -/
theorem presentValue_principal_nonneg (hpayment : 0 ≤ payment) (hrate : 0 ≤ rate) (n : ℕ) :
    0 ≤ payment - presentValue payment rate (n + 1) * rate := by
  induction n with
  | zero =>
    have hne : 1 + rate ≠ 0 := by positivity
    have hfirst : payment - presentValue payment rate (0 + 1) * rate = payment / (1 + rate) := by
      simp only [presentValue, zero_add]
      field_simp
      ring
    rw [hfirst]
    positivity
  | succ n ih =>
    have hne : 1 + rate ≠ 0 := by positivity
    have hnext : payment - presentValue payment rate (n + 1 + 1) * rate =
        (payment - presentValue payment rate (n + 1) * rate) / (1 + rate) := by
      rw [presentValue]
      field_simp
      ring
    rw [hnext]
    positivity

theorem presentValue_nonneg (hpayment : 0 ≤ payment) (hrate : 0 ≤ rate) (n : ℕ) :
    0 ≤ presentValue payment rate n := by
  induction n with
  | zero => exact le_rfl
  | succ n ih =>
    rw [presentValue]
    positivity

theorem presentValue_zero_rate (n : ℕ) : presentValue payment 0 n = payment * n := by
  induction n with
  | zero => simp [presentValue]
  | succ n ih =>
    rw [presentValue, ih]
    push_cast
    ring

theorem presentValue_mul (hrate : 0 < rate) (n : ℕ) :
    presentValue payment rate n * (rate * (1 + rate) ^ n) = payment * ((1 + rate) ^ n - 1) := by
  induction n with
  | zero => simp [presentValue]
  | succ n ih =>
    have hne : 1 + rate ≠ 0 := by positivity
    rw [presentValue, div_mul_eq_mul_div, div_eq_iff hne]
    calc (presentValue payment rate n + payment) * (rate * (1 + rate) ^ (n + 1))
        = (presentValue payment rate n * (rate * (1 + rate) ^ n) + payment * rate * (1 + rate) ^ n) *
            (1 + rate) := by ring
      _ = payment * ((1 + rate) ^ (n + 1) - 1) * (1 + rate) := by
          rw [ih]
          ring

/-- The payment of a reducing-balance loan pays off its principal. -/
theorem presentValue_payment {principal : ℚ} (hrate : 0 ≤ rate) {n : ℕ} (hn : n ≠ 0) :
    presentValue (if rate = 0 then principal / n
      else principal * rate * (1 + rate) ^ n / ((1 + rate) ^ n - 1)) rate n = principal := by
  by_cases hzero : rate = 0
  · have hn' : (n : ℚ) ≠ 0 := Nat.cast_ne_zero.mpr hn
    rw [if_pos hzero, hzero, presentValue_zero_rate, div_mul_cancel₀ _ hn']
  · have hpos : 0 < rate := lt_of_le_of_ne hrate (Ne.symm hzero)
    have hgrowth : 1 < (1 + rate) ^ n := one_lt_pow₀ (by linarith) hn
    have hne : (1 + rate) ^ n - 1 ≠ 0 := by linarith
    have hfactor : rate * (1 + rate) ^ n ≠ 0 := by positivity
    rw [if_neg hzero]
    apply mul_right_cancel₀ hfactor
    rw [presentValue_mul hpos, div_mul_cancel₀ _ hne]
    ring

end PresentValue

theorem round2_nonneg {x : ℚ} (hx : 0 ≤ x) : 0 ≤ round2 x := by
  rw [round2_eq_toNumber, toNumber_nonneg, round_eq]
  exact Int.floor_nonneg.mpr (by positivity)

/-- The rows ask for nothing negative as long as the payments to come pay off the
balance. -/
theorem reducingBalanceRows_nonneg {payment rate : ℚ} (hpayment : 0 ≤ payment) (hrate : 0 ≤ rate)
    {termMonths n i : ℕ} (hi : i + n = termMonths + 1) (startDate : DateTime) :
    ∀ row ∈ reducingBalanceRows payment rate termMonths startDate n i (presentValue payment rate n),
      0 ≤ row.principalDue ∧ 0 ≤ row.interestDue := by
  induction n generalizing i with
  | zero => exact nofun
  | succ n ih =>
    have hvalue := presentValue_nonneg hpayment hrate (n + 1)
    have hinterest : (if rate = 0 then 0 else presentValue payment rate (n + 1) * rate) =
        presentValue payment rate (n + 1) * rate := by
      by_cases h : rate = 0
      · rw [if_pos h, h, mul_zero]
      · rw [if_neg h]
    intro row hrow
    rw [reducingBalanceRows, hinterest] at hrow
    rcases List.mem_cons.mp hrow with rfl | hrow
    · refine ⟨round2_nonneg ?_, round2_nonneg (by positivity)⟩
      split
      · exact hvalue
      · exact presentValue_principal_nonneg hpayment hrate n
    · by_cases hlast : i = termMonths
      · have hnone : n = 0 := by omega
        subst hnone
        exact absurd hrow List.not_mem_nil
      · rw [if_neg hlast, presentValue_succ hrate] at hrow
        exact ih (by omega) row hrow

/-- A schedule asks for nothing negative. -/
theorem generateSchedule_nonneg {principal annualRatePct : ℚ} (hprincipal : 0 ≤ principal)
    (hrate : 0 ≤ annualRatePct) (termMonths : ℕ) (method : String) (startDate : DateTime) :
    ∀ row ∈ generateSchedule principal annualRatePct termMonths method startDate,
      0 ≤ row.principalDue ∧ 0 ≤ row.interestDue := by
  intro row hrow
  unfold generateSchedule at hrow
  by_cases hmethod : method = "REDUCING_BALANCE"
  · rw [if_pos hmethod] at hrow
    have hmonthly : 0 ≤ annualRatePct / 100 / 12 := by positivity
    rcases Nat.eq_zero_or_pos termMonths with hzero | hpos
    · rw [hzero] at hrow
      exact absurd hrow List.not_mem_nil
    · have hvalue := @presentValue_payment _ principal hmonthly _ hpos.ne'
      have hpayment : 0 ≤ if annualRatePct / 100 / 12 = 0 then principal / termMonths
          else principal * (annualRatePct / 100 / 12) * (1 + annualRatePct / 100 / 12) ^ termMonths /
            ((1 + annualRatePct / 100 / 12) ^ termMonths - 1) := by
        split
        · positivity
        · have hgrowth : 1 ≤ (1 + annualRatePct / 100 / 12) ^ termMonths :=
            one_le_pow₀ (by linarith)
          have hdenominator : 0 ≤ (1 + annualRatePct / 100 / 12) ^ termMonths - 1 := by linarith
          positivity
      have hrows := @reducingBalanceRows_nonneg _ _ hpayment hmonthly termMonths termMonths 1
        (Nat.add_comm ..) startDate
      rw [hvalue] at hrows
      exact hrows row hrow
  · rw [if_neg hmethod] at hrow
    obtain ⟨k, -, rfl⟩ := List.mem_map.mp hrow
    exact ⟨round2_nonneg (by positivity), round2_nonneg (by positivity)⟩

/-! ## Allocation -/

structure InstallmentState where
  id : Id
  interestDue : ℚ
  principalDue : ℚ
  interestPaid : ℚ
  principalPaid : ℚ
  status : InstallmentStatus := .pending

structure AllocationUpdate where
  id : Id
  newInterestPaid : ℚ
  newPrincipalPaid : ℚ
  newStatus : InstallmentStatus

def allocateRepayment : List InstallmentState → ℚ → List AllocationUpdate
  | [], _ => []
  | inst :: rest, remaining =>
    if remaining ≤ 0 then []
    else
      let interestOutstanding := inst.interestDue - inst.interestPaid
      let principalOutstanding := inst.principalDue - inst.principalPaid
      if interestOutstanding ≤ 5 / 1000 ∧ principalOutstanding ≤ 5 / 1000 then
        allocateRepayment rest remaining
      else
        let interestPaidNow :=
          if 5 / 1000 < interestOutstanding then min remaining interestOutstanding else 0
        let afterInterest := remaining - interestPaidNow
        let principalPaidNow :=
          if 0 < afterInterest ∧ 5 / 1000 < principalOutstanding then
            min afterInterest principalOutstanding
          else 0
        let afterPrincipal := afterInterest - principalPaidNow
        if 0 < interestPaidNow ∨ 0 < principalPaidNow then
          let newInterestPaid := round2 (inst.interestPaid + interestPaidNow)
          let newPrincipalPaid := round2 (inst.principalPaid + principalPaidNow)
          let fullyPaid := inst.interestDue - 1 / 100 ≤ newInterestPaid ∧
            inst.principalDue - 1 / 100 ≤ newPrincipalPaid
          { id := inst.id, newInterestPaid, newPrincipalPaid,
            newStatus := if fullyPaid then .paid else .partiallyPaid } ::
            allocateRepayment rest afterPrincipal
        else allocateRepayment rest afterPrincipal

end NexusEfos
