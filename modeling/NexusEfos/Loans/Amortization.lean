/-
The reducing-balance loop before its figures are rounded.

The balance before each installment is what the payments to come are worth (`presentValue`), so the
last installment, which takes what is left of the balance, asks for no more and no less than the
payment.  Each of the rounded figures is off by half a cent at most.
-/
import NexusEfos.Loans.ScheduleTotals
import Mathlib.Data.List.Pairwise
import Mathlib.Order.Monotone.Basic

namespace NexusEfos

/-- A turn of the loop: what the installment asks for, not rounded, and the balance after it. -/
structure ReducingBalanceTurn where
  principalDue : ℚ
  interestDue : ℚ
  balance : ℚ

namespace ReducingBalanceTurn

/-- The principal and the interest of the row that the turn makes. -/
def rounded (turn : ReducingBalanceTurn) : ℚ × ℚ :=
  (round2 turn.principalDue, round2 turn.interestDue)

end ReducingBalanceTurn

/-- The turns from installment `i` on, with `n` of them to go. -/
def reducingBalanceTurns (payment monthlyRate : ℚ) (termMonths : ℕ) :
    ℕ → ℕ → ℚ → List ReducingBalanceTurn
  | 0, _, _ => []
  | n + 1, i, balance =>
    let interestDue := if monthlyRate = 0 then 0 else balance * monthlyRate
    let principalDue := if i = termMonths then balance else payment - interestDue
    { principalDue, interestDue, balance := balance - principalDue } ::
      reducingBalanceTurns payment monthlyRate termMonths n (i + 1) (balance - principalDue)

/-- What is paid each month. -/
def annuityPayment (principal monthlyRate : ℚ) (termMonths : ℕ) : ℚ :=
  if monthlyRate = 0 then principal / termMonths
  else principal * monthlyRate * (1 + monthlyRate) ^ termMonths /
    ((1 + monthlyRate) ^ termMonths - 1)

/-- The turns of the loop of `generateSchedule`. -/
def generateScheduleTurns (principal annualRatePct : ℚ) (termMonths : ℕ) :
    List ReducingBalanceTurn :=
  let monthlyRate := annualRatePct / 100 / 12
  reducingBalanceTurns (annuityPayment principal monthlyRate termMonths) monthlyRate termMonths
    termMonths 1 principal

/-! ## The rows are the rounded turns -/

theorem reducingBalanceRows_eq_turns (payment monthlyRate : ℚ) (termMonths : ℕ)
    (startDate : DateTime) (n i : ℕ) (balance : ℚ) :
    (reducingBalanceRows payment monthlyRate termMonths startDate n i balance).map
        (fun row => (row.principalDue, row.interestDue)) =
      (reducingBalanceTurns payment monthlyRate termMonths n i balance).map
        ReducingBalanceTurn.rounded := by
  induction n generalizing i balance with
  | zero => rfl
  | succ n ih =>
    rw [reducingBalanceRows, reducingBalanceTurns, List.map_cons, List.map_cons, ih]
    rfl

theorem generateSchedule_eq_turns (principal annualRatePct : ℚ) (termMonths : ℕ)
    (startDate : DateTime) :
    (generateSchedule principal annualRatePct termMonths "REDUCING_BALANCE" startDate).map
        (fun row => (row.principalDue, row.interestDue)) =
      (generateScheduleTurns principal annualRatePct termMonths).map
        ReducingBalanceTurn.rounded := by
  unfold generateSchedule
  rw [if_pos rfl]
  exact reducingBalanceRows_eq_turns ..

/-! ## The closed form -/

section ClosedForm

variable {payment rate : ℚ}

/-- The turn with `k` installments to go after it. -/
def turnToGo (payment rate : ℚ) (k : ℕ) : ReducingBalanceTurn where
  principalDue := payment / (1 + rate) ^ (k + 1)
  interestDue := presentValue payment rate (k + 1) * rate
  balance := presentValue payment rate k

/-- The turns, as long as the payments to come pay off the balance. -/
theorem reducingBalanceTurns_eq (hrate : 0 ≤ rate) {termMonths n i : ℕ}
    (hi : i + n = termMonths + 1) :
    reducingBalanceTurns payment rate termMonths n i (presentValue payment rate n) =
      (List.range n).reverse.map (turnToGo payment rate) := by
  induction n generalizing i with
  | zero => rfl
  | succ n ih =>
    have hinterest : (if rate = 0 then 0 else presentValue payment rate (n + 1) * rate) =
        presentValue payment rate (n + 1) * rate := by
      by_cases h : rate = 0
      · rw [if_pos h, h, mul_zero]
      · rw [if_neg h]
    have hprincipal : (if i = termMonths then presentValue payment rate (n + 1)
        else payment - presentValue payment rate (n + 1) * rate) =
          payment / (1 + rate) ^ (n + 1) := by
      split
      · next hlast =>
        have hnone : n = 0 := by omega
        rw [hnone]
        simp [presentValue]
      · exact presentValue_principal hrate n
    have hbalance : presentValue payment rate (n + 1) - payment / (1 + rate) ^ (n + 1) =
        presentValue payment rate n := by
      rw [← presentValue_principal hrate n]
      exact presentValue_succ hrate n
    rw [reducingBalanceTurns, hinterest, hprincipal, hbalance, ih (by omega), List.range_succ,
      List.reverse_append, List.reverse_singleton, List.singleton_append, List.map_cons]
    rfl

/-- Every payment to come makes the balance larger. -/
theorem presentValue_strictMono (hpayment : 0 < payment) (hrate : 0 ≤ rate) :
    StrictMono (presentValue payment rate) := by
  apply strictMono_nat_of_lt_succ
  intro n
  have hprincipal := @presentValue_principal payment _ hrate n
  have hbalance := @presentValue_succ payment _ hrate n
  have hpos : 0 < payment / (1 + rate) ^ (n + 1) := by positivity
  linarith

theorem principalToGo_strictAnti (hpayment : 0 < payment) (hrate : 0 < rate) :
    StrictAnti fun k : ℕ => payment / (1 + rate) ^ (k + 1) := by
  apply strictAnti_nat_of_succ_lt
  intro k
  have hgrowth : (1 + rate) ^ (k + 1) < (1 + rate) ^ (k + 1 + 1) :=
    pow_lt_pow_right₀ (by linarith) (Nat.lt_succ_self _)
  exact div_lt_div_of_pos_left hpayment (by positivity) hgrowth

end ClosedForm

theorem annuityPayment_pos {principal rate : ℚ} (hprincipal : 0 < principal) (hrate : 0 < rate)
    {termMonths : ℕ} (hterm : 1 ≤ termMonths) : 0 < annuityPayment principal rate termMonths := by
  have hgrowth : 1 < (1 + rate) ^ termMonths := one_lt_pow₀ (by linarith) (by omega)
  have hdenominator : 0 < (1 + rate) ^ termMonths - 1 := by linarith
  rw [annuityPayment, if_neg hrate.ne']
  positivity

/-- Figures read backwards off a strictly monotone sequence fall. -/
theorem pairwise_reverse_range {f : ℕ → ℚ} (hf : StrictMono f) (n : ℕ) :
    ((List.range n).reverse.map f).Pairwise fun x y => y < x := by
  rw [List.pairwise_map, List.pairwise_reverse]
  exact List.pairwise_lt_range.imp fun h => hf h

/-- Numbers that are rounded to cents are off by half a cent each at most. -/
theorem abs_sum_round2_sub_le (xs : List ℚ) :
    |(xs.map round2).sum - xs.sum| ≤ xs.length * (5 / 1000) := by
  induction xs with
  | nil => simp
  | cons x xs ih =>
    have hfirst := abs_round2_sub_le x
    have hsplit : (round2 x + (xs.map round2).sum) - (x + xs.sum) =
        (round2 x - x) + ((xs.map round2).sum - xs.sum) := by ring
    rw [List.map_cons, List.sum_cons, List.sum_cons, hsplit, List.length_cons]
    have htriangle := abs_add_le (round2 x - x) ((xs.map round2).sum - xs.sum)
    push_cast
    linarith

theorem sum_principalToGo {payment rate : ℚ} (hrate : 0 ≤ rate) (n : ℕ) :
    ((List.range n).reverse.map fun k => payment / (1 + rate) ^ (k + 1)).sum =
      presentValue payment rate n := by
  induction n with
  | zero => rfl
  | succ n ih =>
    rw [List.range_succ, List.reverse_append, List.reverse_singleton, List.singleton_append,
      List.map_cons, List.sum_cons, ih, ← presentValue_principal hrate n]
    linarith [@presentValue_succ payment _ hrate n]

/-- Before it is rounded, every installment of a reducing-balance loan makes up the payment, also the
last one, which takes what is left; the balance falls from the principal to nothing, the interest
falls and the principal parts rise.  Rounded, the principal parts miss the principal by half a cent
each at most. -/
theorem reducing_balance_exact {principal annualRatePct : ℚ} (hprincipal : 0 < principal)
    (hrate : 0 < annualRatePct) {termMonths : ℕ} (hterm : 1 ≤ termMonths) (startDate : DateTime) :
    let payment := annuityPayment principal (annualRatePct / 100 / 12) termMonths
    let turns := generateScheduleTurns principal annualRatePct termMonths
    let rows := generateSchedule principal annualRatePct termMonths "REDUCING_BALANCE" startDate
    rows.map (fun row => (row.principalDue, row.interestDue)) =
        turns.map ReducingBalanceTurn.rounded ∧
      turns.length = termMonths ∧
      (∀ turn ∈ turns, turn.principalDue + turn.interestDue = payment) ∧
      (principal :: turns.map ReducingBalanceTurn.balance).Pairwise (fun x y => y < x) ∧
      (turns.map ReducingBalanceTurn.balance).getLast? = some 0 ∧
      (turns.map ReducingBalanceTurn.interestDue).Pairwise (fun x y => y < x) ∧
      (turns.map ReducingBalanceTurn.principalDue).Pairwise (fun x y => x < y) ∧
      |(rows.map ScheduleRow.principalDue).sum - principal| ≤ termMonths * (5 / 1000) := by
  intro payment turns rows
  have hmonthly : 0 < annualRatePct / 100 / 12 := by positivity
  have hpayment : 0 < payment := annuityPayment_pos hprincipal hmonthly hterm
  have hvalue : presentValue payment (annualRatePct / 100 / 12) termMonths = principal :=
    presentValue_payment hmonthly.le (by omega)
  have hrows : rows.map (fun row => (row.principalDue, row.interestDue)) =
      turns.map ReducingBalanceTurn.rounded := generateSchedule_eq_turns ..
  have hturns : turns = (List.range termMonths).reverse.map
      (turnToGo payment (annualRatePct / 100 / 12)) := by
    have h := @reducingBalanceTurns_eq payment _ hmonthly.le _ _ _ (Nat.add_comm 1 termMonths)
    rw [hvalue] at h
    exact h
  generalize annualRatePct / 100 / 12 = rate at hmonthly hvalue hturns
  have hbalances : turns.map ReducingBalanceTurn.balance =
      (List.range termMonths).reverse.map (presentValue payment rate) := by
    rw [hturns, List.map_map]
    rfl
  have hvalues := presentValue_strictMono hpayment hmonthly.le
  refine ⟨hrows, ?_, ?_, ?_, ?_, ?_, ?_, ?_⟩
  · rw [hturns, List.length_map, List.length_reverse, List.length_range]
  · rw [hturns, List.forall_mem_map]
    intro k _
    have h := @presentValue_principal payment _ hmonthly.le k
    show payment / (1 + rate) ^ (k + 1) + presentValue payment rate (k + 1) * rate = payment
    linarith
  · have h := pairwise_reverse_range hvalues (termMonths + 1)
    rw [List.range_succ, List.reverse_append, List.reverse_singleton, List.singleton_append,
      List.map_cons, hvalue, ← hbalances] at h
    exact h
  · obtain ⟨m, rfl⟩ : ∃ m, termMonths = m + 1 := ⟨termMonths - 1, by omega⟩
    rw [hbalances, List.range_succ_eq_map, List.reverse_cons, List.map_append, List.map_singleton,
      List.getLast?_concat]
    rfl
  · have hinterests : turns.map ReducingBalanceTurn.interestDue =
        (List.range termMonths).reverse.map fun k => presentValue payment rate (k + 1) * rate := by
      rw [hturns, List.map_map]
      rfl
    rw [hinterests]
    apply pairwise_reverse_range
    intro j k hjk
    exact mul_lt_mul_of_pos_right (hvalues (by omega)) hmonthly
  · rw [hturns, List.map_map, List.pairwise_map, List.pairwise_reverse]
    exact List.pairwise_lt_range.imp fun h => principalToGo_strictAnti hpayment hmonthly h
  · have hprincipals : rows.map ScheduleRow.principalDue =
        (turns.map ReducingBalanceTurn.principalDue).map round2 := by
      have h := congrArg (List.map Prod.fst) hrows
      rw [List.map_map, List.map_map] at h
      rw [List.map_map]
      exact h
    have hsum : (turns.map ReducingBalanceTurn.principalDue).sum = principal := by
      rw [hturns, List.map_map, ← hvalue]
      exact sum_principalToGo hmonthly.le termMonths
    have hlength : (turns.map ReducingBalanceTurn.principalDue).length = termMonths := by
      rw [hturns, List.length_map, List.length_map, List.length_reverse, List.length_range]
    have h := abs_sum_round2_sub_le (turns.map ReducingBalanceTurn.principalDue)
    rw [hsum, hlength] at h
    rw [hprincipals]
    exact h

/-- A thousand at twelve per cent in three installments. -/
theorem reducing_balance_exact_quarter :
    |((generateSchedule 1000 12 3 "REDUCING_BALANCE" 0).map ScheduleRow.principalDue).sum - 1000| ≤
      3 * (5 / 1000) :=
  (reducing_balance_exact (by norm_num) (by norm_num) (by norm_num) 0).2.2.2.2.2.2.2

end NexusEfos
