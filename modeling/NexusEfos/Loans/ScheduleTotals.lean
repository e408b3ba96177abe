/-
What a schedule adds up to.

Both schedules round their installments.  What the rounding leaves, or takes too much, is made up
for by the last installment of a remaining schedule, which may have to be negative for it, and by
nobody in a schedule that is generated anew.
-/
import NexusEfos.Loans.Schedule

namespace NexusEfos

theorem round2_toNumber_div (c : Cents) {n : ℕ} (hn : 0 < n) :
    round2 (toNumber c / n) = toNumber (c / n + if 2 * (c % n) < n then 0 else 1) := by
  have hcents : toNumber c / n * 100 = (c : ℚ) / n := by
    rw [div_mul_eq_mul_div, toNumber_mul_hundred]
  rw [round2_eq_toNumber, hcents, round_intCast_div c hn]

theorem sum_map_range_const {M : Type*} [AddCommMonoid M] (x : M) (n : ℕ) :
    ((List.range n).map fun _ => x).sum = n • x := by
  rw [List.map_const', List.length_range, List.sum_replicate]

/-! ## A remaining schedule -/

/-- What one figure is split into: equal shares, rounded, and what they leave for the last. -/
def remainingShares (x : ℚ) (n : ℕ) : List ℚ :=
  let share := round2 (x / n)
  (List.range n).map fun k => if k + 1 = n then round2 (x - round2 (share * (n - 1))) else share

/-- All but one of the shares of a figure, rounded, do not exceed it: they are rounded down, or
the figure is large enough for what they are rounded up by. -/
def SharesFit (c : Cents) (n : ℕ) : Prop := 2 * (c % n) < n ∨ (n : ℤ) ≤ c / n + c % n + 1

instance (c : Cents) (n : ℕ) : Decidable (SharesFit c n) := inferInstanceAs (Decidable (_ ∨ _))

section Remaining

variable {c : Cents} {n : ℕ}

/-- The shares, where the number of them is not 0. -/
theorem remainingShares_succ (c : Cents) (n : ℕ) :
    let share := c / (n + 1 : ℕ) + if 2 * (c % (n + 1 : ℕ)) < (n + 1 : ℕ) then 0 else 1
    remainingShares (toNumber c) (n + 1) =
      List.replicate n (toNumber share) ++ [toNumber (c - n * share)] := by
  intro share
  have hshare : round2 (toNumber c / (n + 1 : ℕ)) = toNumber share :=
    round2_toNumber_div c n.succ_pos
  have hothers : toNumber share * ((n + 1 : ℕ) - 1) = toNumber (n * share) := by
    unfold toNumber
    push_cast
    ring
  unfold remainingShares
  simp only [hshare, hothers, round2_toNumber, ← toNumber_sub]
  rw [List.range_succ, List.map_append, List.map_singleton, if_pos rfl]
  congr 1
  rw [List.eq_replicate_iff]
  constructor
  · rw [List.length_map, List.length_range]
  · intro x hx
    obtain ⟨k, hk, rfl⟩ := List.mem_map.mp hx
    have hlt := List.mem_range.mp hk
    exact if_neg (by omega)

theorem length_remainingShares (x : ℚ) (n : ℕ) : (remainingShares x n).length = n := by
  unfold remainingShares
  rw [List.length_map, List.length_range]

/-- The shares make up the figure. -/
theorem sum_remainingShares (hn : 0 < n) : (remainingShares (toNumber c) n).sum = toNumber c := by
  obtain ⟨m, rfl⟩ := Nat.exists_eq_succ_of_ne_zero hn.ne'
  rw [Nat.succ_eq_add_one, remainingShares_succ, List.sum_append, List.sum_replicate,
    List.sum_singleton, nsmul_eq_mul]
  unfold toNumber
  push_cast
  ring

/-- None of them is negative exactly if they fit. -/
theorem remainingShares_nonneg_iff (hc : 0 ≤ c) (hn : 0 < n) :
    (∀ x ∈ remainingShares (toNumber c) n, 0 ≤ x) ↔ SharesFit c n := by
  obtain ⟨m, rfl⟩ := Nat.exists_eq_succ_of_ne_zero hn.ne'
  have hpos : (0 : ℤ) < (m + 1 : ℕ) := Int.natCast_pos.mpr m.succ_pos
  have hr0 := Int.emod_nonneg c hpos.ne'
  have hrn := Int.emod_lt_of_pos c hpos
  have hq0 := Int.ediv_nonneg hc hpos.le
  have hdiv := Int.mul_ediv_add_emod c (m + 1 : ℕ)
  rw [Nat.succ_eq_add_one, remainingShares_succ]
  unfold SharesFit
  generalize c / ((m + 1 : ℕ) : ℤ) = q at hdiv hq0 ⊢
  generalize c % ((m + 1 : ℕ) : ℤ) = r at hdiv hr0 hrn ⊢
  have hlast : (0 : ℚ) ≤ toNumber (c - m * (q + if 2 * r < (m + 1 : ℕ) then 0 else 1)) ↔
      2 * r < (m + 1 : ℕ) ∨ ((m + 1 : ℕ) : ℤ) ≤ q + r + 1 := by
    rw [toNumber_nonneg, ← hdiv]
    push_cast at hrn ⊢
    split
    · next h =>
      have hrest : (m + 1) * q + r - m * (q + 0) = q + r := by ring
      rw [hrest]
      exact iff_of_true (by linarith) (.inl h)
    · next h =>
      have hrest : (m + 1) * q + r - m * (q + 1) = q + r - m := by ring
      rw [hrest]
      constructor
      · intro hle
        right
        linarith
      · rintro (hlt | hle)
        · exact absurd hlt h
        · linarith
  rw [← hlast]
  constructor
  · intro h
    exact h _ (List.mem_append_right _ (List.mem_singleton_self _))
  · intro hlast' x hx
    rcases List.mem_append.mp hx with hx | hx
    · rw [List.eq_of_mem_replicate hx, toNumber_nonneg]
      split <;> linarith
    · rw [List.mem_singleton.mp hx]
      exact hlast'

/-- The figures of a remaining schedule are the shares of what is outstanding. -/
theorem generateRemainingSchedule_shares (outstandingPrincipal outstandingInterest : ℚ) (n : ℕ)
    (nextDueDate : DateTime) :
    (generateRemainingSchedule outstandingPrincipal outstandingInterest n nextDueDate).map
        ScheduleRow.principalDue = remainingShares outstandingPrincipal n ∧
      (generateRemainingSchedule outstandingPrincipal outstandingInterest n nextDueDate).map
        ScheduleRow.interestDue = remainingShares outstandingInterest n := by
  unfold generateRemainingSchedule remainingShares
  simp only [List.map_map]
  exact ⟨rfl, rfl⟩

end Remaining

/-- The principal in a payment of an annuity, `k` payments after the first. -/
def principalShare (principal monthlyRate : ℚ) (termMonths k : ℕ) : ℚ :=
  if monthlyRate = 0 then principal / termMonths
  else principal * monthlyRate * (1 + monthlyRate) ^ k / ((1 + monthlyRate) ^ termMonths - 1)

/-- The interest of a flat loan over its term. -/
def flatInterest (principal annualRatePct : ℚ) (termMonths : ℕ) : ℚ :=
  principal * (annualRatePct / 100) * (termMonths / 12)

section Generated

variable {payment rate : ℚ}

/-- The principal in a payment is worth as much as the payment is at the end. -/
theorem presentValue_principal (hrate : 0 ≤ rate) (n : ℕ) :
    payment - presentValue payment rate (n + 1) * rate = payment / (1 + rate) ^ (n + 1) := by
  have hne : 1 + rate ≠ 0 := by positivity
  induction n with
  | zero =>
    simp only [presentValue, zero_add, pow_one]
    field_simp
    ring
  | succ n ih =>
    have hnext : payment - presentValue payment rate (n + 1 + 1) * rate =
        (payment - presentValue payment rate (n + 1) * rate) / (1 + rate) := by
      rw [presentValue]
      field_simp
      ring
    rw [hnext, ih, div_div, ← pow_succ]

/-- The principal of the rows, as long as the payments to come pay off the balance. -/
theorem principalDue_reducingBalanceRows (hrate : 0 ≤ rate) {termMonths n i : ℕ}
    (hi : i + n = termMonths + 1) (startDate : DateTime) :
    (reducingBalanceRows payment rate termMonths startDate n i (presentValue payment rate n)).map
        ScheduleRow.principalDue =
      (List.range n).map fun k => round2 (payment / (1 + rate) ^ (n - k)) := by
  have hne : 1 + rate ≠ 0 := by positivity
  induction n generalizing i with
  | zero => rfl
  | succ n ih =>
    have hinterest : (if rate = 0 then 0 else presentValue payment rate (n + 1) * rate) =
        presentValue payment rate (n + 1) * rate := by
      by_cases h : rate = 0
      · rw [if_pos h, h, mul_zero]
      · rw [if_neg h]
    have hprincipal : (if i = termMonths then presentValue payment rate (n + 1)
        else payment - presentValue payment rate (n + 1) * rate) =
          payment / (1 + rate) ^ (n + 1) := by
      split
      · next hlast =>
        have hnone : n = 0 := by omega
        rw [hnone]
        simp [presentValue]
      · exact presentValue_principal hrate n
    have hbalance : presentValue payment rate (n + 1) - payment / (1 + rate) ^ (n + 1) =
        presentValue payment rate n := by
      rw [← presentValue_principal hrate n]
      exact presentValue_succ hrate n
    rw [reducingBalanceRows, hinterest, hprincipal, hbalance, List.map_cons, ih (by omega),
      List.range_succ_eq_map, List.map_cons, List.map_map]
    congr 1
    apply List.map_congr_left
    intro k _
    show _ = round2 (payment / (1 + rate) ^ (n + 1 - (k + 1)))
    rw [Nat.add_sub_add_right]

/-- The principal of a reducing-balance schedule. -/
theorem principalDue_generateSchedule_reducing {annualRatePct : ℚ} (hrate : 0 ≤ annualRatePct)
    (principal : ℚ) {termMonths : ℕ} (hterm : 0 < termMonths) (startDate : DateTime) :
    (generateSchedule principal annualRatePct termMonths "REDUCING_BALANCE" startDate).map
        ScheduleRow.principalDue =
      (List.range termMonths).map fun k =>
        round2 (principalShare principal (annualRatePct / 100 / 12) termMonths k) := by
  have hmonthly : 0 ≤ annualRatePct / 100 / 12 := by positivity
  have hvalue := @presentValue_payment _ principal hmonthly _ hterm.ne'
  unfold generateSchedule
  rw [if_pos rfl]
  generalize annualRatePct / 100 / 12 = rate at hmonthly hvalue ⊢
  have hrows := @principalDue_reducingBalanceRows (if rate = 0 then principal / termMonths
    else principal * rate * (1 + rate) ^ termMonths / ((1 + rate) ^ termMonths - 1)) rate hmonthly
      termMonths termMonths 1 (Nat.add_comm 1 termMonths) startDate
  rw [hvalue] at hrows
  dsimp only
  rw [hrows]
  apply List.map_congr_left
  intro k hk
  have hle : k ≤ termMonths := (List.mem_range.mp hk).le
  unfold principalShare
  congr 1
  split
  · next hzero => rw [hzero, add_zero, one_pow, div_one]
  · next hzero =>
    have hpos : 0 < rate := lt_of_le_of_ne hmonthly (Ne.symm hzero)
    have hgrowth : 1 < (1 + rate) ^ termMonths := one_lt_pow₀ (by linarith) hterm.ne'
    have hne : (1 + rate) ^ termMonths - 1 ≠ 0 := by linarith
    have hbase : (1 + rate) ≠ 0 := by positivity
    rw [div_div, div_eq_div_iff (by positivity) hne, ← pow_sub_mul_pow (1 + rate) hle]
    ring

/-- The principal and the interest of a flat schedule. -/
theorem generateSchedule_flat {method : String} (hmethod : method ≠ "REDUCING_BALANCE")
    (principal annualRatePct : ℚ) (termMonths : ℕ) (startDate : DateTime) :
    (generateSchedule principal annualRatePct termMonths method startDate).map
        ScheduleRow.principalDue =
      (List.range termMonths).map (fun _ => round2 (principal / termMonths)) ∧
    (generateSchedule principal annualRatePct termMonths method startDate).map
        ScheduleRow.interestDue =
      (List.range termMonths).map fun _ =>
        round2 (flatInterest principal annualRatePct termMonths / termMonths) := by
  unfold generateSchedule
  rw [if_neg hmethod]
  simp only [List.map_map]
  exact ⟨rfl, rfl⟩

/-- Equal shares make up a number, rounded, exactly if that can be divided. -/
theorem sum_round2_shares_iff (x : ℚ) {n : ℕ} (hn : 0 < n) :
    ((List.range n).map fun _ => round2 (x / n)).sum = round2 x ↔ (n : ℤ) ∣ round (x * 100) := by
  have hshare : x / n * 100 = x * 100 / n := by ring
  have hsum : (n : ℚ) * toNumber (round (x * 100 / n)) = toNumber (n * round (x * 100 / n)) := by
    unfold toNumber
    push_cast
    ring
  rw [sum_map_range_const, nsmul_eq_mul, round2_eq_toNumber, round2_eq_toNumber, hshare, hsum,
    toNumber_inj, mul_round_div_eq_iff hn]

end Generated

/-- The principal of a schedule can be divided into rounded installments: for a flat loan that is
so if it and the interest are divisible by their number, and otherwise if what the installments of
the annuity are rounded up and down by makes nothing. -/
def Divides (method : String) (principal : Cents) (annualRatePct : ℚ) (termMonths : ℕ) : Prop :=
  if method = "REDUCING_BALANCE" then
    ((List.range termMonths).map fun k =>
      round (principalShare principal (annualRatePct / 100 / 12) termMonths k)).sum = principal
  else
    (termMonths : ℤ) ∣ principal ∧
      (termMonths : ℤ) ∣ round (flatInterest principal annualRatePct termMonths)

end NexusEfos
