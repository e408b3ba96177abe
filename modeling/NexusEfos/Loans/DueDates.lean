/-
The months in which the installments of a schedule fall due.

A due date is the start date with its month moved on (`addMonths`), so that due dates always come
one after the other.  The day that the start date has in its month is not clamped: where a later
month lacks it, the due date lies in the month after that one.
-/
import NexusEfos.Calendar
import NexusEfos.Loans.Schedule

namespace NexusEfos

/-- The installments fall due one after the other, each in its own month, the first of them `first`
months after the start. -/
structure MonthByMonth (rows : List ScheduleRow) (startDate : DateTime) (first : ℤ) : Prop where
  increasing : (rows.map ScheduleRow.dueDate).Pairwise (· < ·)
  month : ∀ k (hk : k < rows.length),
    monthOf (rows[k].dueDate / msPerDay) = monthOf (startDate / msPerDay) + (k + first)

/-- The month `n` months after a date has the day of the date. -/
def HasDay (startDate : DateTime) (n : ℤ) : Prop :=
  let month := monthOf (startDate / msPerDay) + n
  dayOfMonth (startDate / msPerDay) ≤ monthLength (month / 12) (month % 12 + 1)

instance decidableHasDay (startDate : DateTime) (n : ℤ) : Decidable (HasDay startDate n) :=
  inferInstanceAs (Decidable (_ ≤ _))

section DueDates

variable {rows : List ScheduleRow} {startDate : DateTime} {first : ℤ} {n : ℕ}

/-- The due dates come one after the other. -/
theorem pairwise_addMonths (startDate : DateTime) (first : ℤ) (n : ℕ) :
    ((List.range n).map fun k : ℕ => addMonths startDate (k + first)).Pairwise (· < ·) := by
  rw [List.pairwise_map]
  apply List.pairwise_lt_range.imp
  intro j k hjk
  apply addMonths_strictMono
  omega

theorem monthByMonth_iff (hrows : rows.map ScheduleRow.dueDate =
    (List.range n).map fun k : ℕ => addMonths startDate (k + first)) :
    MonthByMonth rows startDate first ↔ ∀ k : ℕ, k < n → HasDay startDate (k + first) := by
  have hlength : rows.length = n := by
    have h := congrArg List.length hrows
    rwa [List.length_map, List.length_map, List.length_range] at h
  have hdate : ∀ k (hk : k < rows.length), rows[k].dueDate = addMonths startDate (k + first) := by
    intro k hk
    have h := congrArg (fun dates => dates[k]?) hrows
    rw [List.getElem?_map, List.getElem?_eq_getElem hk, List.getElem?_map,
      List.getElem?_range (by omega)] at h
    exact Option.some.inj h
  constructor
  · intro h k hk
    have hmonth := h.month k (by omega)
    rw [hdate] at hmonth
    exact (monthOf_addMonths_iff startDate (k + first)).mp hmonth
  · intro h
    constructor
    · rw [hrows]
      exact pairwise_addMonths startDate first n
    · intro k hk
      rw [hdate]
      exact (monthOf_addMonths_iff startDate (k + first)).mpr (h k (by omega))

theorem dueDate_reducingBalanceRows (payment rate : ℚ) (termMonths : ℕ) (startDate : DateTime)
    (n i : ℕ) (balance : ℚ) :
    (reducingBalanceRows payment rate termMonths startDate n i balance).map ScheduleRow.dueDate =
      (List.range n).map fun k : ℕ => addMonths startDate (k + i) := by
  induction n generalizing i balance with
  | zero => rfl
  | succ n ih =>
    rw [reducingBalanceRows, List.map_cons, ih, List.range_succ_eq_map, List.map_cons, List.map_map]
    congr 1
    · show addMonths startDate i = addMonths startDate ((0 : ℕ) + i)
      rw [Nat.cast_zero, zero_add]
    · apply List.map_congr_left
      intro k _
      show addMonths startDate (k + (i + 1 : ℕ)) = addMonths startDate ((k + 1 : ℕ) + i)
      congr 1
      push_cast
      ring

theorem dueDate_generateSchedule (principal annualRatePct : ℚ) (termMonths : ℕ) (method : String)
    (startDate : DateTime) :
    (generateSchedule principal annualRatePct termMonths method startDate).map ScheduleRow.dueDate =
      (List.range termMonths).map fun k : ℕ => addMonths startDate (k + 1) := by
  unfold generateSchedule
  by_cases hmethod : method = "REDUCING_BALANCE"
  · rw [if_pos hmethod]
    exact dueDate_reducingBalanceRows ..
  · rw [if_neg hmethod]
    exact List.map_map

theorem dueDate_generateRemainingSchedule (outstandingPrincipal outstandingInterest : ℚ) (n : ℕ)
    (nextDueDate : DateTime) :
    (generateRemainingSchedule outstandingPrincipal outstandingInterest n nextDueDate).map
        ScheduleRow.dueDate = (List.range n).map fun k : ℕ => addMonths nextDueDate (k + 0) := by
  unfold generateRemainingSchedule
  dsimp only
  rw [List.map_map]
  apply List.map_congr_left
  intro k _
  show addMonths nextDueDate k = addMonths nextDueDate (k + 0)
  rw [add_zero]

end DueDates

/-- The installments of a schedule, and what is left of one, fall due month by month exactly if each
of their months has the day on which the schedule starts. -/
theorem due_dates_month_by_month_iff (startDate : DateTime) (installments : ℕ) :
    (∀ (principal annualRatePct : ℚ) (method : String),
      MonthByMonth (generateSchedule principal annualRatePct installments method startDate)
          startDate 1 ↔
        ∀ k : ℕ, k < installments → HasDay startDate (k + 1)) ∧
    ∀ outstandingPrincipal outstandingInterest : ℚ,
      MonthByMonth (generateRemainingSchedule outstandingPrincipal outstandingInterest
          installments startDate) startDate 0 ↔
        ∀ k : ℕ, k < installments → HasDay startDate (k + 0) :=
  ⟨fun _ _ _ => monthByMonth_iff (dueDate_generateSchedule ..),
    fun _ _ => monthByMonth_iff (dueDate_generateRemainingSchedule ..)⟩

/-- A loan of 31 January 2026 in two installments: both fall due in March. -/
theorem due_dates_january :
    let startDate := daysFromCivil 2026 1 31 * msPerDay
    let rows := generateSchedule 1200 12 2 "REDUCING_BALANCE" startDate
    rows.map (fun row => civilFromDays (row.dueDate / msPerDay)) = [(2026, 3, 3), (2026, 3, 31)] ∧
      ¬ MonthByMonth rows startDate 1 := by
  intro startDate rows
  have hrows := dueDate_generateSchedule 1200 12 2 "REDUCING_BALANCE" startDate
  constructor
  · have h := congrArg (List.map fun t => civilFromDays (t / msPerDay)) hrows
    rw [List.map_map] at h
    exact h.trans (by decide)
  · rw [monthByMonth_iff hrows]
    exact fun h => absurd (h 0 (by decide)) (by decide)

end NexusEfos
