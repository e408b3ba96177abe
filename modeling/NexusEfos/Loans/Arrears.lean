/-
The arrears of a loan, `lib/arrears.ts`, and their daily run, `lib/scheduler.ts`.
-/
import NexusEfos.Ledger.Posting
import NexusEfos.Loans.Schedule

namespace NexusEfos

/-! ## The classification -/

/-- An installment as the classification reads it. -/
structure ArrearsInstallment where
  dueDate : DateTime
  totalDue : ℚ
  principalPaid : ℚ
  interestPaid : ℚ

structure ArrearsResult where
  daysInArrears : ℤ
  arrearsAmount : ℚ
  classification : ArrearsClassification

/-- `classify`. -/
def classifyDays (days : ℤ) : ArrearsClassification :=
  if days ≤ 0 then .current
  else if days ≤ 30 then .arrears1To30
  else if days ≤ 60 then .arrears31To60
  else if days ≤ 90 then .arrears61To90
  else .arrears90Plus

/-- The installment is due, and more than a cent of it is missing. -/
def ArrearsInstallment.IsOverdue (i : ArrearsInstallment) (asOf : DateTime) : Prop :=
  i.dueDate < asOf ∧ i.principalPaid + i.interestPaid < i.totalDue - 1 / 100

instance (i : ArrearsInstallment) (asOf : DateTime) : Decidable (i.IsOverdue asOf) :=
  inferInstanceAs (Decidable (_ ∧ _))

def calculateArrears (installments : List ArrearsInstallment) (asOf : DateTime) : ArrearsResult :=
  match installments.filter fun i => i.IsOverdue asOf with
  | [] => { daysInArrears := 0, arrearsAmount := 0, classification := .current }
  | first :: rest =>
    let oldestDue := rest.foldl (fun oldest i => if i.dueDate < oldest then i.dueDate else oldest)
      first.dueDate
    let daysInArrears := (asOf - oldestDue) / msPerDay
    let arrearsAmount := ((first :: rest).map fun i =>
      max 0 (i.totalDue - i.principalPaid - i.interestPaid)).sum
    { daysInArrears, arrearsAmount := round2 arrearsAmount,
      classification := classifyDays daysInArrears }

theorem oldestDue_le (rest : List ArrearsInstallment) (d : DateTime) :
    rest.foldl (fun oldest i => if i.dueDate < oldest then i.dueDate else oldest) d ≤ d := by
  induction rest generalizing d with
  | nil => exact le_refl d
  | cons i rest ih =>
    rw [List.foldl_cons]
    apply (ih _).trans
    split
    · next hearlier => exact hearlier.le
    · exact le_refl d

/-- The days are counted from a date that has passed. -/
theorem daysInArrears_nonneg (installments : List ArrearsInstallment) (asOf : DateTime) :
    0 ≤ (calculateArrears installments asOf).daysInArrears := by
  unfold calculateArrears
  split
  · exact le_refl 0
  · next first rest hoverdue =>
    have hfirst : first ∈ installments.filter fun i => i.IsOverdue asOf := by
      rw [hoverdue]
      exact List.mem_cons_self ..
    have hdue : first.dueDate < asOf := (of_decide_eq_true (List.mem_filter.mp hfirst).2).1
    have holdest := oldestDue_le rest first.dueDate
    apply Int.ediv_nonneg
    · exact sub_nonneg.mpr (holdest.trans hdue.le)
    · decide

/-- The classification is that of the days. -/
theorem classification_eq (installments : List ArrearsInstallment) (asOf : DateTime) :
    (calculateArrears installments asOf).classification =
      classifyDays (calculateArrears installments asOf).daysInArrears := by
  unfold calculateArrears
  split
  · rfl
  · rfl

/-! ## The run -/

/-- An installment as the run hands it on. -/
def LoanInstallment.arrears (i : LoanInstallment) : ArrearsInstallment :=
  { dueDate := i.dueDate, totalDue := toNumber i.totalDue, principalPaid := toNumber i.principalPaid,
    interestPaid := toNumber i.interestPaid }

/-- The loans that are looked at, with their installments. -/
def Db.runningLoans (s : Db) : List ((Id × Loan) × List LoanInstallment) :=
  ((s.table .loan).entries.filter fun l => l.2.status ∈ [LoanStatus.disbursed, .active]).map
    fun l => (l, (s.table .loanInstallment).values.filter fun i => i.loanId = l.1)

/-- The stored arrears differ from those that have been worked out. -/
def Loan.ArrearsDiffer (loan : Loan) (result : ArrearsResult) : Prop :=
  result.classification ≠ loan.arrearsClassification ∨ result.daysInArrears ≠ loan.daysInArrears ∨
    1 / 100 < |result.arrearsAmount - toNumber loan.arrearsAmount|

instance (loan : Loan) (result : ArrearsResult) : Decidable (loan.ArrearsDiffer result) :=
  inferInstanceAs (Decidable (_ ∨ _ ∨ _))

/-- One turn of the loop. -/
def updateArrears (today : DateTime) (loan : (Id × Loan) × List LoanInstallment) : Handler Unit :=
  let result := calculateArrears (loan.2.map LoanInstallment.arrears) today
  if loan.1.2.ArrearsDiffer result then do
    let _ ← update .loan loan.1.1 fun l =>
      { l with arrearsClassification := result.classification,
               daysInArrears := result.daysInArrears,
               arrearsAmount := ofNumber result.arrearsAmount, lastArrearsCheckAt := some today }
  else do
    let _ ← update .loan loan.1.1 fun l => { l with lastArrearsCheckAt := some today }

def runArrearsCheck (today : DateTime) : Handler Unit := do
  let loans ← query Db.runningLoans
  Proc.forEach loans (updateArrears today)

end NexusEfos
